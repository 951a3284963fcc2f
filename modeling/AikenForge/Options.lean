/-
# Options

What a caller can choose about the generated text, and the names of characters that it lets source
text use.
-/

import AikenForge.Text.CodePoints

namespace AikenForge

/-- The message of an expectation that was given none. -/
def defaultExpectMessage : String :=
  "Expected value but found None"

/-- Options of generated text, and the names by which escapes in source text may write characters.
An `indent` below zero does not indent. -/
structure Options where
  indent : Int := 2
  emitDocs : Bool := true
  expectMessage : String := defaultExpectMessage
  names : CharacterNames := fun _ => none

end AikenForge
