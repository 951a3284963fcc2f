/-
# Failures

Why work on source text ends without a result. Source that cannot be read is one cause; the others
are texts and values beyond a limit, and declarations that do not have the parts a rule asks for.
-/

import AikenForge.Path
import AikenForge.Text.CodePoints

namespace AikenForge

/-- The cause of a failure. -/
inductive Failure
  | unreadable (file : String) (line : Nat)
  | nul
  | surrogates (position : Nat) (run : CodePoints)
  | infiniteInteger
  | digitLimit
  | noIndex (kind : String)
  | noItems (kind : String)
  | noFirstItem
  | noElement
  | noPurpose
  deriving DecidableEq

/-- Where a run of surrogates stands in a text; a single one is named. -/
def surrogatePlace (position : Nat) : CodePoints → String
  | [point] => "character '" ++ .ofList (Text.unitEscape point) ++ "' in position " ++
      toString position
  | run => "characters in position " ++ toString position ++ "-" ++
      toString (position + run.length - 1)

/-- What a failure says. -/
def Failure.message : Failure → String
  | .unreadable file line =>
    "invalid syntax (" ++ Path.baseName file ++ ", line " ++ toString line ++ ")"
  | .nul => "source code string cannot contain null bytes"
  | .surrogates position run =>
    "'utf-8' codec can't encode " ++ surrogatePlace position run ++ ": surrogates not allowed"
  | .infiniteInteger => "cannot convert float infinity to integer"
  | .digitLimit =>
    "Exceeds the limit (4300 digits) for integer string conversion; " ++
      "use sys.set_int_max_str_digits() to increase the limit"
  | .noIndex kind => "'" ++ kind ++ "' object has no attribute 'slice'"
  | .noItems kind => "'" ++ kind ++ "' object has no attribute 'elts'"
  | .noFirstItem => "list index out of range"
  | .noElement => "tuple index out of range"
  | .noPurpose => "'NoneType' object has no attribute 'value'"

end AikenForge
