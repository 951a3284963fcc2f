/-
# The journal

What the program reports while it works: warnings about source it does not support, and notes for a
verbose run. The journal is a value that the stages append to.
-/

namespace AikenForge

/-- How important an entry is, least first. -/
inductive Level
  | debug | info | warning
  deriving DecidableEq

/-- The name of a level in a report. -/
def Level.label : Level → String
  | .debug => "DEBUG"
  | .info => "INFO"
  | .warning => "WARNING"

/-- The part of the program that an entry comes from. -/
inductive Channel
  | reading | imports | constants | functions | declaredTypes | directives
  | expressions | statements | patterns | annotations | handlers
  | transform | pipeline
  deriving DecidableEq

/-- The name of a channel in a report. -/
def Channel.label : Channel → String
  | .reading => "aikscript.parser"
  | .imports => "aikscript.parsers.imports"
  | .constants => "aikscript.parsers.constants"
  | .functions => "aikscript.parsers.functions"
  | .declaredTypes => "aikscript.parsers.types"
  | .directives => "aikscript.parsers.directives"
  | .expressions => "aikscript.translators.expressions"
  | .statements => "aikscript.translators.statements"
  | .patterns => "aikscript.translators.patterns"
  | .annotations => "aikscript.translators.types"
  | .handlers => "aikscript.translators.validators"
  | .transform => "aikscript.core.transformer"
  | .pipeline => "aikscript.core.transpiler"

/-- One entry of the journal. -/
structure JournalEntry where
  level : Level
  channel : Channel
  message : String

/-- The entries so far, earliest first. -/
abbrev Journal := List JournalEntry

/-- The journal with one more entry. -/
def Journal.add (journal : Journal) (level : Level) (channel : Channel) (message : String) :
    Journal :=
  journal ++ [⟨level, channel, message⟩]

end AikenForge
