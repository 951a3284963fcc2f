/-
# Computations that report

Work that may fail and leaves entries in the journal. What was reported before a failure stays
reported.
-/

import AikenForge.Failure
import AikenForge.Journal

namespace AikenForge

/-- A computation that reports and may fail. -/
abbrev Reporting := ExceptT Failure (StateM Journal)

namespace Reporting

/-- Report something. -/
def note (level : Level) (channel : Channel) (message : String) : Reporting Unit :=
  modify fun journal => journal.add level channel message

/-- Report a warning. -/
def warn (channel : Channel) (message : String) : Reporting Unit :=
  note .warning channel message

end Reporting

end AikenForge
