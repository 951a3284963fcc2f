/-
# Markers

What the markers of contracts do when a contract is run and not compiled: a decorator attaches a
value under a key, a pipe applies its steps from left to right, and an expectation lets a present
value through.
-/

import AikenForge.Options
import AikenForge.Record.Basic

namespace AikenForge

/-- A marker of a declaration. -/
inductive Marker
  | contract | handler | hidden | test
  deriving DecidableEq

/-- What a marker attaches: a name, or only that it was there. -/
inductive MarkValue
  | name (text : String)
  | present
  deriving DecidableEq

namespace Marker

/-- The key under which a marker attaches its value. -/
def key : Marker → String
  | .contract => "__aiken_contract__"
  | .handler => "__aiken_purpose__"
  | .hidden => "__aiken_opaque__"
  | .test => "__aiken_test__"

/-- The value that a marker attaches to a target: its argument if there is one, else the target's
name. -/
def value (marker : Marker) (target : String) (argument : Option String) : MarkValue :=
  match marker with
  | .contract | .handler => .name ((argument.bind nonEmpty?).getD target)
  | .hidden | .test => .present

end Marker

/-- The text of the marker of a datum. -/
def datumMarker : String :=
  "datum"

/-- An expected value is missing, and what is said about that. -/
structure MissingValue where
  message : String
  deriving DecidableEq

/-- Let a value through that is present. -/
def expectPresent (message : Option String) : Option α → Except MissingValue α
  | some value => .ok value
  | none => .error ⟨message.getD defaultExpectMessage⟩

/-- Apply steps to a value from left to right; the first that fails ends the run. -/
def runPipe (value : α) (steps : List (α → Except ε α)) : Except ε α :=
  steps.foldlM (fun x step => step x) value

end AikenForge
