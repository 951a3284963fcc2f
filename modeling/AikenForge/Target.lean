/-
# Target types

The types of generated code, and their text. A list is meant to have one argument; one without has
no text.
-/

import AikenForge.Failure

namespace AikenForge

mutual

/-- A type of the target language. -/
inductive Target
  | primitive (name : String)
  | application (name : String) (args : List Target)
  | record (fields : List TargetField)
  | union (members : List Target)
  | list (args : List Target)
  | tuple (items : List Target)
  | literal (text : String)
  | void

/-- A labelled field of a record type. -/
inductive TargetField
  | mk (label : String) (type : Target)

end

instance : Inhabited Target := ⟨.void⟩

/-- The label of a field. -/
def TargetField.label : TargetField → String
  | .mk label _ => label

/-- The type of a field. -/
def TargetField.type : TargetField → Target
  | .mk _ type => type

namespace Target

/-- Whether a type is void. -/
def isVoid : Target → Bool
  | .void => true
  | _ => false

mutual

/-- The text of a type; a record is written `{ owner: ByteArray, amount: Int }`. -/
def render : Target → String
  | .void => "Void"
  | .primitive name => name
  | .literal text => text
  | .list [] => "List<>"
  | .list (element :: _) => "List<" ++ element.render ++ ">"
  | .application name args => name ++ "<" ++ ", ".intercalate (renderAll args) ++ ">"
  | .tuple items => "(" ++ ", ".intercalate (renderAll items) ++ ")"
  | .union members => " | ".intercalate (renderAll members)
  | .record fields =>
    let body := ", ".intercalate (renderFields fields)
    if body.isEmpty then "\x7b\x7d" else "\x7b " ++ body ++ " \x7d"

/-- The texts of types in order. -/
def renderAll : List Target → List String
  | [] => []
  | type :: rest => type.render :: renderAll rest

/-- The texts of fields in order. -/
def renderFields : List TargetField → List String
  | [] => []
  | .mk label type :: rest => (label ++ ": " ++ type.render) :: renderFields rest

end

mutual

/-- Whether every list that the text of a type reads has an argument. -/
def isComplete : Target → Bool
  | .void | .primitive _ | .literal _ => true
  | .list [] => false
  | .list (element :: _) => element.isComplete
  | .application _ args => allComplete args
  | .tuple items => allComplete items
  | .union members => allComplete members
  | .record fields => fieldsComplete fields

/-- Whether every type of a list is complete. -/
def allComplete : List Target → Bool
  | [] => true
  | type :: rest => type.isComplete && allComplete rest

/-- Whether every field's type is complete. -/
def fieldsComplete : List TargetField → Bool
  | [] => true
  | .mk _ type :: rest => type.isComplete && fieldsComplete rest

end

/-- The text of a type, if every list that it reads has an argument. -/
def render? (type : Target) : Except Failure String :=
  if type.isComplete then .ok type.render else .error .noElement

end Target

end AikenForge
