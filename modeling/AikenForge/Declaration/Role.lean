/-
# Roles of declarations

What decorators and markers say about declarations, collected in one table by qualified name, so
that no later stage looks at decorators again.
-/

import AikenForge.Declaration.Documentation
import AikenForge.Table

namespace AikenForge

open AikenForge.Source

/-- The role of a declaration: a contract under a name, the datum of a contract, a handler of a
purpose, a type whose definition is hidden, or a test. -/
inductive Role
  | contract (name : String)
  | datum (field : String)
  | handler (purpose : String)
  | hidden
  | test
  deriving DecidableEq

/-- A role and the documentation of the declaration that has it. -/
structure RoleEntry where
  role : Role
  docs : Documentation := none

/-- Roles by qualified name. -/
abbrev RoleTable := Table RoleEntry

namespace RoleTable

/-- The last part of the name of a decorator or marker. -/
def markName? : Expr → Option String
  | .name id => some id
  | .attribute _ label => some label
  | _ => none

/-- The name of a decorator and its first argument, if that is a text; decorators of another form
have no name. -/
def decoratorName? : Expr → Option (String × Option String)
  | .call callee args _ =>
    (markName? callee).map fun name => (name, match args with
      | .constant (.text points _) :: _ => some points.text
      | _ => none)
  | e => (markName? e).map fun name => (name, none)

/-- The named decorators of a declaration. -/
def decoratorNames (decorators : List Decorator) : List (String × Option String) :=
  decorators.filterMap fun d => decoratorName? d.expression

/-- Whether a marker of an annotation marks a datum. -/
def isDatumMarker : Expr → Bool
  | .call callee _ _ => markName? callee == some "datum"
  | e => markName? e == some "datum"

/-- Whether an annotation marks a datum. -/
def isDatumHint : Expr → Bool
  | .subscript base (.tuple (_ :: markers)) =>
    markName? base == some "Annotated" && markers.any isDatumMarker
  | _ => false

/-- Whether a function is a test. -/
def isTest (header : FunctionHeader) : Bool :=
  !header.isAsync &&
    ((decoratorNames header.decorators).any (·.1 == "test") ||
      "test_".toList.isPrefixOf header.name.toList)

/-- The argument of a decorator, or a name in its place if there is none. -/
def argumentOr (name : String) (argument : Option String) : String :=
  match argument with
  | some text => if text.isEmpty then name else text
  | none => name

/-- The roles that the decorators of a class give it; the last one counts. -/
def addClass (header : ClassHeader) (body : List Stmt) (table : RoleTable) : RoleTable :=
  (decoratorNames header.decorators).foldl (fun table (decorator, argument) =>
    if decorator == "contract" then
      table.insert header.name
        ⟨.contract (argumentOr header.name argument), .ofBlock body⟩
    else if decorator == "opaque" then table.insert header.name ⟨.hidden, .ofBlock body⟩
    else table) table

/-- The role of a member of a class. -/
def addMember (className : String) (table : RoleTable) : Stmt → RoleTable
  | .function _ header body =>
    if header.isAsync then table
    else (decoratorNames header.decorators).foldl (fun table (decorator, argument) =>
      if decorator == "validator" then
        table.insert (className ++ "." ++ header.name)
          ⟨.handler (argumentOr header.name argument), .ofBlock body⟩
      else table) table
  | .simple _ (.annotates (.name id) hint _) =>
    if isDatumHint hint then table.insert (className ++ "." ++ id) ⟨.datum id, none⟩ else table
  | _ => table

/-- The roles that a statement of a module gives. -/
def addStatement (table : RoleTable) : Stmt → RoleTable
  | .classDef _ header body => body.foldl (addMember header.name) (addClass header body table)
  | .function _ header body =>
    if isTest header then table.insert header.name ⟨.test, .ofBlock body⟩ else table
  | _ => table

/-- The roles of the declarations of a module. -/
def ofModule (statements : List Stmt) : RoleTable :=
  statements.foldl addStatement []

/-- The role of a qualified name. -/
def role? (table : RoleTable) (name : String) : Option Role :=
  (table.find? name).map RoleEntry.role

/-- The name of the contract that a class is. -/
def contract? (table : RoleTable) (className : String) : Option String :=
  match table.role? className with
  | some (.contract name) => some name
  | _ => none

end RoleTable

end AikenForge
