/-
# Constants

Module-level constants, under names in lower snake case. The type of a literal is evident; any other
value needs an annotation to have one.
-/

import AikenForge.Declaration.Documentation
import AikenForge.Lowering.Expression
import AikenForge.Lowering.Hint

namespace AikenForge

open AikenForge.Source AikenForge.Text

/-- A declared constant. -/
structure ConstantDeclaration where
  name : String
  value : String
  type : Option String := none
  isPublic : Bool := false
  docs : Documentation := none
  deriving BEq

namespace ConstantDeclaration

/-- The text of a constant. An empty type is no type. -/
def render (options : Options) (d : ConstantDeclaration) : String :=
  let type := match d.type.bind nonEmpty? with
    | some text => ": " ++ text
    | none => ""
  joinLines (d.docs.lines options ++
    [visibility d.isPublic ++ "const " ++ d.name ++ type ++ " = " ++ d.value])

/-- The type of a literal, a negated literal, or a list that starts with one. -/
def literalType? : Expr → Option String
  | .constant (.bool _) => some "Bool"
  | .constant (.int _) | .constant (.real _) => some "Int"
  | .constant (.text ..) | .constant (.bytes _) => some "ByteArray"
  | .unary .minus operand => literalType? operand
  | .list (first :: _) => (literalType? first).map fun type => "List<" ++ type ++ ">"
  | _ => none

/-- The name of a qualifier, alone or applied. -/
def isFinalName : Expr → Bool
  | .name id => id == "Final"
  | .attribute _ label => label == "Final"
  | _ => false

/-- Whether an annotation makes a name constant. -/
def isFinal : Expr → Bool
  | .subscript base _ => isFinalName base
  | e => isFinalName e

/-- Whether an annotation says nothing but that a name is constant. -/
def isBareFinal : Expr → Bool
  | .subscript .. => false
  | e => isFinal e

/-- The type of a constant: that of its annotation, or the evident one. -/
def typeOf (names : CharacterNames) (hint : Option Expr) (value : Expr) :
    Reporting (Option String) := do
  match hint with
  | none => return literalType? value
  | some e =>
    if isBareFinal e then return literalType? value
    else return some (← Hint.resolve names e).render

/-- The declaration of a constant. -/
def ofValue (ctx : Context) (name : String) (value : Expr) (hint : Option Expr)
    (isPublic : Bool) (docs : Documentation) : Lowering ConstantDeclaration := do
  let type ← Lowering.ofReporting (typeOf ctx.options.names hint value)
  if type.isNone then
    Lowering.note .debug .constants ("Constant " ++ name ++ " has no evident type")
  let text ← Lowering.lower ctx value
  return { name := Naming.constantName name, value := text, type, isPublic, docs }

end ConstantDeclaration

end AikenForge
