/-
# Type declarations

Aliases, records and enumerations. A declaration whose definition has a brace or a bar is written as
a block, with one line for each field or constructor; any other is an alias.
-/

import AikenForge.Declaration.Documentation
import AikenForge.Lowering.Hint
import AikenForge.Naming

namespace AikenForge

open AikenForge.Source AikenForge.Text

/-- A declared type: the text of its definition and, if known, the type it was made from. -/
structure TypeDeclaration where
  name : String
  definition : String
  typeParameters : Option (List String) := none
  isOpaque : Bool := false
  isPublic : Bool := false
  docs : Documentation := none
  target : Option Target := none

namespace TypeDeclaration

/-- Declarations are the same if all but the type they were made from agree; the definition's text
stands for that. -/
instance : BEq TypeDeclaration where
  beq a b := a.name == b.name && a.definition == b.definition &&
    a.typeParameters == b.typeParameters && a.isOpaque == b.isOpaque && a.isPublic == b.isPublic &&
    a.docs == b.docs

/-- Whether a declaration is written as a block. -/
def isBlock (d : TypeDeclaration) : Bool :=
  d.definition.toList.contains '\x7b' || d.definition.toList.contains '|'

/-- How much deeper a character nests what follows it. -/
def nesting (c : Char) : Int :=
  if ['<', '(', '\x7b', '['].contains c then 1
  else if ['>', ')', '\x7d', ']'].contains c then -1
  else 0

/-- Split at a separator where brackets of all kinds are balanced, without the blanks around the
parts; `skip` counts the characters of a separator still to pass over. -/
def splitFrom (separator : List Char) (depth : Int) (skip : Nat) (current : List Char) :
    List Char → List String
  | [] =>
    let tail := strip (.ofList current.reverse)
    if tail.isEmpty then [] else [tail]
  | c :: rest =>
    match skip with
    | skip + 1 => splitFrom separator depth skip current rest
    | 0 =>
      let depth := depth + nesting c
      if depth = 0 && separator.isPrefixOf (c :: rest) then
        strip (.ofList current.reverse) :: splitFrom separator depth (separator.length - 1) [] rest
      else splitFrom separator depth 0 (c :: current) rest

/-- The parts of a text between separators outside of brackets; an empty last part does not
count. -/
def splitTopLevel (separator text : String) : List String :=
  splitFrom separator.toList 0 0 [] text.toList

/-- The line of a constructor. A field labelled with a constructor's name is that constructor
applied to the field's type, or alone if the type is empty. -/
def variantText : Target → Except Failure String
  | member@(.record [.mk label type]) =>
    if Naming.isConstructorName label then
      match type with
      | .void | .record [] => .ok label
      | _ => do
        return label ++ "(" ++ (← type.render?) ++ ")"
    else member.render?
  | member => member.render?

/-- The line of a field. -/
def fieldText (field : TargetField) : Except Failure String := do
  return field.label ++ ": " ++ (← field.type.render?) ++ ","

/-- The text between the first and the last character. -/
def between (cs : List Char) : List Char :=
  cs.tail.dropLast

/-- The lines of a block whose type is not known, read off its definition. -/
def linesOfDefinition (definition : String) : List String :=
  let cs := (strip definition).toList
  if cs.head? == some '\x7b' && cs.getLast? == some '\x7d' then
    (splitTopLevel "," (.ofList (between cs))).map (· ++ ",")
  else splitTopLevel "|" (.ofList cs)

/-- The lines of a declaration's block. -/
def blockLines (d : TypeDeclaration) : Except Failure (List String) :=
  match d.target with
  | some (.record fields) => fields.mapM fieldText
  | some (.union members) => members.mapM variantText
  | _ => .ok (linesOfDefinition d.definition)

/-- The words that open a declaration. -/
def keyword (d : TypeDeclaration) : String :=
  if d.isOpaque then "pub opaque type" else visibility d.isPublic ++ "type"

/-- The text of a type declaration: `pub type T {`, its lines and `}`, or `pub type T = U`. -/
def render (options : Options) (d : TypeDeclaration) : Except Failure String := do
  let docs := d.docs.lines options
  let header := d.keyword ++ " " ++ d.name ++ typeParametersText d.typeParameters
  if d.isBlock then
    let body := joinLines (← d.blockLines)
    let block := if body.isEmpty then [] else [indentBlock options.indent body]
    return joinLines (docs ++ [header ++ " \x7b"] ++ block ++ ["\x7d"])
  else return joinLines (docs ++ [header ++ " = " ++ d.definition])

/-- The declaration of a type. -/
def ofTarget (name : String) (target : Target) (typeParameters : Option (List String))
    (isPublic isOpaque : Bool) (docs : Documentation) : TypeDeclaration :=
  { name, definition := target.render, typeParameters, isOpaque, isPublic, docs
    target := some target }

/-- Whether an alias is void on purpose. -/
def isNoType : Expr → Bool
  | .constant .none => true
  | _ => false

/-- The declaration of an alias; one without a value is void. -/
def ofAlias (names : CharacterNames) (name : String) (value : Option Expr)
    (typeParameters : Option (List String)) (isPublic isOpaque : Bool) (docs : Documentation) :
    Reporting TypeDeclaration := do
  let target ← Hint.resolve? names value
  match value with
  | some e =>
    if target.isVoid && !isNoType e then
      Reporting.warn .declaredTypes
        ("Type alias " ++ name ++ " has an unsupported body, using Void")
  | none => pure ()
  return ofTarget name target typeParameters isPublic isOpaque docs

/-- The name that a class inherits from, without its arguments and its module. -/
def inheritedName? : Expr → Option String
  | .name id => some id
  | .attribute _ label => some label
  | .subscript (.name id) _ => some id
  | .subscript (.attribute _ label) _ => some label
  | _ => none

/-- The classes that make a class an enumeration. -/
def enumBases : List String :=
  ["Enum", "IntEnum", "StrEnum", "Flag", "IntFlag"]

/-- Whether a class is an enumeration. -/
def isEnum (header : ClassHeader) : Bool :=
  (header.bases.filterMap inheritedName?).any enumBases.contains

/-- The names that a statement of an enumeration assigns. -/
def assignedNames : Stmt → List String
  | .simple _ (.assigns targets _) => targets.filterMap fun
    | .name id => some id
    | _ => none
  | .simple _ (.annotates (.name id) _ _) => [id]
  | _ => []

/-- The members of an enumeration: assigned names without a leading underscore. -/
def enumMembers (body : List Stmt) : List String :=
  (body.flatMap assignedNames).filter fun name => name.toList.head? != some '_'

/-- The declaration of an enumeration: its members are constructors. -/
def ofEnum (header : ClassHeader) (body : List Stmt) (isPublic : Bool) (docs : Documentation) :
    Reporting TypeDeclaration := do
  match enumMembers body with
  | [] =>
    Reporting.warn .declaredTypes ("Enum " ++ header.name ++ " has no members, using Void")
    return ofTarget header.name .void none isPublic false docs
  | members =>
    let constructors := members.map fun member => Target.primitive (Naming.toConstructorName member)
    return ofTarget header.name (.union constructors) none isPublic false docs

/-- The names that an index of a generic base lists. -/
def indexNames : Expr → List String
  | .tuple items => items.filterMap fun
    | .name id => some id
    | _ => none
  | .name id => [id]
  | _ => []

/-- The type parameters that a base of a class declares. -/
def baseParameters? : Expr → Option (List String)
  | .subscript (.name id) index =>
    if id == "Generic" || id == "Protocol" then
      match indexNames index with
      | [] => none
      | names => some names
    else none
  | _ => none

/-- The type parameters of a class. -/
def typeParametersOf (header : ClassHeader) : Option (List String) :=
  header.bases.findSome? baseParameters?

/-- The fields of a record class; methods are left out. -/
def recordFields (names : CharacterNames) (className : String) :
    List Stmt → Reporting (List TargetField)
  | [] => pure []
  | .simple _ (.annotates (.name id) hint _) :: rest => do
    let type ← Hint.resolve names hint
    return .mk id type :: (← recordFields names className rest)
  | .function _ header _ :: rest => do
    Reporting.warn .declaredTypes
      ("Method " ++ className ++ "." ++ header.name ++ " is not part of the record type")
    recordFields names className rest
  | _ :: rest => recordFields names className rest

/-- The declaration of a record: the annotated names of a class are its fields. -/
def ofRecord (names : CharacterNames) (header : ClassHeader) (body : List Stmt)
    (isPublic isOpaque : Bool) (docs : Documentation) : Reporting TypeDeclaration := do
  let fields ← recordFields names header.name body
  if fields.isEmpty then
    Reporting.warn .declaredTypes ("Record " ++ header.name ++ " has no annotated fields")
  return ofTarget header.name (.record fields) (typeParametersOf header) isPublic isOpaque docs

/-- Whether a value that is assigned to a constructor's name reads as a type. -/
def isTypeExpression : Expr → Bool
  | .subscript .. | .dict _ | .set _ => true
  | .binary .bitOr left right => isTypeExpression left && isTypeExpression right
  | .name id =>
    Hint.sourceNames.contains id || Hint.targetNames.contains id || Naming.isConstructorName id
  | .attribute _ label => Naming.isConstructorName label
  | .constant .none => true
  | _ => false

end TypeDeclaration

end AikenForge
