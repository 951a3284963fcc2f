/-
# Type hints

The target type that an annotation stands for. An annotation that cannot be classified is void, with
a warning. A text literal is an annotation written as text and is read again; the text inside it is
shorter than the literal, so the depth of such reading is bounded by the longest text.
-/

import AikenForge.Number.Decimal
import AikenForge.Reporting
import AikenForge.Source.Outline
import AikenForge.Source.Reader
import AikenForge.Source.Walk
import AikenForge.Table
import AikenForge.Target
import AikenForge.Text.Quoted

namespace AikenForge.Hint

open AikenForge.Source AikenForge.Number AikenForge.Text

/-- Names that are target types already. -/
def targetNames : List String :=
  ["Int", "Bool", "ByteArray", "String", "Data", "Void", "POSIXTime", "PubKeyHash", "ScriptHash",
   "VerificationKeyHash", "PolicyId", "AssetName", "Address", "ScriptContext", "Transaction",
   "OutputReference", "Credential", "Value"]

/-- Target names of source types that have another name. -/
def sourceNames : Table String :=
  [("str", "ByteArray"), ("bytes", "ByteArray"), ("bytearray", "ByteArray"), ("int", "Int"),
   ("float", "Int"), ("bool", "Bool"), ("Any", "Data"), ("object", "Data"), ("dict", "Dict"),
   ("Dict", "Dict"), ("Mapping", "Dict"), ("list", "List"), ("List", "List"), ("Sequence", "List"),
   ("Optional", "Option")]

/-- The target name of a type name; unknown names stay as they are. -/
def targetName (name : String) : String :=
  if targetNames.contains name then name else (sourceNames.find? name).getD name

/-- Whether a type text is neither void nor an option already. -/
def shouldWrapInOption (type : String) : Bool :=
  !("Option<".toList.isPrefixOf type.toList) && type != "Void"

/-- The text of the option of a type. -/
def wrapInOption (type : String) : String :=
  if shouldWrapInOption type then "Option<" ++ type ++ ">" else type

/-- Generic names whose application to one type is a list. -/
def listNames : List String :=
  ["list", "List", "Sequence"]

/-- Generic names whose application is a tuple. -/
def tupleNames : List String :=
  ["tuple", "Tuple"]

/-- Generic names that qualify their first argument. -/
def qualifierNames : List String :=
  ["Annotated", "Final", "ClassVar"]

/-- Modules whose members are known by their own names. -/
def typingModules : List String :=
  ["typing", "t", "typing_extensions"]

/-- Attributes joined by dots; anything else than a name at the start is empty. -/
def dottedName : Expr → String
  | .attribute value label => dottedName value ++ "." ++ label
  | .name id => id
  | _ => ""

/-- The name that an annotation or a generic base has. -/
def baseName? : Expr → Option String
  | .name id => some id
  | .attribute (.name owner) label =>
    some (if typingModules.contains owner then label else owner ++ "." ++ label)
  | e@(.attribute ..) => some (dottedName e)
  | _ => none

/-- The label that a key of a record annotation gives. -/
def fieldLabel? : Expr → Option String
  | .constant (.text points _) => some points.text
  | .name id => some id
  | _ => none

/-- Report an annotation that is taken for void. -/
def voidWith (message : String) : Reporting Target := do
  Reporting.warn .annotations message
  return .void

/-- The type of a literal argument. -/
def literalConstant : Constant → Reporting Target
  | .bool value => pure (.literal (if value then "True" else "False"))
  | .text points _ => pure (.literal (quotePoints .ascii points))
  | .int n =>
    match decimalText? n with
    | some text => pure (.literal text)
    | none => throw .digitLimit
  | .real x => pure (.literal (x.render .real))
  | _ => voidWith "Unsupported literal type argument, using Void"

/-- The type of an argument of a literal annotation: a literal, or the negation of one. -/
def literalType : Expr → Reporting Target
  | .constant value => literalConstant value
  | .unary .minus operand => do
    match ← literalType operand with
    | .literal text => return .literal ("-" ++ text)
    | _ => voidWith "Unsupported literal type argument, using Void"
  | _ => voidWith "Unsupported literal type argument, using Void"

/-- The type of a literal annotation. -/
def literalUnion (args : List Expr) : Reporting Target := do
  match ← args.mapM literalType with
  | [type] => return type
  | types => return .union types

/-- What an annotation stands for: one type, or the members of a chain of alternatives. -/
inductive Part
  | single (type : Target)
  | chain (members : List Target)

/-- The type of a part. -/
def Part.type : Part → Target
  | .single type => type
  | .chain members => .union members

/-- The members that a part adds to a union. -/
def Part.members : Part → List Target
  | .single type => [type]
  | .chain members => members

/-- The types of parts that are still to be resolved. -/
def typesOf (parts : List (Reporting Part)) : Reporting (List Target) :=
  parts.mapM fun part => Part.type <$> part

/-- The type of a generic annotation, given its arguments as written and as parts. -/
def genericType (base : Expr) (args : List Expr) (parts : List (Reporting Part)) :
    Reporting Target := do
  match baseName? base with
  | none => voidWith ("Unsupported generic base " ++ base.kind ++ ", using Void")
  | some name =>
    if name == "Literal" then literalUnion args
    else if qualifierNames.contains name then
      match parts with
      | [] => return .void
      | part :: _ => return (← part).type
    else if name == "Union" then
      return .union (← parts.mapM fun part => Part.members <$> part).flatten
    else if listNames.contains name && parts.length == 1 then return .list (← typesOf parts)
    else if tupleNames.contains name then return .tuple (← typesOf parts)
    else return .application (targetName name) (← typesOf parts)

/-- The fields of a record annotation that only lists labels. Anything else is left out, with a
warning that shows it. -/
def labelFields : List Expr → Reporting (List TargetField)
  | [] => pure []
  | item :: rest => do
    match fieldLabel? item with
    | some label => return .mk label .void :: (← labelFields rest)
    | none =>
      if item.isShowable then
        Reporting.warn .annotations ("Unsupported record field: " ++ item.outline false)
        labelFields rest
      else throw .digitLimit

section Resolve

variable (ofText : CodePoints → Reporting Target)

/-- The type of a literal as an annotation; `ofText` reads one that is written as text. -/
def constantType : Constant → Reporting Target
  | .none | .ellipsis => pure .void
  | .text points _ => ofText points
  | value => voidWith ("Unsupported constant annotation " ++ value.shown ++ ", using Void")

mutual

/-- What an annotation stands for. -/
def resolvePart : Expr → Reporting Part
  | .constant value => .single <$> constantType ofText value
  | .name id => pure (.single (.primitive (targetName id)))
  | .attribute value label =>
    pure (.single (.primitive (targetName ((baseName? (.attribute value label)).getD ""))))
  | .binary .bitOr left right => do
    let left ← resolvePart left
    let right ← resolvePart right
    return .chain (left.members ++ right.members)
  | .subscript base (.tuple items) => .single <$> genericType base items (partsOf items)
  | .subscript base index => .single <$> genericType base [index] [resolvePart index]
  | .dict entries => do
    return .single (.record (← recordFields entries))
  | .set items => do
    return .single (.record (← labelFields items))
  | .list items => do
    match ← typesOf (partsOf items) with
    | [type] => return .single (.list [type])
    | _ => .single <$> voidWith "Unsupported type annotation List, using Void"
  | .tuple items => do
    match ← typesOf (partsOf items) with
    | [] => .single <$> voidWith "Unsupported type annotation Tuple, using Void"
    | types => return .single (.tuple types)
  | e => .single <$> voidWith ("Unsupported type annotation " ++ e.kind ++ ", using Void")

/-- What annotations stand for, each still to be resolved. -/
def partsOf : List Expr → List (Reporting Part)
  | [] => []
  | e :: rest => resolvePart e :: partsOf rest

/-- The fields of a record annotation. -/
def recordFields : List Entry → Reporting (List TargetField)
  | [] => pure []
  | .spread _ :: rest => do
    Reporting.warn .annotations "Unsupported record field key, skipping"
    recordFields rest
  | .pair key value :: rest => do
    match fieldLabel? key with
    | some label =>
      let part ← resolvePart value
      return .mk label part.type :: (← recordFields rest)
    | none =>
      Reporting.warn .annotations "Unsupported record field key, skipping"
      recordFields rest

end

end Resolve

variable (names : CharacterNames)

/-- The type of an annotation that is written as text, where `type` types what the text is read as.
Half of a surrogate pair cannot be read. -/
def textBy (type : Expr → Reporting Target) (points : CodePoints) : Reporting Target :=
  match points.string? with
  | none => throw (.surrogates points.surrogateRun.1 points.surrogateRun.2)
  | some text =>
    match readExpression names text with
    | .ok inner => type inner
    | .error .nul => throw .nul
    | .error (.malformed _) =>
      voidWith ("Unparseable string annotation " ++ showText text ++ ", using Void")

/-- The type of an annotation in which texts are read to a depth. -/
def resolveUpTo : (depth : Nat) → Expr → Reporting Target
  | 0, e => Part.type <$> resolvePart (fun _ => pure .void) e
  | depth + 1, e => Part.type <$> resolvePart (textBy names (resolveUpTo depth)) e

/-- The type of an annotation. -/
def resolve (e : Expr) : Reporting Target :=
  resolveUpTo names (e.longestText + 1) e

/-- The type of an annotation that may be absent, which makes it void. -/
def resolve? : Option Expr → Reporting Target
  | none => pure .void
  | some e => resolve names e

end AikenForge.Hint
