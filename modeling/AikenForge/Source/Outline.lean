/-
# Outlines of expressions

The full structure of an expression on one line, for a message about an expression that has no other
place to be shown.
-/

import AikenForge.Number.Decimal
import AikenForge.Number.Shortest
import AikenForge.Source.Kind
import AikenForge.Source.Walk
import AikenForge.Text.Shown

namespace AikenForge.Source

open AikenForge.Number AikenForge.Text

/-- A literal value as a message shows it. -/
def Constant.shown : Constant → String
  | .none => "None"
  | .ellipsis => "Ellipsis"
  | .bool true => "True"
  | .bool false => "False"
  | .int n => .ofList (Nat.toDigits 10 n)
  | .real x => x.render .real
  | .imaginary x => x.render .imaginary ++ "j"
  | .text points _ => showPoints points
  | .bytes content => showBytes content

/-- The mark of a text literal as a message shows it, if it has one. -/
def Constant.mark? : Constant → Option String
  | .text _ true => some (showText "u")
  | _ => Option.none

namespace Expr

/-- Whether an expression can be shown: every integer in it keeps to the limit on digits. -/
def isShowable (e : Expr) : Bool :=
  e.subterms.all fun
    | .constant (.int n) => (decimalText? n).isSome
    | _ => true

/-- A form with its labelled parts. -/
def form (kind : String) (parts : List (String × String)) : String :=
  kind ++ "(" ++ ", ".intercalate (parts.map fun (label, text) => label ++ "=" ++ text) ++ ")"

/-- A list of texts in brackets. -/
def bracketed (texts : List String) : String :=
  "[" ++ ", ".intercalate texts ++ "]"

/-- A labelled part that may be missing. -/
def part? (label : String) : Option String → List (String × String)
  | none => []
  | some text => [(label, text)]

/-- Whether a place is read or written. -/
def access (isTarget : Bool) : String × String :=
  ("ctx", if isTarget then "Store()" else "Load()")

mutual

/-- The outline of an expression; `isTarget` tells that it is assigned to. -/
def outline (isTarget : Bool) : Expr → String
  | .name id => form "Name" [("id", showText id), access isTarget]
  | .constant value =>
    form "Constant" (("value", value.shown) :: part? "kind" value.mark?)
  | .attribute value label =>
    form "Attribute" [("value", outline false value), ("attr", showText label), access isTarget]
  | .subscript value index =>
    form "Subscript"
      [("value", outline false value), ("slice", outline false index), access isTarget]
  | .slice lower upper step =>
    form "Slice" (part? "lower" (outline? lower) ++ part? "upper" (outline? upper) ++
      part? "step" (outline? step))
  | .list items => form "List" [("elts", bracketed (outlines isTarget items)), access isTarget]
  | .tuple items => form "Tuple" [("elts", bracketed (outlines isTarget items)), access isTarget]
  | .set items => form "Set" [("elts", bracketed (outlines false items))]
  | .dict entries =>
    form "Dict" [("keys", bracketed (keyOutlines entries)),
      ("values", bracketed (valueOutlines entries))]
  | .starred value => form "Starred" [("value", outline isTarget value), access isTarget]
  | .unary op operand =>
    form "UnaryOp" [("op", op.kind ++ "()"), ("operand", outline false operand)]
  | .binary op left right =>
    form "BinOp"
      [("left", outline false left), ("op", op.kind ++ "()"), ("right", outline false right)]
  | .boolean op values =>
    form "BoolOp" [("op", op.kind ++ "()"), ("values", bracketed (outlines false values))]
  | .compare left links =>
    form "Compare"
      [("left", outline false left), ("ops", bracketed (linkOps links)),
       ("comparators", bracketed (linkOutlines links))]
  | .conditional test body orelse =>
    form "IfExp"
      [("test", outline false test), ("body", outline false body), ("orelse", outline false orelse)]
  | .call callee args keywords =>
    form "Call"
      [("func", outline false callee), ("args", bracketed (outlines false args)),
       ("keywords", bracketed (keywordOutlines keywords))]
  | .lambda parameters body =>
    form "Lambda" [("args", parametersOutline parameters), ("body", outline false body)]
  | .comprehension kind element clauses =>
    form kind.kind
      [("elt", outline false element), ("generators", bracketed (clauseOutlines clauses))]
  | .dictComprehension key value clauses =>
    form "DictComp"
      [("key", outline false key), ("value", outline false value),
       ("generators", bracketed (clauseOutlines clauses))]
  | .named target value =>
    form "NamedExpr"
      [("target", form "Name" [("id", showText target), access true]),
       ("value", outline false value)]
  | .await value => form "Await" [("value", outline false value)]
  | .yield value => form "Yield" (part? "value" (outline? value))
  | .yieldFrom value => form "YieldFrom" [("value", outline false value)]
  | .joined parts => form "JoinedStr" [("values", bracketed (outlines false parts))]
  | .formatted value conversion layout =>
    form "FormattedValue"
      ([("value", outline false value),
        ("conversion", match conversion with
          | some c => toString c.toNat
          | none => "-1")] ++ part? "format_spec" (outline? layout))

/-- The outline of an optional expression. -/
def outline? : Option Expr → Option String
  | none => none
  | some e => some (outline false e)

/-- The outlines of a list of expressions. -/
def outlines (isTarget : Bool) : List Expr → List String
  | [] => []
  | e :: rest => outline isTarget e :: outlines isTarget rest

/-- The outlines of dictionary keys; a spread entry has none. -/
def keyOutlines : List Entry → List String
  | [] => []
  | .pair key _ :: rest => outline false key :: keyOutlines rest
  | .spread _ :: rest => "None" :: keyOutlines rest

/-- The outlines of dictionary values. -/
def valueOutlines : List Entry → List String
  | [] => []
  | .pair _ value :: rest => outline false value :: valueOutlines rest
  | .spread value :: rest => outline false value :: valueOutlines rest

/-- The operators of comparison links. -/
def linkOps : List Link → List String
  | [] => []
  | .mk op _ :: rest => (op.kind ++ "()") :: linkOps rest

/-- The outlines of the operands of comparison links. -/
def linkOutlines : List Link → List String
  | [] => []
  | .mk _ right :: rest => outline false right :: linkOutlines rest

/-- The outlines of keyword arguments. -/
def keywordOutlines : List Keyword → List String
  | [] => []
  | .labelled label value :: rest =>
    form "keyword" [("arg", showText label), ("value", outline false value)] ::
      keywordOutlines rest
  | .spread value :: rest =>
    form "keyword" [("value", outline false value)] :: keywordOutlines rest

/-- The outlines of comprehension clauses. -/
def clauseOutlines : List Clause → List String
  | [] => []
  | .mk target iterable conditions isAsync :: rest =>
    form "comprehension"
      [("target", outline true target), ("iter", outline false iterable),
       ("ifs", bracketed (outlines false conditions)),
         ("is_async", if isAsync then "1" else "0")] ::
      clauseOutlines rest

/-- The outline of a parameter. -/
def parameterOutline : Parameter → String
  | .mk label hint _ =>
    form "arg" (("arg", showText label) :: part? "annotation" (outline? hint))

/-- The outlines of parameters. -/
def parameterOutlines : List Parameter → List String
  | [] => []
  | parameter :: rest => parameterOutline parameter :: parameterOutlines rest

/-- The outline of an optional parameter. -/
def parameterOutline? : Option Parameter → Option String
  | none => none
  | some parameter => some (parameterOutline parameter)

/-- The outline of a parameter's fallback. -/
def fallbackOutline? : Parameter → Option String
  | .mk _ _ fallback => outline? fallback

/-- The outlines of the fallbacks of parameters, one entry for each parameter. -/
def fallbackOutlines : List Parameter → List (Option String)
  | [] => []
  | parameter :: rest => fallbackOutline? parameter :: fallbackOutlines rest

/-- The outline of all parameters. -/
def parametersOutline : Parameters → String
  | .mk positionalOnly regular variadic keywordOnly keywords =>
    let fallbacks := fallbackOutlines positionalOnly ++ fallbackOutlines regular
    let keywordFallbacks := (fallbackOutlines keywordOnly).map (·.getD "None")
    form "arguments"
      ([("posonlyargs", bracketed (parameterOutlines positionalOnly)),
        ("args", bracketed (parameterOutlines regular))] ++
       part? "vararg" (parameterOutline? variadic) ++
       [("kwonlyargs", bracketed (parameterOutlines keywordOnly)),
        ("kw_defaults", bracketed keywordFallbacks)] ++
       part? "kwarg" (parameterOutline? keywords) ++
       [("defaults", bracketed (fallbacks.filterMap id))])

end

end Expr

end AikenForge.Source
