/-
# How names are used

A module's scope is consulted wherever a name is loaded, called, or read a field of, whether or not
the name is bound there. The uses of names in an expression are those that lowering gets to; in a
statement they are those in the expressions that lowering writes of it and those in the directives
of its line.
-/

import AikenForge.Proofs.Alias.Inline

namespace AikenForge.Locals

open AikenForge.Source AikenForge.Text AikenForge.Lowering AikenForge.Inlining
    AikenForge.Expectation

variable (ctx : Context)

/-! ## Uses of names -/

/-- A use of a name: its value, a call with or without arguments by position, or the reading of a
field. -/
inductive Use
  | load (name : String)
  | call (name : String) (hasArguments : Bool)
  | field (name label : String)

/-- The name that is used. -/
def Use.name : Use → String
  | .load name | .call name _ | .field name _ => name

/-- The use of what is called, with the uses inside it if it is no name. -/
def calleeUses (callee : Expr) (hasArguments : Bool) (inside : List Use) : List Use :=
  match callee.name? with
  | some id => [.call id hasArguments]
  | none => inside

mutual

/-- The uses of names in an expression, as far as lowering gets to them. -/
def uses : Expr → List Use
  | .name id => [.load id]
  | .attribute value label =>
    match value.name? with
    | some id => [.field id label]
    | none => uses value
  | .subscript _ (.slice ..) => []
  | .subscript value index => uses value ++ uses index
  | .list items | .tuple items => usesAll items
  | .starred value | .unary _ value => uses value
  | .dict entries => usesEntries entries
  | .binary _ left right => uses left ++ uses right
  | .boolean _ values => usesAll values
  | .compare left links => uses left ++ usesLinks links
  | .conditional test body orelse => uses test ++ (uses body ++ uses orelse)
  | .call callee args keywords =>
    calleeUses callee (!args.isEmpty) (uses callee) ++
      match specialCall? ctx callee args with
      | some .pipe => usesPipe args
      | some .expect => usesExpect args
      | none => usesAll args ++ usesKeywords keywords
  | .lambda _ body => uses body
  | .comprehension .list element [.mk (.name target) iterable conditions _] =>
    uses iterable ++ (usesAll conditions ++
      if element.name? == some target then [] else uses element)
  | _ => []

/-- The uses in a list of expressions. -/
def usesAll : List Expr → List Use
  | [] => []
  | e :: rest => uses e ++ usesAll rest

/-- The uses in dictionary entries. -/
def usesEntries : List Entry → List Use
  | [] => []
  | .spread value :: rest => uses value ++ usesEntries rest
  | .pair key value :: rest => uses key ++ (uses value ++ usesEntries rest)

/-- The uses in the operands of a chain of comparisons. -/
def usesLinks : List Link → List Use
  | [] => []
  | .mk _ right :: rest => uses right ++ usesLinks rest

/-- The uses in keyword arguments. -/
def usesKeywords : List Keyword → List Use
  | [] => []
  | .labelled _ value :: rest => uses value ++ usesKeywords rest
  | .spread value :: rest => uses value ++ usesKeywords rest

/-- The uses in the value and the steps of a pipe. -/
def usesPipe : List Expr → List Use
  | [] => []
  | first :: steps => uses first ++ usesSteps steps

/-- The uses in the value of an expectation. -/
def usesExpect : List Expr → List Use
  | [] => []
  | value :: _ => uses value

/-- The uses in the steps of a pipe, each of which is called. -/
def usesSteps : List Expr → List Use
  | [] => []
  | .call callee args keywords :: rest =>
    usesAll args ++ (usesKeywords keywords ++
      (calleeUses callee false (uses callee) ++ usesSteps rest))
  | e :: rest => calleeUses e false (uses e) ++ usesSteps rest

end

/-! ## Uses in statements -/

/-- The uses in the text of a directive. -/
def directiveUses (d : Directive) : List Use :=
  match d.kind with
  | .pipe => usesPipe ctx ((pipeParts [] d.text.toList).filterMap (readable? ctx))
  | .when | .expect => usesAll ctx (readable? ctx d.text).toList

/-- The uses in the directives of a line. -/
def lineUses (line : Nat) : List Use :=
  (ctx.directives.onLine line).flatMap (directiveUses ctx)

/-- The expressions that are written of a simple statement. -/
def written : Simple → List Expr
  | .returns value | .annotates _ _ value => value.toList
  | .assigns _ value | .evaluates value => [value]
  | .augments target _ value => [target, value]
  | .asserts test _ => [test]
  | _ => []

/-- The expressions of the patterns and the guards of cases. -/
def caseHeads : List Case → List Expr
  | [] => []
  | .mk pattern guard _ :: rest => pattern.expressions ++ (guard.toList ++ caseHeads rest)

/-- The expressions that are written of a statement outside the statements inside it. -/
def heads : Stmt → List Expr
  | .simple _ statement => written statement
  | .branch _ test _ _ => [test]
  | .select _ subject cases => subject :: caseHeads cases
  | _ => []

/-- The uses in a statement and the directives of its line, without those of the statements
inside. -/
def statementUses (statement : Stmt) : List Use :=
  usesAll ctx (heads statement) ++ lineUses ctx statement.line

/-- The uses in the directives that are heard at the start of a function. -/
def headerUses (f : FunctionSource) : List Use :=
  (f.header.decorators.map Decorator.line ++ [f.line]).flatMap (lineUses ctx)

/-- The uses in the body of a function and the directives of its lines. -/
def functionUses (f : FunctionSource) : List Use :=
  headerUses ctx f ++ (nestedAll (withoutDocumentation f.body)).flatMap (statementUses ctx)

variable {ctx}

theorem usesAll_singleton (e : Expr) : usesAll ctx [e] = uses ctx e := by
  rw [usesAll, usesAll, List.append_nil]

/-- The uses of an item are among those of the list. -/
theorem uses_subset_usesAll {e : Expr} {items : List Expr} (h : e ∈ items) :
    uses ctx e ⊆ usesAll ctx items := by
  induction items with
  | nil => cases h
  | cons first rest ih =>
      rw [usesAll]
      rcases List.mem_cons.mp h with rfl | h
      · exact List.subset_append_left _ _
      · exact List.Subset.trans (ih h) (List.subset_append_right _ _)

/-- A step that is no call uses its name as a callee. -/
theorem usesSteps_cons {e : Expr} (h : (e.kind == "Call") = false) (rest : List Expr) :
    usesSteps ctx (e :: rest) = calleeUses e false (uses ctx e) ++ usesSteps ctx rest := by
  cases e <;> first | rfl | contradiction

/-- A slice is not lowered, so it uses nothing. -/
theorem uses_subscript (value index : Expr) :
    uses ctx (.subscript value index) =
      if index.kind == "Slice" then [] else uses ctx value ++ uses ctx index := by
  cases index <;> first | rfl | (rename_i kind _ _; cases kind <;> rfl)

end AikenForge.Locals
