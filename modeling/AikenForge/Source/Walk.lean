/-
# Walking the source tree

Every expression below a given one, every expression of a statement, and the names that assignment
expressions bind on the way.
-/

import AikenForge.Source.Tree

namespace AikenForge.Source

mutual

/-- An expression and all expressions below it, outermost first. -/
def Expr.subterms (e : Expr) : List Expr :=
  e :: match e with
    | .name _ | .constant _ => []
    | .attribute value _ => value.subterms
    | .subscript value index => value.subterms ++ index.subterms
    | .slice lower upper step => optional lower ++ optional upper ++ optional step
    | .list items | .tuple items | .set items | .joined items => all items
    | .dict entries => ofEntries entries
    | .starred value | .await value | .yieldFrom value | .named _ value => value.subterms
    | .unary _ operand => operand.subterms
    | .binary _ left right => left.subterms ++ right.subterms
    | .boolean _ values => all values
    | .compare left links => left.subterms ++ ofLinks links
    | .conditional test body orelse => test.subterms ++ body.subterms ++ orelse.subterms
    | .call callee args keywords => callee.subterms ++ all args ++ ofKeywords keywords
    | .lambda parameters body => ofParameters parameters ++ body.subterms
    | .comprehension _ element clauses => element.subterms ++ ofClauses clauses
    | .dictComprehension key value clauses => key.subterms ++ value.subterms ++ ofClauses clauses
    | .yield value => optional value
    | .formatted value _ layout => value.subterms ++ optional layout

/-- The expressions of an optional one. -/
def Expr.optional : Option Expr → List Expr
  | none => []
  | some e => e.subterms

/-- The expressions of a list. -/
def Expr.all : List Expr → List Expr
  | [] => []
  | e :: rest => e.subterms ++ Expr.all rest

/-- The expressions of dictionary entries. -/
def Expr.ofEntries : List Entry → List Expr
  | [] => []
  | .pair key value :: rest => key.subterms ++ value.subterms ++ Expr.ofEntries rest
  | .spread value :: rest => value.subterms ++ Expr.ofEntries rest

/-- The expressions of comparison links. -/
def Expr.ofLinks : List Link → List Expr
  | [] => []
  | .mk _ right :: rest => right.subterms ++ Expr.ofLinks rest

/-- The expressions of keyword arguments. -/
def Expr.ofKeywords : List Keyword → List Expr
  | [] => []
  | .labelled _ value :: rest => value.subterms ++ Expr.ofKeywords rest
  | .spread value :: rest => value.subterms ++ Expr.ofKeywords rest

/-- The expressions of comprehension clauses. -/
def Expr.ofClauses : List Clause → List Expr
  | [] => []
  | .mk target iterable conditions _ :: rest =>
    target.subterms ++ iterable.subterms ++ Expr.all conditions ++ Expr.ofClauses rest

/-- The expressions of a parameter. -/
def Expr.ofParameter : Parameter → List Expr
  | .mk _ hint fallback => optional hint ++ optional fallback

/-- The expressions of a list of parameters. -/
def Expr.ofParameterList : List Parameter → List Expr
  | [] => []
  | parameter :: rest => Expr.ofParameter parameter ++ Expr.ofParameterList rest

/-- The expressions of an optional parameter. -/
def Expr.ofOptionalParameter : Option Parameter → List Expr
  | none => []
  | some parameter => Expr.ofParameter parameter

/-- The expressions of all parameters. -/
def Expr.ofParameters : Parameters → List Expr
  | .mk positionalOnly regular variadic keywordOnly keywords =>
    Expr.ofParameterList positionalOnly ++ Expr.ofParameterList regular ++
      Expr.ofOptionalParameter variadic ++ Expr.ofParameterList keywordOnly ++
      Expr.ofOptionalParameter keywords

end

theorem self_mem_subterms (e : Expr) : e ∈ e.subterms := by
  cases e <;> simp [Expr.subterms]

theorem all_append (first rest : List Expr) :
    Expr.all (first ++ rest) = Expr.all first ++ Expr.all rest := by
  induction first with
  | nil => rfl
  | cons e first ih => rw [List.cons_append, Expr.all, Expr.all, ih, List.append_assoc]

/-- The length of the text that an expression is, if it is one. -/
def Expr.textLength : Expr → Nat
  | .constant (.text points _) => points.length
  | _ => 0

/-- The length of the longest text literal in an expression. -/
def Expr.longestText (e : Expr) : Nat :=
  e.subterms.foldl (fun longest e => max longest e.textLength) 0

/-- The name that an assignment expression binds. -/
def Expr.boundName? : Expr → Option String
  | .named target _ => some target
  | _ => none

/-- The names that assignment expressions in a list of expressions bind. -/
def boundNames (expressions : List Expr) : List String :=
  (Expr.all expressions).filterMap Expr.boundName?

mutual

/-- The expressions that stand in a pattern. -/
def Pattern.expressions : Pattern → List Expr
  | .value expression => [expression]
  | .singleton _ | .capture _ | .star _ => []
  | .binding pattern _ => pattern.expressions
  | .sequence _ items => Pattern.expressionsAll items
  | .mapping keys patterns _ => keys ++ Pattern.expressionsAll patterns
  | .class callee args _ fields =>
    callee :: Pattern.expressionsAll args ++ Pattern.expressionsAll fields
  | .alternatives items => Pattern.expressionsAll items

/-- The expressions that stand in a list of patterns. -/
def Pattern.expressionsAll : List Pattern → List Expr
  | [] => []
  | pattern :: rest => pattern.expressions ++ Pattern.expressionsAll rest

end

/-- The expressions of a simple statement. -/
def Simple.expressions : Simple → List Expr
  | .returns value => value.toList
  | .assigns targets value => targets ++ [value]
  | .annotates target hint value => target :: hint :: value.toList
  | .augments target _ value => [target, value]
  | .asserts test message => test :: message.toList
  | .raises exception cause => exception.toList ++ cause.toList
  | .evaluates value => [value]
  | .deletes targets => targets
  | .passes | .imports _ | .importsFrom .. | .globals _ | .nonlocals _ | .breaks | .continues => []

/-- The values of keyword arguments. -/
def Keyword.value : Keyword → Expr
  | .labelled _ value | .spread value => value

/-- The expressions of a function header. -/
def FunctionHeader.expressions (header : FunctionHeader) : List Expr :=
  Expr.ofParameters header.parameters ++ header.decorators.map Decorator.expression ++
    header.returns.toList

/-- The expressions of a class header. -/
def ClassHeader.expressions (header : ClassHeader) : List Expr :=
  header.bases ++ header.keywords.map Keyword.value ++ header.decorators.map Decorator.expression

/-- The expressions of context managers. -/
def ContextItem.expressions (items : List ContextItem) : List Expr :=
  items.flatMap fun item => item.manager :: item.target.toList

mutual

/-- All expressions of a statement, those of nested statements included. -/
def Stmt.expressions : Stmt → List Expr
  | .simple _ statement => statement.expressions
  | .branch _ test body orelse => test :: expressionsAll body ++ expressionsAll orelse
  | .select _ subject cases => subject :: caseExpressions cases
  | .forLoop _ _ target iterable body orelse =>
    target :: iterable :: expressionsAll body ++ expressionsAll orelse
  | .whileLoop _ test body orelse => test :: expressionsAll body ++ expressionsAll orelse
  | .context _ _ items body => ContextItem.expressions items ++ expressionsAll body
  | .attempt _ _ body handlers orelse finals =>
    expressionsAll body ++ handlerExpressions handlers ++ expressionsAll orelse ++
      expressionsAll finals
  | .function _ header body => header.expressions ++ expressionsAll body
  | .classDef _ header body => header.expressions ++ expressionsAll body

/-- All expressions of a list of statements. -/
def Stmt.expressionsAll : List Stmt → List Expr
  | [] => []
  | statement :: rest => statement.expressions ++ Stmt.expressionsAll rest

/-- All expressions of the cases of a `match`. -/
def Stmt.caseExpressions : List Case → List Expr
  | [] => []
  | .mk pattern guard body :: rest =>
    pattern.expressions ++ guard.toList ++ Stmt.expressionsAll body ++ Stmt.caseExpressions rest

/-- All expressions of exception handlers. -/
def Stmt.handlerExpressions : List Handler → List Expr
  | [] => []
  | .mk exception _ body :: rest =>
    exception.toList ++ Stmt.expressionsAll body ++ Stmt.handlerExpressions rest

end

/-- The expressions that a statement evaluates outside its nested blocks. The cases of a `match`
count as its own. -/
def Stmt.ownExpressions : Stmt → List Expr
  | .simple _ statement => statement.expressions
  | .branch _ test _ _ => [test]
  | .select _ subject cases => subject :: caseExpressions cases
  | .forLoop _ _ target iterable _ _ => [target, iterable]
  | .whileLoop _ test _ _ => [test]
  | .context _ _ items _ => ContextItem.expressions items
  | .attempt .. => []
  | .function _ header _ => header.expressions
  | .classDef _ header _ => header.expressions

/-- The names that assignment expressions bind in a statement outside its nested blocks. -/
def Stmt.ownBoundNames (statement : Stmt) : List String :=
  boundNames statement.ownExpressions

mutual

/-- The names that a target binds. -/
def Expr.targetNames : Expr → List String
  | .name id => [id]
  | .tuple items | .list items => Expr.targetNamesAll items
  | .starred value => value.targetNames
  | _ => []

/-- The names that a list of targets binds. -/
def Expr.targetNamesAll : List Expr → List String
  | [] => []
  | item :: rest => item.targetNames ++ Expr.targetNamesAll rest

end

/-- The names that a loop or a context statement binds for its block. -/
def Stmt.blockTargets : Stmt → List String
  | .forLoop _ _ target _ _ _ => target.targetNames
  | .context _ _ items _ => items.flatMap fun item => (item.target.map Expr.targetNames).getD []
  | _ => []

end AikenForge.Source
