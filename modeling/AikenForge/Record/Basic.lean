/-
# Records of generated forms

A `when`, a pipe and an expectation are recorded as they are built, so that the function they belong
to can list them; their texts are functions of the records.
-/

import AikenForge.Options
import AikenForge.Record.Pattern
import AikenForge.Text.Lines
import AikenForge.Text.Quoted

namespace AikenForge

open AikenForge.Text

/-- One clause of a `when`. -/
structure WhenClause where
  pattern : ClausePattern
  body : String
  guard : Option String := none
  deriving BEq

/-- Ordered dispatch on a value: the first clause that matches wins. -/
structure WhenExpression where
  expression : String
  clauses : List WhenClause
  deriving BEq

/-- One step of a pipe: a function and the arguments after the piped value. -/
structure PipeOperation where
  functionName : String
  args : List String := []
  deriving BEq

/-- A chain of functions applied from left to right. -/
structure PipeExpression where
  initialValue : String
  operations : List PipeOperation
  deriving BEq

/-- A value that must be present, with the message of its absence. -/
structure ExpectExpression where
  expression : String
  errorMessage : Option CodePoints := none
  deriving BEq

/-- The forms built in one body, each kind in the order of building. -/
structure Records where
  whens : List WhenExpression := []
  pipes : List PipeExpression := []
  expects : List ExpectExpression := []
  deriving BEq

/-- A text unless it is empty. -/
def nonEmpty? (s : String) : Option String :=
  if s.isEmpty then none else some s

/-- The text of a clause, `Some(x) if g => body`. An empty guard is no guard, an empty body is left
to do, and a body of several lines is put in braces, `Some(x) => {`, the lines and `}`. -/
def WhenClause.render (indent : Int) (clause : WhenClause) : String :=
  let head := match clause.guard.bind nonEmpty? with
    | some guard => clause.pattern.render ++ " if " ++ guard
    | none => clause.pattern.render
  let body := (nonEmpty? clause.body).getD "todo"
  if body.toList.contains '\n' then
    head ++ " => \x7b\n" ++ indentBlock indent body ++ "\n\x7d"
  else head ++ " => " ++ body

/-- The text of a `when`: `when x {`, the clauses on lines of their own, and `}`. -/
def WhenExpression.render (indent : Int) (e : WhenExpression) : String :=
  let clauses := e.clauses.map fun clause => clause.render indent ++ ","
  "when " ++ e.expression ++ " \x7b\n" ++ indentBlock indent (joinLines clauses) ++ "\n\x7d"

/-- The call that a step makes of the value so far. -/
def PipeOperation.apply (value : String) (operation : PipeOperation) : String :=
  operation.functionName ++ "(" ++ ", ".intercalate (value :: operation.args) ++ ")"

/-- The text of a pipe: nested calls, each with the value so far as its first argument. -/
def PipeExpression.render (e : PipeExpression) : String :=
  e.operations.foldl PipeOperation.apply e.initialValue

/-- The message of an expectation: its own, else the caller's, else the usual one; empty ones do not
count. -/
def ExpectExpression.message (e : ExpectExpression) (fallback : Option String) : CodePoints :=
  let usual := codePoints ((fallback.bind nonEmpty?).getD defaultExpectMessage)
  match e.errorMessage with
  | none | some [] => usual
  | some points => points

/-- The text of an expectation. -/
def ExpectExpression.render (e : ExpectExpression) (fallback : Option String) : String :=
  "expect(" ++ e.expression ++ ", " ++ quotePoints .ascii (e.message fallback) ++ ")"

end AikenForge
