/-
# Lowering directives

The texts that directives ask for. The text of a directive is an expression of the source language;
one that cannot be read is reported and left out.
-/

import AikenForge.Lowering.Expression

namespace AikenForge.Lowering

open AikenForge.Source AikenForge.Text

variable (ctx : Context)

/-- The expression that a directive's text is, if it can be read. -/
def directiveExpression? (text : String) : Lowering (Option Expr) := do
  match readExpression ctx.options.names (strip text) with
  | .ok e => return some e
  | .error .nul => throw .nul
  | .error (.malformed _) =>
    warn .statements ("Cannot parse directive expression: " ++ showText text)
    return none

/-- The parts of a text between pipe symbols. -/
def pipeParts (current : List Char) : List Char → List String
  | [] => [.ofList current.reverse]
  | '|' :: '>' :: rest => .ofList current.reverse :: pipeParts [] rest
  | c :: rest => pipeParts (c :: current) rest

/-- The text of a pipe directive: a value and at least one step. -/
def pipeDirective? (text : String) : Lowering (Option String) := do
  let parts ← (pipeParts [] text.toList).mapM (directiveExpression? ctx)
  match parts.mapM id with
  | some (first :: step :: steps) => return some (← lowerPipe ctx (first :: step :: steps))
  | _ =>
    warn .statements ("Ignoring malformed pipe directive: " ++ showText text)
    return none

/-- The value and the message that an expectation's expression gives: a pair whose second part is a
text literal has a message. -/
def splitExpectation : Expr → Expr × Option CodePoints
  | .tuple [value, .constant (.text message _)] => (value, some message)
  | e => (e, none)

/-- The text of an expect directive, empty if it cannot be read. -/
def expectDirective (text : String) : Lowering String := do
  match ← directiveExpression? ctx text with
  | none => return ""
  | some e =>
    let (value, message) := splitExpectation e
    expectText ctx (← lower ctx value) message

/-- The lines that the expect directives of a line ask for. -/
def expectLines (line : Nat) : Lowering (List String) := do
  let texts ← (ctx.directives.ofKind line .expect).mapM fun d => expectDirective ctx d.text
  return texts.filter fun text => !text.isEmpty

/-- The text that the last pipe directive of a line asks for. -/
def pipeLine? (line : Nat) : Lowering (Option String) :=
  match (ctx.directives.ofKind line .pipe).getLast? with
  | none => pure none
  | some d => pipeDirective? ctx d.text

/-- The value that the last when directive of a line dispatches on, as written. -/
def whenSubject? (line : Nat) : Option String :=
  (ctx.directives.ofKind line .when).getLast?.map Directive.text

/-- The text of the value that a when directive dispatches on; one that cannot be read is taken as
it is. -/
def subjectText (text : String) : Lowering String := do
  match ← directiveExpression? ctx text with
  | some e => lower ctx e
  | none => return strip text

end AikenForge.Lowering
