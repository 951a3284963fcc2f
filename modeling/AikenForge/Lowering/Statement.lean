/-
# Lowering statements

Statements become lines of one block whose last line is its value, so a `return` is the bare text of
its value. A branch that always leaves, followed by more statements, takes these as its other
branch. Names bound in a nested block end with it; binding a name ends the alias it had.
-/

import AikenForge.Lowering.Hint
import AikenForge.Lowering.Directive
import AikenForge.Lowering.Pattern
import AikenForge.Source.Walk

namespace AikenForge.Lowering

open AikenForge.Source AikenForge.Text

variable (ctx : Context)

/-- The attribute that holds a transaction. -/
def transactionLabel : String :=
  "transaction"

/-- Whether a value is the transaction of a parameter that names may stand for. -/
def isTransactionAlias : Expr → Bool
  | .attribute (.name root) label => label == transactionLabel && ctx.aliasRoots.contains root
  | _ => false

mutual

/-- The text of what a binding binds, if it is supported. Every name it reaches loses its alias. -/
def bindingText? : Expr → Lowering (Option String)
  | .name id => do
    dropAliases [id]
    return some id
  | .tuple items => do
    return (← bindingTexts? items).map fun texts => "(" ++ ", ".intercalate texts ++ ")"
  | .list items => do
    return (← bindingTexts? items).map fun texts => "[" ++ ", ".intercalate texts ++ "]"
  | .starred (.name id) => do
    dropAliases [id]
    return some (".." ++ id)
  | _ => pure none

/-- The texts of several bindings, if all are supported. -/
def bindingTexts? : List Expr → Lowering (Option (List String))
  | [] => pure (some [])
  | item :: rest => do
    let text ← bindingText? item
    let texts ← bindingTexts? rest
    return text.bind fun text => texts.map fun texts => text :: texts

end

/-- The text of a value, unless a pipe directive stands in for it. -/
def valueText (pipe : Option String) (value : Expr) : Lowering String :=
  match pipe with
  | some text => pure text
  | none => lower ctx value

/-- The alias that binding a name to a value makes, set as it is found. -/
def aliasFor? (pipe : Option String) (name : String) (value : Expr) :
    Lowering (Option String) := do
  if pipe.isNone && isTransactionAlias ctx value then
    let text ← lower ctx value
    setAlias name text
    return some text
  else return none

/-- The binding of a target to a value. -/
def bindText (line : Nat) (pipe : Option String) (target value : Expr) : Lowering String := do
  let value ← valueText ctx pipe value
  match ← bindingText? target with
  | some pattern => return "let " ++ pattern ++ " = " ++ value
  | none =>
    warn .statements
      ("Unsupported assignment target " ++ target.kind ++ " at line " ++ toString line)
    return ""

/-- The text of an assignment to its first target. -/
def assignText (line : Nat) (pipe : Option String) (targets : List Expr) (value : Expr) :
    Lowering String := do
  if targets.length != 1 then
    warn .statements
      ("Chained assignment at line " ++ toString line ++ ", binding the first target only")
  match targets with
  | [] => return ""
  | target :: _ =>
    match target.name? with
    | some name =>
      match ← aliasFor? ctx pipe name value with
      | some text =>
        note .debug .statements ("Inlining " ++ name ++ " as " ++ text)
        return ""
      | none => bindText ctx line pipe target value
    | none => bindText ctx line pipe target value

/-- The text of an annotated assignment; without a value or with another target than a name there is
none. -/
def annotatedText (pipe : Option String) (target hint : Expr) (value : Option Expr) :
    Lowering String := do
  match target.name?, value with
  | some name, some value =>
    match ← aliasFor? ctx pipe name value with
    | some _ => return ""
    | none =>
      let text ← valueText ctx pipe value
      dropAliases [name]
      let type ← ofReporting (Hint.resolve ctx.options.names hint)
      return "let " ++ name ++ ": " ++ type.render ++ " = " ++ text
  | _, _ => return ""

/-- The text of an assignment that combines a name with a value. -/
def augmentedText (line : Nat) (target : Expr) (op : BinaryOp) (value : Expr) :
    Lowering String := do
  match target.name? with
  | some name =>
    let text ← lower ctx (.binary op (.name name) value)
    dropAliases [name]
    return "let " ++ name ++ " = " ++ text
  | none =>
    warn .statements ("Unsupported augmented assignment target at line " ++ toString line)
    return ""

/-- The text of a failure, with the message of an exception that is made with a text literal. -/
def raiseText : Option Expr → Lowering String
  | some (.call _ (message@(.constant (.text ..)) :: _) _) => do
    return "fail @" ++ (← lower ctx message)
  | _ => pure "fail"

/-- Report a statement of which at most the nested statements are lowered. -/
def warnNested (statement : Stmt) : Lowering Unit :=
  warn .statements ("Unsupported statement " ++ statement.kind ++ " at line " ++
    toString statement.line ++ ", translating its body only")

/-- The text of a simple statement; `pipe` stands in for its value. -/
def simpleText (line : Nat) (pipe : Option String) : Simple → Lowering String
  | .returns none => pure (pipe.getD "Void")
  | .returns (some value) => valueText ctx pipe value
  | .assigns targets value => assignText ctx line pipe targets value
  | .annotates target hint value => annotatedText ctx pipe target hint value
  | .augments target op value => augmentedText ctx line target op value
  | .asserts test _ => do
    return "expect " ++ (← lower ctx test)
  | .raises exception _ => raiseText ctx exception
  | .passes => pure ""
  | .evaluates value =>
    match value.text? with
    | some _ => pure ""
    | none => valueText ctx pipe value
  | other => do
    warnNested (.simple line other)
    return ""

/-- The text of a block of lines in its own scope. -/
def blockText (lines : Lowering (List String)) : Lowering String :=
  inBlock (joinLines <$> lines)

/-- A block in braces: `{`, the indented text and `}`, each on lines of its own. -/
def braced (text : String) : String :=
  "\x7b\n" ++ indentBlock ctx.options.indent text ++ "\n\x7d"

/-- Whether a list of statements is a single branch. -/
def isSingleBranch : List Stmt → Bool
  | [.branch ..] => true
  | _ => false

/-- Whether a list of statements is a single branch that no when directive dispatches. -/
def continuesChain : List Stmt → Bool
  | [.branch line ..] => (whenSubject? ctx line).isNone
  | _ => false

/-- The statements of an `else`, with their text as a further branch and as lines of a block. -/
structure Alternative where
  statements : List Stmt
  chain : Lowering String
  lines : Lowering (List String)

/-- The text of a branch. -/
def branchText (line : Nat) (test : Expr) (body : Lowering (List String))
    (alternative : Alternative) : Lowering String := do
  let condition ← lower ctx test
  let body ← blockText body
  let text := "if " ++ condition ++ " " ++ braced ctx body
  if alternative.statements.isEmpty then
    warn .statements ("if without else at line " ++ toString line)
    return text
  else if continuesChain ctx alternative.statements then
    return text ++ " else " ++ (← alternative.chain)
  else
    return text ++ " else " ++ braced ctx (← blockText alternative.lines)

/-- Record a dispatch and give its text. -/
def whenText (expression : String) (clauses : List WhenClause) : Lowering String := do
  let e : WhenExpression := ⟨expression, clauses⟩
  recordWhen e
  return e.render ctx.options.indent

/-- Whether a statement leaves the function. -/
def leaves : Stmt → Bool
  | .simple _ (.returns _) | .simple _ (.raises ..) => true
  | _ => false

/-- Whether a statement is a branch without `else` that always leaves and that no when directive
dispatches. -/
def isGuard : Stmt → Bool
  | .branch line _ body [] =>
    (body.getLast?.map leaves).getD false && (whenSubject? ctx line).isNone
  | _ => false

/-- The text of a whole statement: its pipe directive is read first, then it is lowered, then its
expect directives, which are written before it. -/
def around (statement : Stmt) (text : Option String → Lowering String) : Lowering String := do
  let pipe ← pipeLine? ctx statement.line
  dropAliases statement.ownBoundNames
  let text ← text pipe
  let expects ← expectLines ctx statement.line
  return joinLines ((expects ++ [text]).filter fun line => !line.isEmpty)

/-- The text of a statement of which only the nested statements are lowered. What it binds loses its
alias. -/
def nestedText (statement : Stmt) (parts : List (Lowering (List String))) : Lowering String := do
  warnNested statement
  dropAliases statement.blockTargets
  let texts ← parts.mapM id
  return joinLines (texts.flatten.filter fun text => !text.isEmpty)

/-- The clauses of a dispatched chain of branches: one with the test as its guard, then those of the
alternative, whose `chain` are the clauses of a further branch. -/
def chainClauses (test : Expr) (body : Lowering (List String)) (orelse : List Stmt)
    (chain : Lowering (List WhenClause)) (lines : Lowering (List String)) :
    Lowering (List WhenClause) := do
  let guard ← lower ctx test
  let body ← blockText body
  let clause : WhenClause := ⟨.wildcard, body, some guard⟩
  if isSingleBranch orelse then return clause :: (← chain)
  else if orelse.isEmpty then return [clause]
  else return [clause, ⟨.wildcard, ← blockText lines, none⟩]

/-- The clause of a case. -/
def caseClause (pattern : Pattern) (guard : Option Expr) (body : Lowering (List String)) :
    Lowering WhenClause := do
  let pattern ← lowerPattern ctx pattern
  let guard ← guard.mapM (lower ctx)
  return ⟨pattern, ← blockText body, guard⟩

mutual

/-- The lines of statements in the scope at hand. -/
def lowerLines : List Stmt → Lowering (List String)
  | [] => pure []
  | statement :: rest => do
    if isGuard ctx statement && !rest.isEmpty then
      dropAliases statement.ownBoundNames
      let expects ← expectLines ctx statement.line
      let text ← lowerBranch (some ⟨rest, lowerFirst rest, lowerLines rest⟩) statement
      return expects ++ [text]
    else
      let text ← around ctx statement fun pipe => lowerText pipe statement
      let texts ← lowerLines rest
      return if text.isEmpty then texts else text :: texts

/-- The text of a branch, with another alternative in place of its own if one is given. -/
def lowerBranch (instead : Option Alternative) : Stmt → Lowering String
  | .branch line test body orelse =>
    branchText ctx line test (lowerLines body)
      (instead.getD ⟨orelse, lowerFirst orelse, lowerLines orelse⟩)
  | _ => pure ""

/-- The text of the first statement, a branch. -/
def lowerFirst : List Stmt → Lowering String
  | [] => pure ""
  | statement :: _ => lowerBranch none statement

/-- The text of a statement without its directives; `pipe` stands in for its value. -/
def lowerText (pipe : Option String) : Stmt → Lowering String
  | .simple line statement => simpleText ctx line pipe statement
  | .branch line test body orelse =>
    match whenSubject? ctx line with
    | some subject => do
      let subject ← subjectText ctx subject
      let clauses ←
        chainClauses ctx test (lowerLines body) orelse (firstClauses orelse) (lowerLines orelse)
      whenText ctx subject clauses
    | none =>
      branchText ctx line test (lowerLines body)
        ⟨orelse, lowerFirst orelse, lowerLines orelse⟩
  | .select _ subject cases => do
    let clauses ← lowerCases cases
    whenText ctx (← lower ctx subject) clauses
  | s@(.forLoop _ _ _ _ body orelse) => nestedText s [lowerEach body, lowerEach orelse]
  | s@(.whileLoop _ _ body orelse) => nestedText s [lowerEach body, lowerEach orelse]
  | s@(.context _ _ _ body) => nestedText s [lowerEach body]
  | s@(.attempt _ _ body handlers orelse finals) =>
    nestedText s [lowerEach body, lowerEach orelse, lowerHandlers handlers, lowerEach finals]
  | s@(.function _ _ body) => nestedText s [lowerEach body]
  | s@(.classDef _ _ body) => nestedText s [lowerEach body]

/-- The clauses of a dispatched chain that starts with a branch. -/
def branchClauses : Stmt → Lowering (List WhenClause)
  | .branch _ test body orelse =>
    chainClauses ctx test (lowerLines body) orelse (firstClauses orelse) (lowerLines orelse)
  | _ => pure []

/-- The clauses of a dispatched chain that starts with the first statement. -/
def firstClauses : List Stmt → Lowering (List WhenClause)
  | [] => pure []
  | statement :: _ => branchClauses statement

/-- The clauses of the cases of a `match`. -/
def lowerCases : List Case → Lowering (List WhenClause)
  | [] => pure []
  | .mk pattern guard body :: rest => do
    let clause ← caseClause ctx pattern guard (lowerLines body)
    return clause :: (← lowerCases rest)

/-- The texts of statements that are a block each. -/
def lowerEach : List Stmt → Lowering (List String)
  | [] => pure []
  | statement :: rest => do
    let text ← inBlock (around ctx statement fun pipe => lowerText pipe statement)
    return text :: (← lowerEach rest)

/-- The texts of the bodies of exception handlers. -/
def lowerHandlers : List Handler → Lowering (List String)
  | [] => pure []
  | .mk _ _ body :: rest => do
    let text ← blockText (lowerLines body)
    return text :: (← lowerHandlers rest)

end

/-- Statements without the documentation that opens them. -/
def withoutDocumentation : List Stmt → List Stmt
  | [] => []
  | statement :: rest => if statement.text?.isSome then rest else statement :: rest

/-- The lines that the directives above a function ask for; only expectations are heard. -/
def headerLines (name : String) (directives : List Directive) : Lowering (List String) := do
  let lines ← directives.mapM fun d => do
    if d.kind = .expect then expectDirective ctx d.text
    else
      warn .statements ("Ignoring @" ++ d.kind.label ++ " directive above function " ++ name)
      return ""
  return lines.filter fun line => !line.isEmpty

/-- The text of a function's body: the expectations above the function, then its statements. -/
def functionText (f : FunctionSource) : Lowering String := do
  let expects ← headerLines ctx f.header.name (f.headLines.flatMap ctx.directives.onLine)
  let body ← joinLines <$> lowerLines ctx (withoutDocumentation f.body)
  return joinLines (if body.isEmpty then expects else expects ++ [body])

end AikenForge.Lowering
