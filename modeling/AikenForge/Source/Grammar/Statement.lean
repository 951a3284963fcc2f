/-
# The grammar of statements

Simple statements end with their line; compound statements hold blocks, which are read by an inner
rule for what is nested one level deeper.
-/

import AikenForge.Source.Grammar.Pattern

namespace AikenForge.Source

namespace Grammar.Statement

open Rule

/-- Operators that combine with an assignment. -/
def augmentingOps : List (String × BinaryOp) :=
  [("+=", .add), ("-=", .sub), ("*=", .mult), ("@=", .matMult), ("/=", .div), ("%=", .mod),
   ("&=", .bitAnd), ("|=", .bitOr), ("^=", .bitXor), ("<<=", .leftShift), (">>=", .rightShift),
   ("**=", .pow), ("//=", .floorDiv)]

/-- Names between dots, joined by dots. -/
def dottedText : Rule String := do
  let first ← name
  let others ← many (symbol "." *> name)
  return ".".intercalate (first :: others)

/-- A binding name after `as`. -/
def bindingName : Rule (Option String) := do
  if ← word? "as" then some <$> name else return none

/-- The dots before the module of a relative import. -/
def importLevel : Rule Nat := do
  let dots ← many do
    match (← take).lexeme with
    | .symbol "." => return 1
    | .symbol "..." => return 3
    | _ => failure
  return dots.foldl (· + ·) 0

/-- The names that an import exposes. -/
def importedNames : Rule (List ImportName) := do
  let item : Rule ImportName := do
    let name ← name
    return ⟨name, ← bindingName⟩
  if ← symbol? "*" then return [⟨"*", none⟩]
  else if ← symbol? "(" then
    let (names, _) ← commaList item
    symbol ")"
    return names
  else
    let (names, hasComma) ← commaList item
    guard !hasComma
    return names

/-- An import from a module after its keyword. -/
def importFrom : Rule Simple := do
  let level ← importLevel
  let module ← attempt? dottedText
  guard (level != 0 || module.isSome)
  word "import"
  return .importsFrom module (← importedNames) level

/-- An import of modules after its keyword. -/
def importModules : Rule Simple := do
  let item : Rule ImportName := do
    let name ← dottedText
    return ⟨name, ← bindingName⟩
  let first ← item
  return .imports (first :: (← many (symbol "," *> item)))

variable (grammar : Grammar)

/-- Whether a simple statement ends before the next token. -/
def atEnd : Rule Bool := do
  match ← peek? with
  | some .newline => return true
  | some (.symbol ";") => return true
  | _ => return false

/-- An assignment after its first target and equals sign. `targets` holds the targets so far, latest
first. -/
def assignment : (fuel : Nat) → (targets : List Expr) → Rule Simple
  | 0, _ => failure
  | fuel + 1, targets => do
    let value ← grammar.yieldOrExpressions
    if ← symbol? "=" then
      guard value.isTarget
      assignment fuel (value :: targets)
    else return .assigns targets.reverse value

/-- A statement that starts with an expression: an assignment of some kind or the expression. -/
def expressionStatement : Rule Simple := do
  let first ← grammar.starExpressions
  match ← peek? with
  | some (.symbol "=") =>
    guard first.isTarget
    symbol "="
    assignment grammar (← get).length [first]
  | some (.symbol ":") =>
    guard first.isPlace
    symbol ":"
    let hint ← grammar.expression
    if ← symbol? "=" then return .annotates first hint (some (← grammar.yieldOrExpressions))
    else return .annotates first hint none
  | some (.symbol text) =>
    match augmentingOps.lookup text with
    | some op =>
      guard first.isPlace
      symbol text
      return .augments first op (← grammar.yieldOrExpressions)
    | none => return .evaluates first
  | _ => return .evaluates first

/-- A deletion after its keyword. -/
def deletion : Rule Simple := do
  let (targets, _) ← commaList (grammar.primary >>= ensure Expr.isDeletable)
  guard (← atEnd)
  return .deletes targets

/-- A raise after its keyword. -/
def raising : Rule Simple := do
  if ← atEnd then return .raises none none
  else
    let exception ← grammar.expression
    if ← word? "from" then return .raises (some exception) (some (← grammar.expression))
    else return .raises (some exception) none

/-- Names between commas. -/
def names : Rule (List String) := do
  return (← name) :: (← many (symbol "," *> name))

/-- A simple statement. -/
def simple : Rule Simple := do
  if ← word? "pass" then return .passes
  else if ← word? "break" then return .breaks
  else if ← word? "continue" then return .continues
  else if ← word? "return" then return .returns (← attempt? grammar.starExpressions)
  else if ← word? "import" then importModules
  else if ← word? "from" then importFrom
  else if ← word? "raise" then raising grammar
  else if ← word? "del" then deletion grammar
  else if ← atWord "yield" then return .evaluates (← grammar.yieldOrExpressions)
  else if ← word? "assert" then
    let test ← grammar.expression
    if ← symbol? "," then return .asserts test (some (← grammar.expression))
    else return .asserts test none
  else if ← word? "global" then return .globals (← names)
  else if ← word? "nonlocal" then return .nonlocals (← names)
  else expressionStatement grammar

/-- The simple statements of one line. -/
def simpleLine : Rule (List Stmt) := do
  let item : Rule Stmt := do
    let line ← line
    return .simple line (← simple grammar)
  let first ← item
  let others ← many (symbol ";" *> item)
  discard (symbol? ";")
  newline
  return first :: others

variable (statement : Rule (List Stmt)) (pattern : Rule Pattern)

/-- Indented statements, or the simple statements of the rest of the line. -/
def block : Rule (List Stmt) := do
  match ← peek? with
  | some .newline =>
    newline
    layout fun | .indent => true | _ => false
    let statements ← many1 statement
    layout fun | .dedent => true | _ => false
    return statements.flatten
  | _ => simpleLine grammar

/-- A block after a colon. -/
def body : Rule (List Stmt) := do
  symbol ":"
  block grammar statement

/-- The block of an `else`, empty if there is none. -/
def elseBody : Rule (List Stmt) := do
  if ← word? "else" then body grammar statement else return []

/-- A conditional after its keyword on `line`; `fuel` bounds the number of further branches. -/
def branches : (fuel : Nat) → (line : Nat) → Rule Stmt
  | 0, _ => failure
  | fuel + 1, line => do
    let test ← grammar.namedExpression
    let taken ← body grammar statement
    let next ← Rule.line
    if ← word? "elif" then
      return .branch line test taken [← branches fuel next]
    else return .branch line test taken (← elseBody grammar statement)

/-- A context manager with its target. -/
def contextItem : Rule ContextItem := do
  let manager ← grammar.expression
  let bound : Rule Expr := do
    word "as"
    let target ← if ← symbol? "*" then Expr.starred <$> grammar.primary else grammar.primary
    guard target.isTarget
    guard ((← atSymbol ",") || (← atSymbol ")") || (← atSymbol ":"))
    return target
  return ⟨manager, ← attempt? bound⟩

/-- Context managers, in round brackets or not. -/
def contextItems : Rule (List ContextItem) :=
  let bracketed : Rule (List ContextItem) := do
    symbol "("
    let (items, _) ← commaList (contextItem grammar)
    symbol ")"
    guard (← atSymbol ":")
    return items
  bracketed <|> do
    let first ← contextItem grammar
    return first :: (← many (symbol "," *> contextItem grammar))

/-- A `with` after its keyword. -/
def context (line : Nat) (isAsync : Bool) : Rule Stmt := do
  let items ← contextItems grammar
  return .context line isAsync items (← body grammar statement)

/-- A `for` after its keyword. -/
def forLoop (line : Nat) (isAsync : Bool) : Rule Stmt := do
  let target ← grammar.targets
  word "in"
  let iterable ← grammar.starExpressions
  let repeated ← body grammar statement
  return .forLoop line isAsync target iterable repeated (← elseBody grammar statement)

/-- A `while` after its keyword. -/
def whileLoop (line : Nat) : Rule Stmt := do
  let test ← grammar.namedExpression
  let repeated ← body grammar statement
  return .whileLoop line test repeated (← elseBody grammar statement)

/-- An `except` of the kind that `isGroup` names. -/
def handler (isGroup : Bool) : Rule Handler := do
  word "except"
  if isGroup then symbol "*"
  if !isGroup && (← atSymbol ":") then return .mk none none (← body grammar statement)
  else
    let exception ← grammar.expression
    let name ← bindingName
    return .mk (some exception) name (← body grammar statement)

/-- A `try` after its keyword. -/
def attempt (line : Nat) : Rule Stmt := do
  let tried ← body grammar statement
  let finals : Rule (List Stmt) := do
    if ← word? "finally" then body grammar statement else return []
  let isGroup := match ← get with
    | ⟨.word "except", _, _⟩ :: ⟨.symbol "*", _, _⟩ :: _ => true
    | _ => false
  match ← many (handler grammar statement isGroup) with
  | [] =>
    word "finally"
    return .attempt line false tried [] [] (← body grammar statement)
  | handlers =>
    let orelse ← elseBody grammar statement
    return .attempt line isGroup tried handlers orelse (← finals)

/-- One case of a `match`. -/
def case : Rule Case := do
  word "case"
  let pattern ← Pattern.casePattern pattern
  let guarding ← if ← word? "if" then some <$> grammar.namedExpression else pure none
  return .mk pattern guarding (← body grammar statement)

/-- What a `match` looks at. A comma makes a tuple. -/
def subject : Rule Expr := do
  let item := Grammar.displayItem grammar
  let first ← item
  if ← symbol? "," then
    match ← attempt? (commaList item) with
    | some (others, _) => return .tuple (first :: others)
    | none => return .tuple [first]
  else
    guard !(Grammar.isStarred first)
    return first

/-- A `match`. Its keyword is an ordinary name elsewhere. -/
def select : Rule Stmt := do
  let line ← line
  word "match"
  let subject ← subject grammar
  symbol ":"
  newline
  layout fun | .indent => true | _ => false
  let cases ← many1 (case grammar statement pattern)
  layout fun | .dedent => true | _ => false
  return .select line subject cases

/-- The end line of the last token that is not layout among those taken from `before` to reach
`after`. -/
def lastLine (before after : List Token) : Nat :=
  let taken := before.take (before.length - after.length)
  ((taken.reverse.find? (!·.isLayout)).map Token.endLine).getD 0

/-- A function definition; `start` holds the tokens from its first keyword on. -/
def function (decorators : List Decorator) (start : List Token) (line : Nat) (isAsync : Bool) :
    Rule Stmt := do
  let name ← name
  symbol "("
  let parameters ← Grammar.parameters grammar true ")"
  symbol ")"
  let returns ← if ← symbol? "->" then some <$> grammar.expression else pure none
  let statements ← body grammar statement
  let header : FunctionHeader :=
    ⟨name, isAsync, parameters, returns, decorators, lastLine start (← get)⟩
  return .function line header statements

/-- A class definition after its keyword. -/
def classDef (decorators : List Decorator) (line : Nat) : Rule Stmt := do
  let name ← name
  let (bases, keywords) ← if ← symbol? "(" then Grammar.arguments grammar false else pure ([], [])
  return .classDef line ⟨name, bases, keywords, decorators⟩ (← body grammar statement)

/-- The line of an expression whose tokens are those of `tokens` up to the last `remaining`: that of
its first token, after any round brackets that only group it. -/
def anchorLine (grammar : Grammar) (remaining : Nat) : List Token → Nat
  | [] => 0
  | ⟨.symbol "(", line, _⟩ :: inside =>
    let grouped : Rule Unit := do
      if ← word? "yield" then discard (Grammar.yieldOver grammar.factor grammar.expression)
      else discard grammar.namedExpression
    match grouped inside with
    | some ((), ⟨.symbol ")", _, _⟩ :: rest) =>
      if rest.length = remaining then anchorLine grammar (remaining + 1) inside else line
    | _ => line
  | token :: _ => token.line

/-- One decorator. -/
def decorator : Rule Decorator := do
  symbol "@"
  let start ← get
  let expression ← grammar.namedExpression
  let line := anchorLine grammar (← get).length start
  newline
  return ⟨line, expression⟩

/-- A function or class definition with its decorators, if one comes next. -/
def definition : Rule Stmt := do
  let decorators ← many (decorator grammar)
  let start ← get
  let line ← line
  if ← word? "def" then function grammar statement decorators start line false
  else if ← word? "class" then classDef grammar statement decorators line
  else
    word "async"
    word "def"
    function grammar statement decorators start line true

/-- A compound statement, where its keyword decides which. -/
def compound : Rule (Option Stmt) := do
  let line ← line
  match ← get with
  | ⟨.symbol "@", _, _⟩ :: _ => some <$> definition grammar statement
  | ⟨.word "async", _, _⟩ :: ⟨.word "for", _, _⟩ :: rest =>
    set rest
    some <$> forLoop grammar statement line true
  | ⟨.word "async", _, _⟩ :: ⟨.word "with", _, _⟩ :: rest =>
    set rest
    some <$> context grammar statement line true
  | ⟨.word text, _, _⟩ :: rest =>
    match text with
    | "def" | "class" | "async" => some <$> definition grammar statement
    | "if" => set rest; some <$> branches grammar statement rest.length line
    | "for" => set rest; some <$> forLoop grammar statement line false
    | "while" => set rest; some <$> whileLoop grammar statement line
    | "with" => set rest; some <$> context grammar statement line false
    | "try" => set rest; some <$> attempt grammar statement line
    | "match" => attempt? (select grammar statement pattern)
    | _ => return none
  | _ => return none

/-- A statement, or the simple statements of one line. -/
def statementRule : Rule (List Stmt) := do
  match ← compound grammar statement pattern with
  | some statement => return [statement]
  | none => simpleLine grammar

/-- A rule for statements nested up to `depth` levels. -/
def ofDepth (grammar : Grammar) (pattern : Rule Pattern) : (depth : Nat) → Rule (List Stmt)
  | 0 => failure
  | depth + 1 => statementRule grammar (ofDepth grammar pattern depth) pattern

end Grammar.Statement

end AikenForge.Source
