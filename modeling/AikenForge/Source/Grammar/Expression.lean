/-
# The grammar of expressions

The rules are written against an *inner* grammar that reads what is nested one level deeper: inside
brackets, after a unary operator, in the last branch of a conditional or the body of a lambda. Each
nesting consumes a token, so a tower of grammars as high as the text is long reads every expression.
-/

import AikenForge.Source.Grammar.Basic
import AikenForge.Source.Grammar.Formatted
import AikenForge.Source.Lexer

namespace AikenForge.Source

/-- What the rules of one level need from the level below: full expressions, and operands of a
unary operator. The names of characters are the same on all levels. -/
structure Grammar where
  names : CharacterNames
  expression : Rule Expr
  factor : Rule Expr

/-- Whether an expression may be assigned to. A star may stand once before a target. -/
def Expr.isTarget : Expr → Bool
  | .name _ | .attribute .. | .subscript .. => true
  | .starred (.starred _) => false
  | .starred value => value.isTarget
  | .tuple items | .list items => allTargets items
  | _ => false
where
  allTargets : List Expr → Bool
    | [] => true
    | item :: rest => item.isTarget && allTargets rest

/-- Whether an expression may be deleted. -/
def Expr.isDeletable : Expr → Bool
  | .name _ | .attribute .. | .subscript .. => true
  | .tuple items | .list items => allDeletable items
  | _ => false
where
  allDeletable : List Expr → Bool
    | [] => true
    | item :: rest => item.isDeletable && allDeletable rest

/-- Whether an expression is a single place: a name, an attribute or a subscript. -/
def Expr.isPlace : Expr → Bool
  | .name _ | .attribute .. | .subscript .. => true
  | _ => false

namespace Grammar

open Rule

/-- A left-associative chain of operators over operands. -/
def chainLeft (ops : List (String × BinaryOp)) (operand : Rule Expr) : Rule Expr := do
  let first ← operand
  let links ← many do
    match ← peek? with
    | some (.symbol text) =>
      match ops.lookup text with
      | some op => discard take; return (op, ← operand)
      | none => failure
    | _ => failure
  return links.foldl (fun left (op, right) => .binary op left right) first

/-- Whether a name that is bound on the way comes next. -/
def atBinding : Rule Bool := do
  match ← get with
  | ⟨.word _, _, _⟩ :: ⟨.symbol ":=", _, _⟩ :: _ => return true
  | _ => return false

variable (inner : Grammar)

/-- An expression, or a name bound to one on the way. -/
def namedExpression : Rule Expr := do
  match ← get with
  | ⟨.word text, _, _⟩ :: ⟨.symbol ":=", _, _⟩ :: rest =>
    guard !(reservedWords.contains text)
    set rest
    return .named (.ofList (Text.compatibilityForm text.toList)) (← inner.expression)
  | _ =>
    let value ← inner.expression
    guard !(← atSymbol ":=")
    return value

/-- Read the text of an expression inside a formatted literal, as if it stood in round brackets. -/
def embeddedExpression (starExpressions : Rule Expr) (text : List Char) : Option Expr :=
  match tokenize ('(' :: text ++ [')']) with
  | .ok tokens =>
    match starExpressions tokens with
    | some (value, []) => some value
    | _ => none
  | .error _ => none

/-- A parameter's annotation, where annotations are allowed. -/
def hint (allowed : Bool) : Rule (Option Expr) := do
  if allowed then
    if ← symbol? ":" then return some (← inner.expression) else return none
  else return none

/-- An item of a parameter list. -/
inductive ParameterItem
  | plain (parameter : Parameter) (hasFallback : Bool)
  | slash
  | star (parameter : Option Parameter)
  | doubleStar (parameter : Parameter)

/-- One item of a parameter list; `annotated` allows annotations. -/
def parameterItem (annotated : Bool) : Rule ParameterItem := do
  if ← symbol? "/" then return .slash
  else if ← symbol? "**" then
    let name ← name
    return .doubleStar (.mk name (← hint inner annotated) none)
  else if ← symbol? "*" then
    if ← atSymbol "," then return .star none
    else
      let name ← name
      if annotated && (← atSymbol ":") then
        symbol ":"
        if ← symbol? "*" then
          return .star (some (.mk name (some (.starred (← inner.expression))) none))
        else return .star (some (.mk name (some (← inner.expression)) none))
      else return .star (some (.mk name none none))
  else
    let name ← name
    let hint ← hint inner annotated
    if ← symbol? "=" then return .plain (.mk name hint (some (← inner.expression))) true
    else return .plain (.mk name hint none) false

/-- The keyword-only parameters and what takes surplus keyword arguments. -/
def keywordParameters : List ParameterItem → Option (List Parameter × Option Parameter)
  | [] => some ([], none)
  | [.doubleStar parameter] => some ([], some parameter)
  | .plain parameter _ :: rest =>
    (keywordParameters rest).map fun (parameters, keywords) => (parameter :: parameters, keywords)
  | _ => none

/-- Sort the items of a parameter list by kind. A slash follows a parameter and comes once, a
parameter after one with a fallback has one too, and a bare star is followed by a parameter.
`before` and `regular` hold the parameters met before and after a slash, latest first. -/
def sortParameters (before : Option (List Parameter)) (regular : List Parameter)
    (needFallback : Bool) : List ParameterItem → Option Parameters
  | [] => some (.mk (before.getD []).reverse regular.reverse none [] none)
  | .plain parameter hasFallback :: rest =>
    if needFallback && !hasFallback then none
    else sortParameters before (parameter :: regular) hasFallback rest
  | .slash :: rest =>
    if before.isSome || regular.isEmpty then none
    else sortParameters (some regular) [] needFallback rest
  | .star none :: .plain parameter hasFallback :: rest =>
    (keywordParameters (.plain parameter hasFallback :: rest)).map fun (only, keywords) =>
      .mk (before.getD []).reverse regular.reverse none only keywords
  | .star none :: _ => none
  | .star (some variadic) :: rest =>
    (keywordParameters rest).map fun (only, keywords) =>
      .mk (before.getD []).reverse regular.reverse (some variadic) only keywords
  | .doubleStar parameter :: rest =>
    if rest.isEmpty then
      some (.mk (before.getD []).reverse regular.reverse none [] (some parameter))
    else none

/-- A parameter list, empty if the closing symbol comes first. -/
def parameters (annotated : Bool) (closing : String) : Rule Parameters := do
  if ← atSymbol closing then return .empty
  else
    let (items, _) ← commaList (parameterItem inner annotated)
    sortParameters none [] false items

/-- A lambda after its keyword. -/
def lambda : Rule Expr := do
  let parameters ← parameters inner false ":"
  symbol ":"
  return .lambda parameters (← inner.expression)

/-- An argument of a call. -/
inductive Argument
  | positional (value : Expr)
  | starred (value : Expr)
  | keyword (keyword : Keyword)

/-- One argument of a call. -/
def argument : Rule Argument := do
  if ← symbol? "**" then return .keyword (.spread (← inner.expression))
  else if ← symbol? "*" then return .starred (← inner.expression)
  else
    match ← get with
    | ⟨.word text, _, _⟩ :: ⟨.symbol "=", _, _⟩ :: rest =>
      guard !(reservedWords.contains text)
      set rest
      let label := String.ofList (Text.compatibilityForm text.toList)
      return .keyword (.labelled label (← inner.expression))
    | _ => return .positional (← namedExpression inner)

/-- Whether arguments come in an allowed order: positional ones before keywords, starred ones before
any spread of keywords. -/
def argumentsInOrder (afterKeyword afterSpread : Bool) : List Argument → Bool
  | [] => true
  | .positional _ :: rest => !afterKeyword && argumentsInOrder afterKeyword afterSpread rest
  | .starred _ :: rest => !afterSpread && argumentsInOrder afterKeyword afterSpread rest
  | .keyword (.labelled ..) :: rest => argumentsInOrder true afterSpread rest
  | .keyword (.spread _) :: rest => argumentsInOrder true true rest

/-- The values passed by position, with a star where one was written. -/
def positionalValues (arguments : List Argument) : List Expr :=
  arguments.filterMap fun
    | .positional value => some value
    | .starred value => some (.starred value)
    | .keyword _ => none

/-- The keyword arguments. -/
def keywordValues (arguments : List Argument) : List Keyword :=
  arguments.filterMap fun
    | .keyword keyword => some keyword
    | _ => none

/-- Whether a comprehension clause comes next. -/
def atClause : Rule Bool := do
  match ← get with
  | ⟨.word "for", _, _⟩ :: _ => return true
  | ⟨.word "async", _, _⟩ :: ⟨.word "for", _, _⟩ :: _ => return true
  | _ => return false

/-- String literals that follow each other. -/
def literals : Rule (List StringLiteral) :=
  many1 do
    match (← take).lexeme with
    | .string literal => return literal
    | _ => failure

/-- Items between commas; a comma makes a tuple of even one item. -/
def tupleOf (item : Rule Expr) : Rule Expr := do
  match ← commaList item with
  | ([value], false) => return value
  | (values, _) => return .tuple values

/-- A slice or an index between square brackets. -/
def sliceItem : Rule Expr := do
  let boundUnless (stops : List String) : Rule (Option Expr) := do
    match ← peek? with
    | some (.symbol text) =>
      if stops.contains text then return none else return some (← inner.expression)
    | _ => return some (← inner.expression)
  let bounds (lower : Option Expr) : Rule Expr := do
    let upper ← boundUnless [",", "]", ":"]
    if ← symbol? ":" then return .slice lower upper (← boundUnless [",", "]"])
    else return .slice lower upper none
  if ← symbol? ":" then bounds none
  else
    let isBinding ← atBinding
    let value ← namedExpression inner
    if isBinding then return value
    else if ← symbol? ":" then bounds (some value)
    else return value

/-- What stands between square brackets after a value. A star or a comma makes a tuple. -/
def subscriptIndex : Rule Expr := do
  let item : Rule Expr := do
    if ← symbol? "*" then return .starred (← inner.expression) else sliceItem inner
  match ← commaList item with
  | ([.starred value], _) => return .tuple [.starred value]
  | ([value], false) => return value
  | (values, _) => return .tuple values

/-- The operators of each level of binary operators, loosest first. -/
def binaryLevels : List (List (String × BinaryOp)) :=
  [[("|", .bitOr)], [("^", .bitXor)], [("&", .bitAnd)], [("<<", .leftShift), (">>", .rightShift)],
   [("+", .add), ("-", .sub)],
   [("*", .mult), ("/", .div), ("//", .floorDiv), ("%", .mod), ("@", .matMult)]]

/-- Chains of binary operators over the operands of a unary operator, by levels. -/
def binaryOver (factor : Rule Expr) : Rule Expr :=
  binaryLevels.foldr chainLeft factor

/-- A comparison operator. -/
def compareOp : Rule CompareOp := do
  match (← take).lexeme with
  | .symbol "==" => return .eq
  | .symbol "!=" => return .notEq
  | .symbol "<" => return .lt
  | .symbol "<=" => return .ltE
  | .symbol ">" => return .gt
  | .symbol ">=" => return .gtE
  | .word "in" => return .isIn
  | .word "not" => word "in"; return .notIn
  | .word "is" => if ← word? "not" then return .isNot else return .is
  | _ => failure

/-- Comparisons over operands. -/
def comparisonOver (operand : Rule Expr) : Rule Expr := do
  let first ← operand
  match ← many (do let op ← compareOp; return Link.mk op (← operand)) with
  | [] => return first
  | links => return .compare first links

/-- Operands joined by a connective; one alone stays as it is. -/
def connectedBy (text : String) (op : BoolOp) (operand : Rule Expr) : Rule Expr := do
  let first ← operand
  match ← many (word text *> operand) with
  | [] => return first
  | others => return .boolean op (first :: others)

/-- Conditions joined by connectives, over the operands of a unary operator. -/
def disjunctionOver (factor : Rule Expr) : Rule Expr :=
  let inversion : Rule Expr := do
    let nots ← many (word "not")
    let value ← comparisonOver (binaryOver factor)
    return nots.foldl (fun value _ => .unary .not value) value
  connectedBy "or" .or (connectedBy "and" .and inversion)

/-- A starred operand or an expression. -/
def starOr (factor expression : Rule Expr) : Rule Expr := do
  if ← symbol? "*" then return .starred (← binaryOver factor) else expression

/-- Expressions and starred operands between commas. -/
def starExpressionsOver (factor expression : Rule Expr) : Rule Expr :=
  tupleOf (starOr factor expression)

/-- A yield after its keyword. -/
def yieldOver (factor expression : Rule Expr) : Rule Expr := do
  if ← word? "from" then return .yieldFrom (← expression)
  else return .yield (← attempt? (starExpressionsOver factor expression))

/-- One or more targets between commas, over values with trailers. -/
def targetsOver (primary : Rule Expr) : Rule Expr :=
  tupleOf do
    let target ← if ← symbol? "*" then Expr.starred <$> primary else primary
    ensure Expr.isTarget target

/-- The clauses of a comprehension, over values with trailers and operands. -/
def clausesOver (primary factor : Rule Expr) : Rule (List Clause) :=
  many1 do
    let isAsync ← word? "async"
    word "for"
    let target ← targetsOver primary
    word "in"
    let iterable ← disjunctionOver factor
    return .mk target iterable (← many (word "if" *> disjunctionOver factor)) isAsync

/-- An operand of a unary operator, over values with trailers. -/
def factorOver (primary : Rule Expr) : Rule Expr := do
  if ← symbol? "+" then return .unary .plus (← inner.factor)
  else if ← symbol? "-" then return .unary .minus (← inner.factor)
  else if ← symbol? "~" then return .unary .invert (← inner.factor)
  else
    let value ← if ← word? "await" then Expr.await <$> primary else primary
    if ← symbol? "**" then return .binary .pow value (← inner.factor) else return value

/-- An item of a display: a starred operand, or an expression with an optional name. -/
def displayItem : Rule Expr := do
  if ← symbol? "*" then return .starred (← binaryOver inner.factor) else namedExpression inner

/-- Whether an expression is starred. -/
def isStarred : Expr → Bool
  | .starred _ => true
  | _ => false

/-- The clauses of a comprehension in a bracket. -/
def clauses : Rule (List Clause) :=
  clausesOver inner.factor inner.factor

/-- What stands in round brackets: nothing, a yield, a generator, a tuple or one expression. -/
def roundBracket : Rule Expr := do
  if ← symbol? ")" then return .tuple []
  else if ← word? "yield" then
    let value ← yieldOver inner.factor inner.expression
    symbol ")"
    return value
  else
    let first ← displayItem inner
    if (← atClause) && !isStarred first then
      let clauses ← clauses inner
      symbol ")"
      return .comprehension .generator first clauses
    else if ← symbol? "," then
      if ← symbol? ")" then return .tuple [first]
      else
        let (others, _) ← commaList (displayItem inner)
        symbol ")"
        return .tuple (first :: others)
    else
      guard !(isStarred first)
      symbol ")"
      return first

/-- What stands in square brackets: a list or a list comprehension. -/
def squareBracket : Rule Expr := do
  if ← symbol? "]" then return .list []
  else
    let first ← displayItem inner
    if (← atClause) && !isStarred first then
      let clauses ← clauses inner
      symbol "]"
      return .comprehension .list first clauses
    else
      let others ← many (symbol "," *> displayItem inner)
      discard (symbol? ",")
      symbol "]"
      return .list (first :: others)

/-- An entry of a dictionary. -/
def entry : Rule Entry := do
  if ← symbol? "**" then return .spread (← binaryOver inner.factor)
  else
    let key ← inner.expression
    symbol ":"
    return .pair key (← inner.expression)

/-- The rest of a dictionary after its first entry. -/
def dictAfter (first : Entry) : Rule Expr := do
  let others ← many (symbol "," *> entry inner)
  discard (symbol? ",")
  symbol "\x7d"
  return .dict (first :: others)

/-- The rest of a set after its first item. -/
def setAfter (first : Expr) : Rule Expr := do
  let others ← many (symbol "," *> displayItem inner)
  discard (symbol? ",")
  symbol "\x7d"
  return .set (first :: others)

/-- What stands in braces: a dictionary, a set or a comprehension of either. -/
def curlyBracket : Rule Expr := do
  if ← symbol? "\x7d" then return .dict []
  else if ← atSymbol "**" then dictAfter inner (← entry inner)
  else
    let isBinding ← atBinding
    let first ← displayItem inner
    if !isBinding && !isStarred first && (← atSymbol ":") then
      symbol ":"
      let value ← inner.expression
      if ← atClause then
        let clauses ← clauses inner
        symbol "\x7d"
        return .dictComprehension first value clauses
      else dictAfter inner (.pair first value)
    else if (← atClause) && !isStarred first then
      let clauses ← clauses inner
      symbol "\x7d"
      return .comprehension .set first clauses
    else setAfter inner first

/-- A name, a literal or a bracket. -/
def atom : Rule Expr := do
  match ← peek? with
  | some (.string _) =>
    let literals ← literals
    let embedded := embeddedExpression (starExpressionsOver inner.factor inner.expression)
    match joinLiterals inner.names embedded literals with
    | some value => return value
    | none => failure
  | _ =>
    match (← take).lexeme with
    | .word text =>
      match text with
      | "True" => return .constant (.bool true)
      | "False" => return .constant (.bool false)
      | "None" => return .constant .none
      | _ =>
        guard !(reservedWords.contains text)
        return .name (.ofList (Text.compatibilityForm text.toList))
    | .number value => return .constant value
    | .symbol "(" => roundBracket inner
    | .symbol "[" => squareBracket inner
    | .symbol "\x7b" => curlyBracket inner
    | .symbol "..." => return .constant .ellipsis
    | _ => failure

/-- What may follow a value: an attribute, arguments or an index. -/
inductive Trailer
  | attribute (label : String)
  | call (args : List Expr) (keywords : List Keyword)
  | subscript (index : Expr)

/-- Put a trailer after a value. -/
def Trailer.apply (value : Expr) : Trailer → Expr
  | .attribute label => .attribute value label
  | .call args keywords => .call value args keywords
  | .subscript index => .subscript value index

/-- Arguments up to a closing round bracket, which is taken too. Where `generatorAllowed`, a
generator may be the only argument without brackets of its own. -/
def arguments (generatorAllowed : Bool) : Rule (List Expr × List Keyword) := do
  if ← symbol? ")" then return ([], [])
  else
    match ← argument inner, generatorAllowed && (← atClause) with
    | .positional element, true =>
      let clauses ← clauses inner
      symbol ")"
      return ([.comprehension .generator element clauses], [])
    | first, _ =>
      let others ← many (symbol "," *> argument inner)
      discard (symbol? ",")
      guard (argumentsInOrder false false (first :: others))
      symbol ")"
      return (positionalValues (first :: others), keywordValues (first :: others))

/-- One trailer. -/
def trailer : Rule Trailer := do
  match (← take).lexeme with
  | .symbol "." => return .attribute (← name)
  | .symbol "(" =>
    let (args, keywords) ← arguments inner true
    return .call args keywords
  | .symbol "[" =>
    let index ← subscriptIndex inner
    symbol "]"
    return .subscript index
  | _ => failure

/-- A value with its trailers. -/
def primary : Rule Expr := do
  let first ← atom inner
  return (← many (trailer inner)).foldl Trailer.apply first

/-- An operand of a unary operator. -/
def factorRule : Rule Expr :=
  factorOver inner (primary inner)

/-- A condition. -/
def disjunction : Rule Expr :=
  disjunctionOver (factorRule inner)

/-- A lambda, a conditional or a condition. -/
def expressionRule : Rule Expr := do
  if ← word? "lambda" then lambda inner
  else
    let body ← disjunction inner
    let conditional : Rule Expr := do
      word "if"
      let test ← disjunction inner
      word "else"
      return .conditional test body (← inner.expression)
    conditional <|> pure body

/-- The grammar one level above `inner`. -/
def above : Grammar where
  names := inner.names
  expression := expressionRule inner
  factor := factorRule inner

/-- A grammar that reads expressions nested up to `depth` levels. -/
def ofDepth (names : CharacterNames) : (depth : Nat) → Grammar
  | 0 => ⟨names, failure, failure⟩
  | depth + 1 => (ofDepth names depth).above

/-- Expressions and starred operands between commas. -/
def starExpressions : Rule Expr :=
  starExpressionsOver inner.factor inner.expression

/-- A yield, or expressions between commas. -/
def yieldOrExpressions : Rule Expr := do
  if ← word? "yield" then yieldOver inner.factor inner.expression else starExpressions inner

/-- One or more targets between commas. -/
def targets : Rule Expr :=
  targetsOver (primary inner)

/-- Expressions between commas, without stars. -/
def expressions : Rule Expr :=
  tupleOf inner.expression

end Grammar

end AikenForge.Source
