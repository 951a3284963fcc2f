/-
# The grammar of patterns

Patterns nest as expressions do, and the rules are again written against an inner rule that reads
what is nested one level deeper.
-/

import AikenForge.Source.Grammar.Expression

namespace AikenForge.Source

namespace Grammar.Pattern

open Rule

/-- Whether a capture may end before the next token. -/
def captureMayEnd : Rule Bool := do
  return !((← atSymbol ".") || (← atSymbol "(") || (← atSymbol "="))

/-- The name that a capture binds; the wildcard's underscore is none. -/
def captureName : Rule String := do
  guard !(← atWord "_")
  let name ← name
  guard (← captureMayEnd)
  return name

/-- A number with an optional minus, and whether it is imaginary. -/
def signedNumber : Rule (Expr × Bool) := do
  let isNegative ← symbol? "-"
  match (← take).lexeme with
  | .number value =>
    let isImaginary := match value with
      | .imaginary _ => true
      | _ => false
    let number := Expr.constant value
    return (if isNegative then .unary .minus number else number, isImaginary)
  | _ => failure

/-- A number, or a real part with an imaginary part added to it or taken from it. -/
def numberLiteral : Rule Expr := do
  let (number, isImaginary) ← signedNumber
  let op? ← if ← symbol? "+" then pure (some BinaryOp.add)
    else if ← symbol? "-" then pure (some BinaryOp.sub) else pure none
  match op? with
  | none => return number
  | some op =>
    match (← take).lexeme with
    | .number (.imaginary value) =>
      guard !isImaginary
      return .binary op number (.constant (.imaginary value))
    | _ => failure

/-- A literal that can stand in a pattern or as a key: a number, a string or a constant word. -/
def literal? (grammar : Grammar) : Rule (Option Expr) := do
  match ← peek? with
  | some (.number _) => some <$> numberLiteral
  | some (.symbol "-") => some <$> numberLiteral
  | some (.string _) => some <$> Grammar.atom grammar
  | some (.word "None") => discard take; return some (.constant .none)
  | some (.word "True") => discard take; return some (.constant (.bool true))
  | some (.word "False") => discard take; return some (.constant (.bool false))
  | _ => return none

/-- The pattern of a literal. -/
def ofLiteral : Expr → Pattern
  | .constant .none => .singleton .none
  | .constant (.bool value) => .singleton (.bool value)
  | value => .value value

/-- A name and the attributes after it. -/
def dottedName : Rule Expr := do
  let first ← name
  let labels ← many (symbol "." *> name)
  return labels.foldl Expr.attribute (.name first)

/-- Whether an expression is an attribute. -/
def isAttribute : Expr → Bool
  | .attribute .. => true
  | _ => false

variable (grammar : Grammar) (inner : Rule Pattern)

/-- A rest, or a pattern. -/
def starOrPattern : Rule Pattern := do
  if ← symbol? "*" then
    if ← word? "_" then return .star none else return .star (some (← captureName))
  else inner

/-- Whether a pattern is a rest. -/
def isStar : Pattern → Bool
  | .star _ => true
  | _ => false

/-- A group or a tuple after its opening bracket. -/
def roundPattern : Rule Pattern := do
  if ← symbol? ")" then return .sequence true []
  else
    let first ← starOrPattern inner
    if ← symbol? ")" then
      guard !(isStar first)
      return first
    else
      symbol ","
      if ← symbol? ")" then return .sequence true [first]
      else
        let (others, _) ← commaList (starOrPattern inner)
        symbol ")"
        return .sequence true (first :: others)

/-- A list after its opening bracket. -/
def squarePattern : Rule Pattern := do
  if ← symbol? "]" then return .sequence false []
  else
    let (items, _) ← commaList (starOrPattern inner)
    symbol "]"
    return .sequence false items

/-- A key of a mapping and its pattern. -/
def mappingEntry : Rule (Expr × Pattern) := do
  let key ← match ← literal? grammar with
    | some key => pure key
    | none => dottedName >>= ensure isAttribute
  symbol ":"
  return (key, ← inner)

/-- A mapping after its opening brace; the rest comes last. -/
def curlyPattern : Rule Pattern := do
  let entries ← match ← attempt? (mappingEntry grammar inner) with
    | none => pure []
    | some first =>
      let others ← many (symbol "," *> mappingEntry grammar inner)
      pure (first :: others)
  let rest ← if entries.isEmpty then
      if ← symbol? "**" then some <$> captureName else pure none
    else attempt? (symbol "," *> symbol "**" *> captureName)
  if !entries.isEmpty || rest.isSome then discard (symbol? ",")
  symbol "\x7d"
  return .mapping (entries.map Prod.fst) (entries.map Prod.snd) rest

/-- An argument of a class pattern, with its label if it has one. -/
def classArgument : Rule (Option String × Pattern) := do
  match ← get with
  | ⟨.word text, _, _⟩ :: ⟨.symbol "=", _, _⟩ :: rest =>
    guard !(reservedWords.contains text)
    set rest
    return (some (.ofList (Text.compatibilityForm text.toList)), ← inner)
  | _ => return (none, ← inner)

/-- Whether no argument without a label follows one with a label. -/
def labelsLast (arguments : List (Option String × Pattern)) : Bool :=
  (arguments.dropWhile (·.1.isNone)).all (·.1.isSome)

/-- A class pattern after its opening bracket. -/
def classPattern (callee : Expr) : Rule Pattern := do
  if ← symbol? ")" then return .class callee [] [] []
  else
    let (arguments, _) ← commaList (classArgument inner)
    guard (labelsLast arguments)
    symbol ")"
    let positional := arguments.filter (·.1.isNone)
    let labelled := arguments.filterMap fun (label, pattern) => label.map (·, pattern)
    return .class callee (positional.map Prod.snd) (labelled.map Prod.fst) (labelled.map Prod.snd)

/-- A value, a class pattern or a capture that starts with a name. -/
def namePattern : Rule Pattern := do
  let value ← dottedName
  if ← symbol? "(" then classPattern inner value
  else
    guard (← captureMayEnd)
    match value with
    | .name id => return .capture (some id)
    | _ => return .value value

/-- A pattern without alternatives. -/
def closedPattern : Rule Pattern := do
  match ← literal? grammar with
  | some value => return ofLiteral value
  | none =>
    if ← word? "_" then return .capture none
    else if ← symbol? "(" then roundPattern inner
    else if ← symbol? "[" then squarePattern inner
    else if ← symbol? "\x7b" then curlyPattern grammar inner
    else namePattern inner

/-- A pattern: alternatives, and a name for what they match. -/
def patternRule : Rule Pattern := do
  let first ← closedPattern grammar inner
  let others ← many (symbol "|" *> closedPattern grammar inner)
  let pattern := if others.isEmpty then first else .alternatives (first :: others)
  match ← attempt? (word "as" *> captureName) with
  | some name => return .binding pattern name
  | none => return pattern

/-- A rule for patterns nested up to `depth` levels. -/
def ofDepth (grammar : Grammar) : (depth : Nat) → Rule Pattern
  | 0 => failure
  | depth + 1 => patternRule grammar (ofDepth grammar depth)

/-- The pattern of a case, where a comma makes a sequence without brackets. -/
def casePattern (inner : Rule Pattern) : Rule Pattern := do
  let opensRound ← atSymbol "("
  let first ← starOrPattern inner
  if ← symbol? "," then
    match ← attempt? (commaList (starOrPattern inner)) with
    | some (others, _) => return .sequence opensRound (first :: others)
    | none => return .sequence opensRound [first]
  else
    guard !(isStar first)
    return first

end Grammar.Pattern

end AikenForge.Source
