/-
# Reading tokens by rules

A rule consumes tokens from the front of a list and may fail; a failed alternative leaves the tokens
where they were. Repetition is bounded by the number of tokens at hand, so every rule ends.
-/

import AikenForge.Source.Token
import AikenForge.Text.Compatibility

namespace AikenForge.Source

/-- A rule of the grammar. -/
abbrev Rule := StateT (List Token) Option

namespace Rule

/-- The next lexeme, left in place. -/
def peek? : Rule (Option Lexeme) := do
  return (← get).head?.map Token.lexeme

/-- The line of the next token. -/
def line : Rule Nat := do
  return ((← get).head?.map Token.line).getD 0

/-- Take the next token. -/
def take : Rule Token := do
  match ← get with
  | token :: rest => set rest; return token
  | [] => failure

/-- Whether the next token is a given symbol. -/
def atSymbol (text : String) : Rule Bool := do
  match ← peek? with
  | some (.symbol found) => return found == text
  | _ => return false

/-- Whether the next token is a given word. -/
def atWord (text : String) : Rule Bool := do
  match ← peek? with
  | some (.word found) => return found == text
  | _ => return false

/-- Take a given symbol. -/
def symbol (text : String) : Rule Unit := do
  guard (← atSymbol text)
  discard take

/-- Take a given word. -/
def word (text : String) : Rule Unit := do
  guard (← atWord text)
  discard take

/-- Take a given symbol if it comes next, and tell whether it did. -/
def symbol? (text : String) : Rule Bool := do
  if ← atSymbol text then
    discard take
    return true
  else return false

/-- Take a given word if it comes next, and tell whether it did. -/
def word? (text : String) : Rule Bool := do
  if ← atWord text then
    discard take
    return true
  else return false

/-- Take a layout mark that satisfies `p`. -/
def layout (p : Lexeme → Bool) : Rule Unit := do
  let token ← take
  guard (p token.lexeme)

/-- Take the end of a line. -/
def newline : Rule Unit :=
  layout fun | .newline => true | _ => false

/-- Take a name in its compatibility form. -/
def name : Rule String := do
  match (← take).lexeme with
  | .word text =>
    guard !(reservedWords.contains text)
    return .ofList (Text.compatibilityForm text.toList)
  | _ => failure

/-- The result of a rule, or nothing if it fails. -/
def attempt? (rule : Rule α) : Rule (Option α) :=
  (some <$> rule) <|> pure none

/-- Repeat a rule until it fails, at most once for each token of `bound`. -/
def manyWithin (rule : Rule α) : (bound : List Token) → Rule (List α)
  | [] => pure []
  | _ :: bound => do
    match ← attempt? rule with
    | some first => return first :: (← manyWithin rule bound)
    | none => return []

/-- Repeat a rule until it fails. -/
def many (rule : Rule α) : Rule (List α) := do
  manyWithin rule (← get)

/-- Repeat a rule at least once. -/
def many1 (rule : Rule α) : Rule (List α) := do
  return (← rule) :: (← many rule)

/-- Items separated by commas, at least one, and whether a comma follows the last. -/
def commaList (rule : Rule α) : Rule (List α × Bool) := do
  let first ← rule
  let others ← many (symbol "," *> rule)
  return (first :: others, ← symbol? ",")

/-- A value that a test accepts. -/
def ensure (test : α → Bool) (value : α) : Rule α := do
  guard (test value)
  return value

end Rule

end AikenForge.Source
