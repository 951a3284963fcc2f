/-
# Reading source text

A whole module is a list of statements; an expression by itself may be a tuple without brackets but
starts without a blank. Text with a NUL is refused before anything else.
-/

import AikenForge.Source.Grammar.Statement

namespace AikenForge.Source

/-- Why source text cannot be read. -/
inductive ReadError
  | nul
  | malformed (line : Nat)
  deriving DecidableEq

/-- The statements of a token list, one after the other; a failure reports the line at which a
statement cannot be read. -/
def readStatements (statement : Rule (List Stmt)) :
    (fuel : Nat) → List Token → Except Nat (List Stmt)
  | _, [] => pure []
  | 0, token :: _ => throw token.line
  | fuel + 1, token :: rest =>
    match statement (token :: rest) with
    | none => throw token.line
    | some (statements, rest) => do
      let later ← readStatements statement fuel rest
      pure (statements ++ later)

/-- Characters of a text with unified line breaks, or the refusal of a NUL. -/
def sourceChars (text : String) : Except ReadError (List Char) :=
  let cs := text.toList
  if cs.contains '\x00' then throw .nul else pure (unifyBreaks cs)

/-- Read a module, given the names of characters. Its last line ends with a line feed even if none
is written. -/
def readModule (names : CharacterNames) (text : String) : Except ReadError (List Stmt) := do
  let cs ← sourceChars text
  let closed := if cs.getLast? == some '\n' then cs else cs ++ ['\n']
  (do
    let tokens ← tokenize closed
    let depth := closed.length + 1
    let grammar := Grammar.ofDepth names depth
    let statement := Grammar.Statement.ofDepth grammar (Grammar.Pattern.ofDepth grammar depth) depth
    readStatements statement tokens.length tokens).mapError .malformed

/-- Read an expression by itself, given the names of characters. -/
def readExpression (names : CharacterNames) (text : String) : Except ReadError Expr := do
  let cs ← sourceChars text
  let tokens ← (tokenize cs).mapError .malformed
  let grammar := Grammar.ofDepth names (cs.length + 1)
  match grammar.expressions tokens with
  | some (value, rest) =>
    if rest.all fun token => match token.lexeme with | .newline => true | _ => false then pure value
    else throw (.malformed 1)
  | none => throw (.malformed 1)

end AikenForge.Source
