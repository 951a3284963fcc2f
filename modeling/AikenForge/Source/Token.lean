/-
# Tokens

The words, literals, symbols and layout marks that source text is made of.
-/

import AikenForge.Source.Tree

namespace AikenForge.Source

/-- A string literal as it is written, between its quotes. -/
structure StringLiteral where
  isMarked : Bool
  isBytes : Bool
  isRaw : Bool
  isFormatted : Bool
  body : List Char

/-- The marks before a string literal, without regard to case. -/
def literalMarks : List String :=
  ["b", "u", "r", "f", "br", "rb", "fr", "rf"]

/-- Whether a word marks the string literal after it. -/
def isLiteralMark (word : List Char) : Bool :=
  literalMarks.contains (.ofList (word.map Char.toLower))

/-- What a token is. -/
inductive Lexeme
  | word (text : String)
  | number (value : Constant)
  | string (literal : StringLiteral)
  | symbol (text : String)
  | newline
  | indent
  | dedent

/-- A token with the lines on which it starts and ends. -/
structure Token where
  lexeme : Lexeme
  line : Nat
  endLine : Nat

/-- Whether a token only lays out lines. -/
def Token.isLayout (token : Token) : Bool :=
  match token.lexeme with
  | .newline | .indent | .dedent => true
  | _ => false

/-- Words that cannot be names. -/
def reservedWords : List String :=
  ["False", "None", "True", "and", "as", "assert", "async", "await", "break", "class", "continue",
   "def", "del", "elif", "else", "except", "finally", "for", "from", "global", "if", "import", "in",
   "is", "lambda", "nonlocal", "not", "or", "pass", "raise", "return", "try", "while", "with",
   "yield"]

/-- Symbols of three, two and one characters. -/
def symbolTexts : List (List Char) :=
  ["**=", "//=", ">>=", "<<=", "...", "!=", "%=", "&=", "**", "*=", "+=", "-=", "->", "//", "/=",
   ":=", "<<", "<=", "<>", "==", ">=", ">>", "@=", "^=", "|=", "%", "&", "(", ")", "*", "+", ",",
   "-", ".", "/", ":", ";", "<", "=", ">", "@", "[", "]", "^", "\x7b", "|", "\x7d", "~"].map
    String.toList

end AikenForge.Source
