/-
# Quoted strings

A string between double quotes, with a backslash before what may not stand there: the notation
shared by JSON and by the string literals of generated code. An encoding either keeps characters
beyond ASCII or escapes them, the astral ones as a pair of surrogates.
-/

namespace AikenForge.Text

/-- Which characters an encoding may leave as they are. -/
inductive Alphabet
  | ascii
  | unicode
  deriving DecidableEq

/-- The hexadecimal digit of a number below sixteen. -/
def hexDigit (n : Nat) : Char :=
  if n < 10 then Char.ofNat (48 + n) else Char.ofNat (87 + n)

/-- The last `width` hexadecimal digits of a number. -/
def hexDigits : (width n : Nat) → List Char
  | 0, _ => []
  | width + 1, n => hexDigits width (n / 16) ++ [hexDigit (n % 16)]

/-- An escape for one sixteen-bit unit. -/
def unitEscape (n : Nat) : List Char :=
  '\\' :: 'u' :: hexDigits 4 n

/-- The escape for a code point: one unit, or two surrogates for an astral one. -/
def codeEscape (n : Nat) : List Char :=
  if n < 0x10000 then unitEscape n
  else unitEscape (0xD800 + (n - 0x10000) / 0x400) ++ unitEscape (0xDC00 + (n - 0x10000) % 0x400)

/-- How a character is written inside the quotes. -/
def escapeChar (alphabet : Alphabet) (c : Char) : List Char :=
  if c == '"' then ['\\', '"']
  else if c == '\\' then ['\\', '\\']
  else if c == '\n' then ['\\', 'n']
  else if c == '\r' then ['\\', 'r']
  else if c == '\t' then ['\\', 't']
  else if c == '\x08' then ['\\', 'b']
  else if c == '\x0c' then ['\\', 'f']
  else if c.toNat < 32 then unitEscape c.toNat
  else if alphabet = .ascii ∧ 127 ≤ c.toNat then codeEscape c.toNat
  else [c]

/-- The characters of a quoted string. -/
def quoteChars (alphabet : Alphabet) (cs : List Char) : List Char :=
  '"' :: cs.flatMap (escapeChar alphabet) ++ ['"']

/-- A string between quotes. -/
def quote (alphabet : Alphabet) (s : String) : String :=
  .ofList (quoteChars alphabet s.toList)

end AikenForge.Text
