/-
# Values shown in messages

How a message shows a text or a byte string so that every character can be told: in quotes, with
escapes for what has no printed form.
-/

import AikenForge.Text.CodePoints
import AikenForge.Text.Letters

namespace AikenForge.Text

/-- The quote around a shown text: single, unless the text holds single quotes and no double
ones. -/
def shownQuote (cs : List Char) : Char :=
  if cs.contains '\'' && !cs.contains '"' then '"' else '\''

/-- How a message shows one character between the quotes `mark`. -/
def showChar (mark c : Char) : List Char :=
  let n := c.toNat
  if c == mark || c == '\\' then ['\\', c]
  else if c == '\n' then ['\\', 'n']
  else if c == '\r' then ['\\', 'r']
  else if c == '\t' then ['\\', 't']
  else if isPrintable c then [c]
  else if n < 0x100 then '\\' :: 'x' :: hexDigits 2 n
  else if n < 0x10000 then '\\' :: 'u' :: hexDigits 4 n
  else '\\' :: 'U' :: hexDigits 8 n

/-- A text as a message shows it. -/
def showText (s : String) : String :=
  let mark := shownQuote s.toList
  .ofList (mark :: s.toList.flatMap (showChar mark) ++ [mark])

/-- How a message shows one code point between the quotes `mark`. -/
def showPoint (mark : Char) (n : Nat) : List Char :=
  if isSurrogate n then unitEscape n else showChar mark (Char.ofNat n)

/-- Code points of a text as a message shows them. -/
def showPoints (points : CodePoints) : String :=
  let mark := shownQuote points.text.toList
  .ofList (mark :: points.flatMap (showPoint mark) ++ [mark])

/-- How a message shows one byte between the quotes `mark`. -/
def showByte (mark : Char) (b : UInt8) : List Char :=
  if b.toNat < 128 then showChar mark (Char.ofNat b.toNat) else '\\' :: 'x' :: hexDigits 2 b.toNat

/-- A byte string as a message shows it. -/
def showBytes (bytes : List UInt8) : String :=
  let mark := shownQuote (bytes.map fun b => Char.ofNat b.toNat)
  .ofList ('b' :: mark :: bytes.flatMap (showByte mark) ++ [mark])

end AikenForge.Text
