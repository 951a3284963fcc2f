/-
# Reading JSON

Reading goes from left to right and keeps the position, which a fault reports with its line and
column. Numbers beyond JSON are read too: not-a-number and the infinities. Of members with one key
the last value counts, in the place of the first.
-/

import AikenForge.Json.Value
import AikenForge.Number.Decimal
import AikenForge.Text.CodeTable

namespace AikenForge.JsonReader

open AikenForge.Number AikenForge.Text

/-- Why a text is not JSON. -/
inductive Fault
  | mark
  | value
  | property
  | colon
  | comma
  | extra
  | openText
  | control
  | escape
  | unicodeEscape
  | digits (count : Nat)
  deriving DecidableEq

/-- A fault and the position it is reported at. -/
structure Error where
  fault : Fault
  position : Nat

/-- What a fault says. -/
def Fault.label : Fault → String
  | .mark => "Unexpected UTF-8 BOM (decode using utf-8-sig)"
  | .value => "Expecting value"
  | .property => "Expecting property name enclosed in double quotes"
  | .colon => "Expecting ':' delimiter"
  | .comma => "Expecting ',' delimiter"
  | .extra => "Extra data"
  | .openText => "Unterminated string starting at"
  | .control => "Invalid control character at"
  | .escape => "Invalid \\escape"
  | .unicodeEscape => "Invalid \\uXXXX escape"
  | .digits count =>
    "Exceeds the limit (4300 digits) for integer string conversion: value has " ++
      toString count ++ " digits; use sys.set_int_max_str_digits() to increase the limit"

/-- What an error says about a text: the fault and its place, except that a number of too many
digits has no place. -/
def Error.message (text : List Char) (e : Error) : String :=
  match e.fault with
  | .digits _ => e.fault.label
  | _ =>
    let before := text.take e.position
    let line := before.count '\n' + 1
    let column := (before.reverse.takeWhile (· != '\n')).length + 1
    e.fault.label ++ ": line " ++ toString line ++ " column " ++ toString column ++ " (char " ++
      toString e.position ++ ")"

/-- Where reading stands: the position and the text from there. -/
structure Cursor where
  position : Nat
  rest : List Char

/-- Move a cursor over characters. -/
def Cursor.skip (count : Nat) (c : Cursor) : Cursor :=
  ⟨c.position + count, c.rest.drop count⟩

/-- Whether a character separates tokens. -/
def isSpace (c : Char) : Bool :=
  c == ' ' || c == '\t' || c == '\n' || c == '\r'

/-- Move a cursor over blanks. -/
def Cursor.skipSpace (c : Cursor) : Cursor :=
  c.skip (c.rest.takeWhile isSpace).length

/-- A reader from a cursor. -/
abbrev Reader (α : Type) := Cursor → Except Error (α × Cursor)

/-- Fail at a cursor. -/
def failAt (fault : Fault) (c : Cursor) : Except Error α :=
  .error ⟨fault, c.position⟩

/-- Words that are values. -/
def wordValues : List (String × JsonValue) :=
  [("null", .null), ("true", .bool true), ("false", .bool false), ("NaN", .real .nan),
   ("Infinity", .real (.number false .infinite)), ("-Infinity", .real (.number true .infinite))]

/-- The value of the word at a cursor. -/
def word? (c : Cursor) : Option (JsonValue × Cursor) :=
  wordValues.findSome? fun (text, value) =>
    if text.toList.isPrefixOf c.rest then some (value, c.skip text.length) else none

/-- The digits at the start of a text. -/
def digitsOf (cs : List Char) : List Char :=
  cs.takeWhile Char.isDigit

/-- The digits of an integer part: a zero alone, or digits that do not start with one. -/
def integerDigits : List Char → List Char
  | '0' :: _ => ['0']
  | cs => digitsOf cs

/-- The digits of a fraction after its point, if there are any. -/
def fractionDigits : List Char → List Char
  | '.' :: rest => digitsOf rest
  | _ => []

/-- An exponent with the number of characters it takes, if there is one. -/
def exponent? : List Char → Option (Int × Nat)
  | mark :: rest =>
    if mark == 'e' || mark == 'E' then
      let (sign, unsigned) : List Char × List Char := match rest with
        | '+' :: tail => (['+'], tail)
        | '-' :: tail => (['-'], tail)
        | tail => ([], tail)
      match digitsOf unsigned with
      | [] => none
      | digits =>
        let size : Int := ofDigits digits
        some (if sign == ['-'] then -size else size, 1 + sign.length + digits.length)
    else none
  | [] => none

/-- The number at a cursor. -/
def number : Reader JsonValue := fun c => do
  let isNegative := c.rest.head? == some '-'
  let start := if isNegative then c.skip 1 else c
  let whole := integerDigits start.rest
  if whole.isEmpty then failAt .value c
  else
    let afterWhole := start.skip whole.length
    let fraction := fractionDigits afterWhole.rest
    let afterFraction :=
      if fraction.isEmpty then afterWhole else afterWhole.skip (fraction.length + 1)
    match exponent? afterFraction.rest with
    | some (exponent, size) =>
      let magnitude := Magnitude.ofDecimal (ofDigits (whole ++ fraction))
        (exponent - fraction.length)
      return (.real (.number isNegative magnitude), afterFraction.skip size)
    | none =>
      if fraction.isEmpty then
        if digitLimit < whole.length then failAt (.digits whole.length) c
        else
          let n : Int := ofDigits whole
          return (.int (if isNegative then -n else n), afterWhole)
      else
        let magnitude := Magnitude.ofDecimal (ofDigits (whole ++ fraction)) (-fraction.length)
        return (.real (.number isNegative magnitude), afterFraction)

/-- The code point of an escape letter. -/
def escapeLetter? (c : Char) : Option Nat :=
  [('"', 34), ('\\', 92), ('/', 47), ('b', 8), ('f', 12), ('n', 10), ('r', 13), ('t', 9)].lookup c

/-- The value of four hexadecimal digits. -/
def hexUnit? (cs : List Char) : Option Nat :=
  if cs.length == 4 then
    (cs.mapM hexValue?).map fun digits => digits.foldl (fun n d => n * 16 + d) 0
  else none

/-- Whether a unit opens a surrogate pair. -/
def isHighSurrogate (n : Nat) : Bool :=
  0xD800 ≤ n && n < 0xDC00

/-- Whether a unit closes a surrogate pair. -/
def isLowSurrogate (n : Nat) : Bool :=
  0xDC00 ≤ n && n < 0xE000

/-- The code point of a surrogate pair. -/
def joinSurrogates (high low : Nat) : Nat :=
  0x10000 + (high - 0xD800) * 0x400 + (low - 0xDC00)

/-- The unit after an escape's letter `u`, at which the cursor stands. More text must follow it. -/
def unit : Reader Nat := fun c =>
  let digits := (c.rest.drop 1).take 4
  if c.rest.length ≤ 5 then failAt .unicodeEscape c
  else
    match hexUnit? digits with
    | some n => .ok (n, c.skip 5)
    | none => failAt .unicodeEscape c

/-- The code point of a unit escape, with the second half of a pair if it follows. -/
def unitPoint : Reader Nat := fun c => do
  let (high, after) ← unit c
  match after.rest with
  | '\\' :: 'u' :: _ =>
    if isHighSurrogate high && 6 < after.rest.length then
      let (low, afterLow) ← unit (after.skip 1)
      if isLowSurrogate low then return (joinSurrogates high low, afterLow)
      else return (high, after)
    else return (high, after)
  | _ => return (high, after)

/-- The code point of an escape, after its backslash. -/
def escapePoint (opening : Nat) : Reader Nat := fun c =>
  match c.rest with
  | [] => .error ⟨.openText, opening⟩
  | 'u' :: _ => unitPoint c
  | letter :: _ =>
    match escapeLetter? letter with
    | some n => .ok (n, c.skip 1)
    | none => .error ⟨.escape, c.position - 1⟩

/-- The code points of a text up to its closing quote; `opening` is the position of the first. -/
def textPoints (opening : Nat) : (fuel : Nat) → Reader CodePoints
  | 0, _ => .error ⟨.openText, opening⟩
  | fuel + 1, c =>
    match c.rest with
    | [] => .error ⟨.openText, opening⟩
    | '"' :: _ => .ok ([], c.skip 1)
    | '\\' :: _ => do
      let (point, after) ← escapePoint opening (c.skip 1)
      let (points, last) ← textPoints opening fuel after
      return (point :: points, last)
    | letter :: _ =>
      if letter.toNat < 32 then failAt .control c
      else do
        let (points, last) ← textPoints opening fuel (c.skip 1)
        return (letter.toNat :: points, last)

/-- The text that opens at a cursor. -/
def text : Reader CodePoints := fun c =>
  textPoints c.position (c.rest.length + 1) (c.skip 1)

mutual

/-- The value at a cursor. -/
def value : (fuel : Nat) → Reader JsonValue
  | 0, c => failAt .value c
  | fuel + 1, c =>
    match c.rest with
    | '"' :: _ => do
      let (points, after) ← text c
      return (.text points, after)
    | '\x7b' :: _ => do
      let inside := (c.skip 1).skipSpace
      if inside.rest.head? == some '\x7d' then return (.object [], inside.skip 1)
      else
        let (found, after) ← members fuel [] inside
        return (.object found, after)
    | '[' :: _ => do
      let inside := (c.skip 1).skipSpace
      if inside.rest.head? == some ']' then return (.list [], inside.skip 1)
      else
        let (found, after) ← items fuel inside
        return (.list found, after)
    | _ =>
      match word? c with
      | some result => .ok result
      | none => number c

/-- The members of an object from the next key on, and its closing brace. -/
def members : (fuel : Nat) → List JsonMember → Reader (List JsonMember)
  | 0, _, c => failAt .property c
  | fuel + 1, found, c => do
    if c.rest.head? != some '"' then failAt .property c
    else
      let (key, after) ← text c
      let colon := after.skipSpace
      if colon.rest.head? != some ':' then failAt .colon colon
      else
        let (member, after) ← value fuel (colon.skip 1).skipSpace
        let found := JsonMember.insert key member found
        let next := after.skipSpace
        match next.rest with
        | '\x7d' :: _ => return (found, next.skip 1)
        | ',' :: _ => members fuel found (next.skip 1).skipSpace
        | _ => failAt .comma next

/-- The items of a list from the next on, and its closing bracket. -/
def items : (fuel : Nat) → Reader (List JsonValue)
  | 0, c => failAt .value c
  | fuel + 1, c => do
    let (item, after) ← value fuel c
    let next := after.skipSpace
    match next.rest with
    | ']' :: _ => return ([item], next.skip 1)
    | ',' :: _ =>
      let (others, last) ← items fuel (next.skip 1).skipSpace
      return (item :: others, last)
    | _ => failAt .comma next

end

/-- The value that a whole text writes. -/
def read (text : List Char) : Except Error JsonValue := do
  let start : Cursor := ⟨0, text⟩
  if text.head? == some '\uFEFF' then failAt .mark start
  else
    let (result, after) ← value (2 * text.length + 2) start.skipSpace
    let last := after.skipSpace
    if last.rest.isEmpty then return result else failAt .extra last

end AikenForge.JsonReader
