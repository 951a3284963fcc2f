/-
# Number and string literals

Reading the number literals, and what the escapes of a string literal stand for.
-/

import AikenForge.Number.Decimal
import AikenForge.Source.Token
import AikenForge.Text.CodeTable

namespace AikenForge.Source

open AikenForge.Number AikenForge.Text

/-- Whether `c` can stand in a word as far as the scanner looks: an ASCII letter or digit, the
underscore or any character beyond ASCII. -/
def isWordChar (c : Char) : Bool :=
  c.isAlphanum || c == '_' || 128 ≤ c.toNat

/-- Digits of one kind with single underscores between them, and what follows; refused when an
underscore is not followed by a digit. -/
def digitRun (isDigit : Char → Bool) : List Char → Option (List Char × List Char)
  | [] => some ([], [])
  | '_' :: rest =>
    match rest with
    | d :: _ => if isDigit d then digitRun isDigit rest else none
    | [] => none
  | c :: rest =>
    if isDigit c then (digitRun isDigit rest).map fun (digits, rest) => (c :: digits, rest)
    else some ([], c :: rest)

/-- Whether a number may end before `rest`: before a character of no word, or before one of the
keywords that can follow a number. -/
def numberMayEnd : List Char → Bool
  | 'a' :: 'n' :: 'd' :: _ => true
  | 'e' :: 'l' :: 's' :: 'e' :: _ => true
  | 'f' :: 'o' :: 'r' :: _ => true
  | 'i' :: c :: _ => c == 'f' || c == 'n' || c == 's'
  | 'o' :: 'r' :: _ => true
  | 'n' :: 'o' :: 't' :: _ => true
  | c :: _ => !isWordChar c
  | [] => true

/-- Close a number before `rest` if it may end there. -/
def closeNumber (value : Constant) (rest : List Char) : Option (Constant × List Char) :=
  if numberMayEnd rest then some (value, rest) else none

/-- The value of digits in a base, most significant first. -/
def baseNumber (base : Nat) (digits : List Char) : Nat :=
  digits.foldl (fun n c => n * base + (hexValue? c).getD 0) 0

/-- A number in base sixteen, eight or two after its mark. -/
def readBased (base : Nat) (cs : List Char) : Option (Constant × List Char) := do
  let isDigit := fun c => ((hexValue? c).getD 16) < base
  let (digits, rest) ← digitRun isDigit cs
  match digits, rest with
  | [], _ => none
  | _, c :: _ => if c.isDigit then none else closeNumber (.int (baseNumber base digits)) rest
  | _, [] => some (.int (baseNumber base digits), rest)

/-- The end of a number with a point or an exponent: an optional mark of the imaginary unit. -/
def closeReal (digits : List Char) (exponent : Int) (rest : List Char) :
    Option (Constant × List Char) :=
  let value := Magnitude.ofDecimal (ofDigits digits) exponent
  match rest with
  | 'j' :: rest | 'J' :: rest => closeNumber (.imaginary value) rest
  | _ => closeNumber (.real value) rest

/-- The exponent after its mark: a sign and digits. -/
def readExponent (cs : List Char) : Option (Int × List Char) := do
  let (isNegative, cs) := match cs with
    | '+' :: rest => (false, rest)
    | '-' :: rest => (true, rest)
    | _ => (false, cs)
  let (digits, rest) ← match cs with
    | c :: _ => if c.isDigit then digitRun Char.isDigit cs else none
    | [] => none
  let size := (ofDigits digits : Int)
  some (if isNegative then -size else size, rest)

/-- What follows the digits of a real number: `shift` of them stand after the point. -/
def readScaled (digits : List Char) (shift : Nat) (cs : List Char) :
    Option (Constant × List Char) := do
  match cs with
  | 'e' :: rest | 'E' :: rest =>
    match readExponent rest with
    | some (exponent, rest) => closeReal digits (exponent - shift) rest
    | none => closeReal digits (-shift) cs
  | _ => closeReal digits (-shift) cs

/-- The part of a number after its point. -/
def readFraction (digits : List Char) (cs : List Char) : Option (Constant × List Char) := do
  let (fraction, rest) ← match cs with
    | c :: _ => if c.isDigit then digitRun Char.isDigit cs else some ([], cs)
    | [] => some ([], [])
  readScaled (digits ++ fraction) fraction.length rest

/-- Whether digits start with a zero but are not all zeros. -/
def hasLeadingZero (digits : List Char) : Bool :=
  digits.head? == some '0' && digits.any (· != '0')

/-- Close an integer; zeros may lead only a zero, and the digits keep to the limit. -/
def closeInteger (digits rest : List Char) : Option (Constant × List Char) :=
  if hasLeadingZero digits then none
  else if digitLimit < digits.length then none
  else closeNumber (.int (ofDigits digits)) rest

/-- Close digits before a letter that opens an exponent elsewhere: a zero may lead them here, and
makes the number real. -/
def closeBeforeLetter (digits rest : List Char) : Option (Constant × List Char) :=
  if hasLeadingZero digits then closeReal digits 0 rest else closeInteger digits rest

/-- A number that starts with a decimal digit. -/
def readDecimal (cs : List Char) : Option (Constant × List Char) := do
  let (digits, rest) ← digitRun Char.isDigit cs
  match rest with
  | '.' :: rest => readFraction digits rest
  | 'j' :: _ | 'J' :: _ => closeReal digits 0 rest
  | 'e' :: after | 'E' :: after =>
    if (readExponent after).isSome then readScaled digits 0 rest
    else closeBeforeLetter digits rest
  | _ => closeInteger digits rest

/-- A number literal at the start of a text. -/
def readNumber (cs : List Char) : Option (Constant × List Char) :=
  match cs with
  | '0' :: 'x' :: rest | '0' :: 'X' :: rest => readBased 16 rest
  | '0' :: 'o' :: rest | '0' :: 'O' :: rest => readBased 8 rest
  | '0' :: 'b' :: rest | '0' :: 'B' :: rest => readBased 2 rest
  | '.' :: rest => readFraction [] rest
  | _ => readDecimal cs

/-- Whether `c` is an octal digit. -/
def isOctalDigit (c : Char) : Bool :=
  '0' ≤ c && c ≤ '7'

/-- The code written by exactly `width` hexadecimal digits, and what follows. -/
def hexCode? (width : Nat) (cs : List Char) : Option (Nat × List Char) :=
  let digits := cs.take width
  if digits.length = width && digits.all (fun c => (hexValue? c).isSome) then
    some (hexNumber digits, cs.drop width)
  else none

/-- The code point that a name in braces stands for, and what follows. -/
def namedPoint? (names : CharacterNames) : List Char → Option (Nat × List Char)
  | '\x7b' :: cs =>
    let name := cs.takeWhile (· != '\x7d')
    match cs.dropWhile (· != '\x7d') with
    | [] => none
    | _ :: rest =>
      if name.isEmpty then none else (names (.ofList name)).map fun c => (c.toNat, rest)
  | _ => none

/-- What an escape of one letter stands for. -/
def simpleEscape? : Char → Option Char
  | '\\' => some '\\'
  | '\'' => some '\''
  | '"' => some '"'
  | 'a' => some '\x07'
  | 'b' => some '\x08'
  | 'f' => some '\x0c'
  | 'n' => some '\n'
  | 'r' => some '\r'
  | 't' => some '\t'
  | 'v' => some '\x0b'
  | _ => none

/-- The code points that the text after a backslash stands for, and what follows. `isBytes` leaves
out the escapes of code points. An unknown escape keeps its backslash. -/
def readEscape (names : CharacterNames) (isBytes : Bool) :
    List Char → Option (CodePoints × List Char)
  | [] => some (['\\'.toNat], [])
  | '\n' :: rest => some ([], rest)
  | c :: rest =>
    match simpleEscape? c with
    | some plain => some ([plain.toNat], rest)
    | none =>
      if isOctalDigit c then
        let digits := (c :: rest).take 3 |>.takeWhile isOctalDigit
        let code := baseNumber 8 digits
        some ([if isBytes then code % 256 else code], (c :: rest).drop digits.length)
      else if c == 'x' then
        (hexCode? 2 rest).map fun (code, rest) => ([code], rest)
      else if isBytes then some (['\\'.toNat, c.toNat], rest)
      else if c == 'u' then
        (hexCode? 4 rest).map fun (code, rest) => ([code], rest)
      else if c == 'U' then
        match hexCode? 8 rest with
        | some (code, rest) => if code < 0x110000 then some ([code], rest) else none
        | none => none
      else if c == 'N' then
        (namedPoint? names rest).map fun (point, rest) => ([point], rest)
      else some (['\\'.toNat, c.toNat], rest)

/-- Replace the escapes of a literal; `fuel` bounds their number. -/
def decodeEscapes (names : CharacterNames) (isBytes : Bool) :
    (fuel : Nat) → List Char → Option CodePoints
  | 0, cs => some (cs.map Char.toNat)
  | _ + 1, [] => some []
  | fuel + 1, '\\' :: rest => do
    let (points, rest) ← readEscape names isBytes rest
    let tail ← decodeEscapes names isBytes fuel rest
    some (points ++ tail)
  | fuel + 1, c :: rest => (decodeEscapes names isBytes fuel rest).map (c.toNat :: ·)

/-- The code points that a literal's body stands for. -/
def decodeBody (names : CharacterNames) (isBytes isRaw : Bool) (body : List Char) :
    Option CodePoints :=
  if isRaw then some (body.map Char.toNat) else decodeEscapes names isBytes body.length body

/-- The bytes of a byte literal, whose body is ASCII; no byte has a name. -/
def decodeBytes (literal : StringLiteral) : Option (List UInt8) := do
  if literal.body.all (fun c => c.toNat < 128) then
    let decoded ← decodeBody (fun _ => none) true literal.isRaw literal.body
    some (decoded.map Nat.toUInt8)
  else none

end AikenForge.Source
