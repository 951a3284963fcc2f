/-
# UTF-8

Bytes as characters. Decoding goes byte by byte; a fault is reported for the bytes of the sequence
that were good so far, or for all bytes up to the end where the end cuts a sequence short.
-/

import AikenForge.Text.Quoted

namespace AikenForge.Text

/-- What is wrong with bytes that are not UTF-8. -/
inductive Utf8Fault
  | start | continuation | cutShort
  deriving DecidableEq

/-- A fault, the position of its first byte, that byte, and the number of bytes it covers. -/
structure Utf8Error where
  fault : Utf8Fault
  position : Nat
  byte : UInt8
  count : Nat

/-- The reason given for a fault. -/
def Utf8Fault.reason : Utf8Fault → String
  | .start => "invalid start byte"
  | .continuation => "invalid continuation byte"
  | .cutShort => "unexpected end of data"

/-- What is said about bytes that are not UTF-8. -/
def Utf8Error.message (e : Utf8Error) : String :=
  let place :=
    if e.count == 1 then
      "byte 0x" ++ String.ofList (hexDigits 2 e.byte.toNat) ++ " in position " ++
        toString e.position
    else
      "bytes in position " ++ toString e.position ++ "-" ++ toString (e.position + e.count - 1)
  "'utf-8' codec can't decode " ++ place ++ ": " ++ e.fault.reason

/-- A sequence that is not complete: its first byte, the number of bytes so far and to come, and the
value so far. -/
structure Utf8Sequence where
  first : UInt8
  seen : Nat
  missing : Nat
  value : Nat

/-- The sequence that a byte beyond ASCII opens. -/
def Utf8Sequence.ofFirst? (b : UInt8) : Option Utf8Sequence :=
  let n := b.toNat
  if n < 0xC2 then none
  else if n < 0xE0 then some ⟨b, 1, 1, n - 0xC0⟩
  else if n < 0xF0 then some ⟨b, 1, 2, n - 0xE0⟩
  else if n < 0xF5 then some ⟨b, 1, 3, n - 0xF0⟩
  else none

/-- Whether a byte may continue a sequence. The byte after the first excludes values that a shorter
sequence writes, surrogates, and values beyond the last code point. -/
def Utf8Sequence.accepts (s : Utf8Sequence) (b : UInt8) : Bool :=
  let n := b.toNat
  let first := s.first.toNat
  0x80 ≤ n && n < 0xC0 &&
    (s.seen != 1 ||
      !((first == 0xE0 && n < 0xA0) || (first == 0xED && 0xA0 ≤ n) ||
        (first == 0xF0 && n < 0x90) || (first == 0xF4 && 0x90 ≤ n)))

/-- Decode bytes from a position, in the middle of a sequence or between two. -/
def decodeUtf8From (position : Nat) (pending : Option Utf8Sequence) :
    List UInt8 → Except Utf8Error (List Char)
  | [] =>
    match pending with
    | none => .ok []
    | some s => .error ⟨.cutShort, position - s.seen, s.first, s.seen⟩
  | b :: rest =>
    match pending with
    | none =>
      if b.toNat < 0x80 then do
        return Char.ofNat b.toNat :: (← decodeUtf8From (position + 1) none rest)
      else
        match Utf8Sequence.ofFirst? b with
        | none => .error ⟨.start, position, b, 1⟩
        | some s => decodeUtf8From (position + 1) (some s) rest
    | some s =>
      if s.accepts b then
        let value := s.value * 64 + (b.toNat - 0x80)
        if s.missing ≤ 1 then do
          return Char.ofNat value :: (← decodeUtf8From (position + 1) none rest)
        else
          decodeUtf8From (position + 1)
            (some { s with seen := s.seen + 1, missing := s.missing - 1, value }) rest
      else .error ⟨.continuation, position - s.seen, s.first, s.seen⟩

/-- The text that bytes write. -/
def decodeUtf8 (bytes : List UInt8) : Except Utf8Error String :=
  (decodeUtf8From 0 none bytes).map String.ofList

/-- The bytes that write a text. -/
def encodeUtf8 (text : String) : List UInt8 :=
  text.toList.flatMap String.utf8EncodeChar

/-- A text in which every line break is a line feed. -/
def unifyLineEnds : List Char → List Char
  | [] => []
  | '\r' :: '\n' :: rest => '\n' :: unifyLineEnds rest
  | '\r' :: rest => '\n' :: unifyLineEnds rest
  | c :: rest => c :: unifyLineEnds rest

/-- The text that a file of these bytes holds. -/
def readText (bytes : List UInt8) : Except Utf8Error String :=
  (decodeUtf8 bytes).map fun text => .ofList (unifyLineEnds text.toList)

end AikenForge.Text
