/-
# Code points

A text as the list of its code points. Unlike a string it may hold half of a surrogate pair, which
only an escape in source text can write. Target text is a string: wherever it would hold such a
half, in quotes or not, it has the escape of that half instead.
-/

import AikenForge.Text.Quoted

namespace AikenForge

open AikenForge.Text

/-- The characters that an escape may name. Which name stands for which character is data of a
standard, so it is given from outside. -/
abbrev CharacterNames := String → Option Char

/-- Code points of a text. -/
abbrev CodePoints := List Nat

/-- The code points of a string. -/
def codePoints (s : String) : CodePoints :=
  s.toList.map Char.toNat

/-- Whether a code point is half of a surrogate pair. -/
def isSurrogate (n : Nat) : Bool :=
  0xD800 ≤ n && n < 0xE000

/-- How a code point is written inside the quotes. -/
def writtenPoint (alphabet : Alphabet) (n : Nat) : List Char :=
  if isSurrogate n then unitEscape n else escapeChar alphabet (Char.ofNat n)

/-- The text of code points between quotes. -/
def quotePoints (alphabet : Alphabet) (points : CodePoints) : String :=
  .ofList ('"' :: points.flatMap (writtenPoint alphabet) ++ ['"'])

namespace CodePoints

/-- A text as a string, in which half of a surrogate pair is its escape. -/
def text (points : CodePoints) : String :=
  .ofList (points.flatMap fun n => if isSurrogate n then unitEscape n else [Char.ofNat n])

/-- The string that a text is, unless it holds half of a surrogate pair. -/
def string? (points : CodePoints) : Option String :=
  if codePoints points.text = points then some points.text else none

/-- The first run of halves of surrogate pairs in a text, and its position. -/
def surrogateRun (points : CodePoints) : Nat × CodePoints :=
  let before := points.takeWhile fun n => !isSurrogate n
  (before.length, (points.drop before.length).takeWhile isSurrogate)

end CodePoints

/-! ## The code points of a string -/

/-- Surrogates are the points of one range. -/
theorem isSurrogate_iff {n : Nat} : isSurrogate n = true ↔ 0xD800 ≤ n ∧ n < 0xE000 := by
  simp [isSurrogate]

/-- A code point that is no surrogate is that of a character. -/
theorem toNat_ofNat_of_not_isSurrogate {n : Nat} (hbound : n < 0x110000)
    (h : isSurrogate n = false) : (Char.ofNat n).toNat = n := by
  rw [Bool.eq_false_iff, ne_eq, isSurrogate_iff] at h
  have hvalid : n.isValidChar := by
    unfold Nat.isValidChar
    omega
  rw [Char.ofNat, dif_pos hvalid]
  rfl

/-- A character is no surrogate. -/
theorem isSurrogate_toNat (c : Char) : isSurrogate c.toNat = false := by
  have hvalid : c.toNat < 0xD800 ∨ 0xDFFF < c.toNat ∧ c.toNat < 0x110000 := c.valid
  simp only [isSurrogate, Bool.and_eq_false_iff, decide_eq_false_iff_not]
  omega

/-- A string is the text of its code points. -/
@[simp]
theorem text_codePoints (s : String) : (codePoints s).text = s := by
  rw [CodePoints.text, codePoints, List.flatMap_map]
  simp only [isSurrogate_toNat, if_neg Bool.false_ne_true, Char.ofNat_toNat]
  rw [List.flatMap_singleton', String.ofList_toList]

/-- A text is a string exactly if it is the code points of that string. -/
theorem CodePoints.string?_eq_some_iff {points : CodePoints} {s : String} :
    points.string? = some s ↔ points = codePoints s := by
  unfold string?
  constructor
  · intro h
    split at h
    · rename_i hpoints
      cases h
      exact hpoints.symm
    · cases h
  · rintro rfl
    rw [text_codePoints, if_pos rfl]

/-- The code points of a text make that text. -/
@[simp]
theorem string?_codePoints (s : String) : (codePoints s).string? = some s :=
  CodePoints.string?_eq_some_iff.mpr rfl

/-- The point of a character is written as the character. -/
theorem writtenPoint_toNat (alphabet : Alphabet) (c : Char) :
    writtenPoint alphabet c.toNat = escapeChar alphabet c := by
  rw [writtenPoint, isSurrogate_toNat, if_neg Bool.false_ne_true, Char.ofNat_toNat]

/-- Quotes around the code points of a string are quotes around the string. -/
@[simp]
theorem quotePoints_codePoints (alphabet : Alphabet) (s : String) :
    quotePoints alphabet (codePoints s) = quote alphabet s := by
  rw [quotePoints, quote, quoteChars, codePoints, List.flatMap_map]
  simp only [writtenPoint_toNat]

end AikenForge
