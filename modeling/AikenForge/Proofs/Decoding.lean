/-
# Literals decode to what was written

The text of a constant can be read again: a text and an integer as JSON, in which characters beyond
the basic plane are pairs of surrogates, bytes as pairs of hexadecimal digits between their marks.
What is read is the constant, so constants with the same text are the same. This holds of constants
in expressions, of the arguments of literal annotations and of the messages of expectations; the
texts of the latter two are ASCII.
-/

import AikenForge.Lowering.Hint
import AikenForge.Proofs.Blueprint.Entries
import AikenForge.Proofs.Json.Bytes
import AikenForge.Proofs.Grouping

namespace AikenForge

open AikenForge.Source AikenForge.Number AikenForge.Text

/-! ## Reading literals -/

namespace JsonReader

/-- A quoted string is JSON for its code points, whichever characters stand there as they are. -/
theorem read_quote (alphabet : Alphabet) (s : String) :
    read (quote alphabet s).toList = .ok (.text (codePoints s)) := by
  obtain ⟨q, hq⟩ := text_quoteChars alphabet s.toList [] 0
  rw [List.append_nil] at hq
  have hopen : quoteChars alphabet s.toList =
      '"' :: (s.toList.flatMap (escapeChar alphabet) ++ ['"']) := List.cons_append ..
  rw [quote, String.toList_ofList, read]
  rw [hopen] at hq ⊢
  rw [skipSpace_of_not_isSpace 0 rfl, value]
  dsimp only
  rw [hq]
  rfl

/-- A number below a power of ten has no more digits than that. -/
theorem length_toDigits_le {n limit : Nat} (hlimit : 0 < limit) (h : n < powerOfTen limit) :
    (Nat.toDigits 10 n).length ≤ limit :=
  (Nat.length_toDigits_le_iff (by omega) hlimit).mpr h

/-- The decimal text of an integer is JSON for it. -/
theorem read_int {n : Int} (h : n.natAbs < digitBound) : read (toString n).toList = .ok (.int n) :=
  read_render (v := .int n) (length_toDigits_le (by decide) h)

/-- No JSON starts with the mark of bytes. -/
theorem exists_read_mark (rest : List Char) : ∃ error, read ('#' :: rest) = .error error := by
  have hvalue : value (2 * ('#' :: rest).length + 2) ⟨0, '#' :: rest⟩ = .error ⟨.value, 0⟩ := rfl
  refine ⟨⟨.value, 0⟩, ?_⟩
  rw [read, skipSpace_of_not_isSpace 0 rfl, hvalue]
  rfl

end JsonReader

/-- The bytes between the marks of a literal for bytes. -/
def bytesIn? : List Char → Option (List UInt8)
  | '#' :: '"' :: rest =>
    if rest.getLast? == some '"' then Readback.bytesOfHex? rest.dropLast else none
  | _ => none

/-- Bytes written in hexadecimal are read back. -/
theorem bytesIn?_hexText (content : List UInt8) :
    bytesIn? ("#\"" ++ hexText content ++ "\"").toList = some content := by
  have htext : ("#\"" ++ hexText content ++ "\"").toList =
      '#' :: '"' :: ((content.flatMap fun b => hexDigits 2 b.toNat) ++ ['"']) := by
    simp [hexText]
  rw [htext, bytesIn?, List.getLast?_concat, beq_self_eq_true, if_pos rfl, List.dropLast_concat]
  exact Readback.bytesOfHex?_flatMap content

/-- What bytes are read from starts with their mark. -/
theorem exists_of_bytesIn? {cs : List Char} {content : List UInt8}
    (h : bytesIn? cs = some content) :
    ∃ rest, cs = '#' :: rest := by
  unfold bytesIn? at h
  split at h
  · exact ⟨_, rfl⟩
  · cases h

/-! ## What a text says -/

/-- A text, read as a literal of a constant's kind, is that constant. -/
def Decodes (text : String) : Constant → Prop
  | .text points _ => JsonReader.read text.toList = .ok (.text points)
  | .bytes content => bytesIn? text.toList = some content
  | .int n => JsonReader.read text.toList = .ok (.int n)
  | .bool value => text = if value then "True" else "False"
  | _ => False

/-- A constant without the mark of a text, which is no part of what the text says. -/
def unmarked : Constant → Constant
  | .text points _ => .text points false
  | value => value

/-- The constant that a text says. -/
def constantOf? (text : String) : Option Constant :=
  match JsonReader.read text.toList with
  | .ok (.text points) => some (.text points false)
  | .ok (.int n) => some (.int n.toNat)
  | _ =>
    if text = "True" then some (.bool true)
    else if text = "False" then some (.bool false)
    else (bytesIn? text.toList).map .bytes

/-- A text that decodes is read as its constant. -/
theorem Decodes.constantOf?_eq {text : String} {value : Constant} (h : Decodes text value) :
    constantOf? text = some (unmarked value) := by
  unfold constantOf?
  cases value with
  | text points marked =>
      rw [show JsonReader.read text.toList = _ from h]
      rfl
  | int n =>
      rw [show JsonReader.read text.toList = _ from h]
      rfl
  | bool value =>
      have htext : text = if value then "True" else "False" := h
      cases value <;> subst htext <;> rfl
  | bytes content =>
      obtain ⟨rest, hmark⟩ := exists_of_bytesIn? h
      obtain ⟨error, herror⟩ := JsonReader.exists_read_mark rest
      have hne (word : String) (hword : word.toList.head? ≠ some '#') : text ≠ word := by
        rintro rfl
        exact hword (by rw [hmark]; rfl)
      have hbytes : bytesIn? text.toList = some content := h
      rw [hbytes, hmark, herror]
      dsimp only
      rw [if_neg (hne "True" (by decide)), if_neg (hne "False" (by decide))]
      rfl
  | none | ellipsis | real | imaginary => exact h.elim

/-- A text says one constant only. -/
theorem Decodes.unique {text : String} {value other : Constant} (h : Decodes text value)
    (hother : Decodes text other) : unmarked value = unmarked other :=
  Option.some.inj (h.constantOf?_eq.symm.trans hother.constantOf?_eq)

/-! ## Texts of constants -/

/-- Constants of the kinds whose texts can be read: bytes, integers, truth values and texts that are
strings. -/
def isLegible : Constant → Bool
  | .text points _ => points.string?.isSome
  | .bytes _ | .int _ | .bool _ => true
  | _ => false

/-- The digits of a number within the limit are read back. -/
theorem decodes_digits {n : Nat} (h : n < digitBound) :
    Decodes (.ofList (Nat.toDigits 10 n)) (.int n) := by
  have hread := JsonReader.read_int (n := n) h
  rw [JsonReader.toList_toString_int] at hread
  rw [Decodes, String.toList_ofList]
  exact hread

/-- So are those of a negative number. -/
theorem read_negated_digits {n : Nat} (h : n < digitBound) :
    JsonReader.read ('-' :: Nat.toDigits 10 n) = .ok (.int (-n)) := by
  rcases Nat.eq_zero_or_pos n with rfl | hpos
  · rfl
  · have hread := JsonReader.read_int (n := -n) (by simpa using h)
    rw [JsonReader.toList_toString_int, decide_eq_true (by omega), Int.natAbs_neg] at hread
    exact hread

namespace Lowering

/-- A legible constant within the limit is written. -/
theorem exists_yields_constantText {value : Constant} (h : isLegible value = true)
    (hlimit : ∀ n, value = .int n → n < digitBound) (state : LoweringState) :
    ∃ text, Yields (constantText value) state text state ∧ Decodes text value := by
  cases value with
  | text points marked =>
      obtain ⟨s, hs⟩ := Option.isSome_iff_exists.mp h
      obtain rfl := CodePoints.string?_eq_some_iff.mp hs
      refine ⟨quote .unicode s, ?_, JsonReader.read_quote .unicode s⟩
      rw [constantText, quotePoints_codePoints]
      exact .pure
  | bytes content => exact ⟨_, .pure, bytesIn?_hexText content⟩
  | int n =>
      have hn := hlimit n rfl
      exact ⟨_, Readback.yields_integerText hn state, decodes_digits hn⟩
  | bool value => cases value <;> exact ⟨_, .pure, rfl⟩
  | none | ellipsis | real | imaginary => cases h

/-- A number that was written is within the limit. -/
theorem lt_of_yields_integerText {n : Nat} {before after : LoweringState} {text : String}
    (h : Yields (integerText n) before text after) : n < digitBound := by
  refine Nat.lt_of_not_le fun hle => ?_
  have hnone := decimalText?_of_le hle
  unfold integerText at h
  generalize decimalText? n = found at hnone h
  subst hnone
  cases h

/-- A legible constant that was written is read back. -/
theorem decodes_of_yields {value : Constant} (h : isLegible value = true)
    {before after : LoweringState} {text : String}
    (hyields : Yields (constantText value) before text after) : Decodes text value := by
  have hlimit (n : Nat) (hvalue : value = .int n) : n < digitBound := by
    subst hvalue
    exact lt_of_yields_integerText hyields
  obtain ⟨other, hother, hdecodes⟩ := exists_yields_constantText h hlimit before
  cases hyields.symm.trans hother
  exact hdecodes

end Lowering

/-- A text of ASCII characters. -/
def IsAscii (text : String) : Prop :=
  ∀ c ∈ text.toList, c.toNat < 128

/-- A text quoted in ASCII is ASCII. -/
theorem isAscii_quote (s : String) : IsAscii (quote .ascii s) := by
  intro c hc
  rw [quote, String.toList_ofList, quoteChars] at hc
  have hall : (s.toList.flatMap (escapeChar .ascii)).all isPlain = true := by
    rw [List.all_flatMap]
    exact List.all_eq_true.mpr fun d _ => all_isPlain_escapeChar d
  rcases List.mem_append.mp hc with hc | hc
  · rcases List.mem_cons.mp hc with rfl | hc
    · decide
    · exact (isPlain_iff.mp (List.all_eq_true.mp hall c hc)).1
  · rw [List.mem_singleton.mp hc]
    decide

/-- The notation of quoted texts keeps them apart. -/
theorem quote_injective (alphabet : Alphabet) : Function.Injective (quote alphabet) := by
  intro s t h
  have hs := JsonReader.read_quote alphabet s
  rw [h, JsonReader.read_quote] at hs
  injection hs with hvalue
  injection hvalue with hpoints
  exact (codePoints_injective hpoints).symm

namespace Hint

/-- A string as a literal type is quoted. -/
theorem literalType_text (s : String) (marked : Bool) :
    literalType (.constant (.text (codePoints s) marked)) = pure (.literal (quote .ascii s)) :=
  congrArg (fun text => pure (Target.literal text)) (quotePoints_codePoints .ascii s)

/-- A number as a literal type is written in digits. -/
theorem literalType_int {n : Nat} (h : n < digitBound) :
    literalType (.constant (.int n)) = pure (.literal (.ofList (Nat.toDigits 10 n))) := by
  have htext := decimalText?_of_lt h
  rw [literalType]
  unfold literalConstant
  dsimp only
  generalize decimalText? n = text at htext
  subst htext
  rfl

end Hint

/-- Literals decode to what was written. A constant that is a text, bytes, an integer within the
limit or a truth value has a text, that text is read back as the constant, and no other constant has
it. So do the texts and the integers among the arguments of a literal annotation, negated or not,
and the message of an expectation, which are written in ASCII. -/
theorem literals_decode :
    (∀ value, isLegible value = true →
      (∀ state, (∀ n, value = .int n → n < digitBound) →
        ∃ text, Lowering.Yields (Lowering.constantText value) state text state ∧
        Decodes text value) ∧
      ∀ before text after, Lowering.Yields (Lowering.constantText value) before text after →
        Decodes text value ∧
        ∀ other before' after', isLegible other = true →
          Lowering.Yields (Lowering.constantText other) before' text after' →
            unmarked other = unmarked value) ∧
    (∀ s marked, ∃ text,
      Hint.literalType (.constant (.text (codePoints s) marked)) = pure (.literal text) ∧
        IsAscii text ∧ Decodes text (.text (codePoints s) marked)) ∧
    (∀ n, n < digitBound →
      (∃ text, Hint.literalType (.constant (.int n)) = pure (.literal text) ∧
        Decodes text (.int n)) ∧
      ∃ text, Hint.literalType (.unary .minus (.constant (.int n))) = pure (.literal text) ∧
        JsonReader.read text.toList = .ok (.int (-n))) ∧
    (∀ (e : ExpectExpression) (fallback : Option String) (s : String),
      e.message fallback = codePoints s → ∃ text,
        e.render fallback = "expect(" ++ e.expression ++ ", " ++ text ++ ")" ∧
          IsAscii text ∧ Decodes text (.text (codePoints s) false)) ∧
    ∀ alphabet, Function.Injective (quote alphabet) := by
  refine ⟨fun value hlegible => ⟨fun state hlimit => ?_, fun before text after hyields => ?_⟩,
    fun s marked => ?_, fun n hn => ⟨?_, ?_⟩, fun e fallback s hs => ?_, quote_injective⟩
  · exact Lowering.exists_yields_constantText hlegible hlimit state
  · have hdecodes := Lowering.decodes_of_yields hlegible hyields
    exact ⟨hdecodes, fun other before' after' hother hyields' =>
      (Lowering.decodes_of_yields hother hyields').unique hdecodes⟩
  · exact ⟨quote .ascii s, Hint.literalType_text s marked, isAscii_quote s,
      JsonReader.read_quote .ascii s⟩
  · exact ⟨_, Hint.literalType_int hn, decodes_digits hn⟩
  · refine ⟨"-" ++ .ofList (Nat.toDigits 10 n), ?_, ?_⟩
    · rw [Hint.literalType, Hint.literalType_int hn]
      rfl
    · have htext : ("-" ++ String.ofList (Nat.toDigits 10 n)).toList =
        '-' :: Nat.toDigits 10 n := by
        simp
      rw [htext, read_negated_digits hn]
  · refine ⟨quote .ascii s, ?_, isAscii_quote s, JsonReader.read_quote .ascii s⟩
    rw [ExpectExpression.render, hs, quotePoints_codePoints]

/-- A number of fewer digits is within the limit. -/
theorem lt_powerOfTen {n size limit : Nat} (h : n < 10 ^ size) (hsize : size ≤ limit) :
    n < powerOfTen limit :=
  Nat.lt_of_lt_of_le h (Nat.pow_le_pow_right (by decide) hsize)

/-- A text with escapes of both kinds, among them a pair of surrogates, as a constant and as a
message, and a negated integer. -/
theorem literals_decode_pair :
    (isLegible (.text (codePoints "\"é\n😀") true) = true ∧
      ∃ text,
        Lowering.Yields (Lowering.constantText (.text (codePoints "\"é\n😀") true)) {} text {} ∧
          Decodes text (.text (codePoints "\"é\n😀") true)) ∧
    quote .ascii "\"é\n😀" = "\"\\\"\\u00e9\\n\\ud83d\\ude00\"" ∧
    ((ExpectExpression.mk "x" (some (codePoints "é"))).message none = codePoints "é" ∧
      ∃ text, (ExpectExpression.mk "x" (some (codePoints "é"))).render none =
          "expect(x, " ++ text ++ ")" ∧
        IsAscii text ∧ Decodes text (.text (codePoints "é") false)) ∧
    (255 < digitBound ∧
      ∃ text, Hint.literalType (.unary .minus (.constant (.int 255))) = pure (.literal text) ∧
        JsonReader.read text.toList = .ok (.int (-255))) := by
  have hlegible : isLegible (.text (codePoints "\"é\n😀") true) = true := by
    rw [isLegible, string?_codePoints]
    rfl
  have hlimit : 255 < digitBound := by
    unfold digitBound
    exact lt_powerOfTen (by decide : 255 < 10 ^ 3) (by decide)
  have hmessage : (ExpectExpression.mk "x" (some (codePoints "é"))).message none = codePoints "é" :=
    rfl
  obtain ⟨hconstants, -, hintegers, hexpects, -⟩ := literals_decode
  refine ⟨⟨hlegible, (hconstants _ hlegible).1 {} fun n hn => ?_⟩, by decide,
    ⟨hmessage, hexpects _ none "é" hmessage⟩, hlimit, (hintegers 255 hlimit).2⟩
  cases hn

end AikenForge
