/-
# Literals read back

The notations of literals lose nothing. Decimal digits, hexadecimal digits and quoted text each have
a reader, and the reader gives back what was written: digits their number, digit pairs their bytes,
and a quoted text its code points, whichever characters its alphabet leaves as they are.
-/

import AikenForge.Json.Reader
import AikenForge.Number.Decimal
import AikenForge.Text.Quoted

namespace AikenForge.Number

/-! ## Decimal digits -/

/-- The digits of a number write that number. -/
theorem ofDigits_toDigits (n : Nat) : ofDigits (Nat.toDigits 10 n) = n := by
  have h := Nat.ofDigitChars_ten_toDigits (n := n)
  simpa only [ofDigits, Nat.ofDigitChars, Nat.mul_comm] using h

/-- A number within the limit is written in its digits. -/
theorem decimalText?_of_lt {n : Nat} (h : n < digitBound) :
    decimalText? n = some (.ofList (Nat.toDigits 10 n)) := by
  unfold decimalText?
  generalize digitBound = bound at h
  exact if_pos h

/-- A number beyond the limit is not written. -/
theorem decimalText?_of_le {n : Nat} (h : digitBound ≤ n) : decimalText? n = none := by
  unfold decimalText?
  generalize digitBound = bound at h
  exact if_neg (Nat.not_lt.mpr h)

end AikenForge.Number

namespace AikenForge.Text

/-! ## Hexadecimal digits -/

/-- Each of the sixteen digits has its own value. -/
theorem hexValue?_hexDigit {d : Nat} (h : d < 16) : hexValue? (hexDigit d) = some d := by
  have hall : ∀ d < 16, hexValue? (hexDigit d) = some d := by decide
  exact hall d h

theorem hexValue?_hexDigit_mod (n : Nat) : hexValue? (hexDigit (n % 16)) = some (n % 16) :=
  hexValue?_hexDigit (Nat.mod_lt n (by omega))

/-- Four digits with their weights are a number of sixteen bits. -/
theorem weigh_four_digits {n : Nat} (h : n < 0x10000) :
    (((n / 16 / 16 / 16) % 16 * 16 + (n / 16 / 16) % 16) * 16 + (n / 16) % 16) * 16 + n % 16 =
      n := by
  omega

theorem length_hexDigits (width n : Nat) : (hexDigits width n).length = width := by
  induction width generalizing n with
  | zero => rfl
  | succ width ih => simp [hexDigits, ih]

end AikenForge.Text

namespace AikenForge.JsonReader

open AikenForge.Text

/-! ## Quoted text -/

/-- Four digits write one unit. -/
theorem hexUnit?_hexDigits {n : Nat} (h : n < 65536) : hexUnit? (hexDigits 4 n) = some n := by
  simp [hexUnit?, hexDigits, hexValue?_hexDigit_mod, weigh_four_digits h]

/-- The unit after an escape's letter, if more text follows. -/
theorem unit_hexDigits {n : Nat} (h : n < 65536) (p : Nat) {more : List Char} (hmore : more ≠ []) :
    unit ⟨p, 'u' :: (hexDigits 4 n ++ more)⟩ = .ok (n, ⟨p + 5, more⟩) := by
  have hlength : 0 < more.length := List.length_pos_iff.mpr hmore
  have htake : (hexDigits 4 n ++ more).take 4 = hexDigits 4 n :=
    List.take_left' (length_hexDigits 4 n)
  have hdrop : (hexDigits 4 n ++ more).drop 4 = more := List.drop_left' (length_hexDigits 4 n)
  have hlong : ¬ ('u' :: (hexDigits 4 n ++ more)).length ≤ 5 := by
    simp only [List.length_cons, List.length_append, length_hexDigits]
    omega
  simp only [unit, if_neg hlong, List.drop_succ_cons, List.drop_zero, htake,
    hexUnit?_hexDigits h, Cursor.skip, hdrop]

/-- A unit escape that opens no surrogate pair is its unit. -/
theorem unitPoint_unit {n : Nat} (h : n < 65536) (hhigh : isHighSurrogate n = false) (p : Nat)
    {more : List Char} (hmore : more ≠ []) :
    unitPoint ⟨p, 'u' :: (hexDigits 4 n ++ more)⟩ = .ok (n, ⟨p + 5, more⟩) := by
  rw [unitPoint, unit_hexDigits h p hmore]
  dsimp only [bind, Except.bind]
  split
  · simp only [hhigh, Bool.false_and, Bool.false_eq_true, if_false]
    rfl
  · rfl

/-- Two unit escapes that form a surrogate pair are the code point of the pair. -/
theorem unitPoint_pair {high low : Nat} (hhigh : isHighSurrogate high = true)
    (hlow : isLowSurrogate low = true) (p : Nat) {more : List Char} (hmore : more ≠ []) :
    unitPoint ⟨p, 'u' :: (hexDigits 4 high ++ ('\\' :: 'u' :: (hexDigits 4 low ++ more)))⟩ =
      .ok (joinSurrogates high low, ⟨p + 11, more⟩) := by
  have hhigh16 : high < 65536 := by
    simp only [isHighSurrogate, Bool.and_eq_true, decide_eq_true_eq] at hhigh
    omega
  have hlow16 : low < 65536 := by
    simp only [isLowSurrogate, Bool.and_eq_true, decide_eq_true_eq] at hlow
    omega
  have hlength : 0 < more.length := List.length_pos_iff.mpr hmore
  have hlong : 6 < ('\\' :: 'u' :: (hexDigits 4 low ++ more)).length := by
    simp only [List.length_cons, List.length_append, length_hexDigits]
    omega
  simp only [unitPoint, unit_hexDigits hhigh16 p (List.cons_ne_nil _ _), bind, Except.bind, hhigh,
    hlong, decide_true, Bool.and_true, if_true, Cursor.skip, List.drop_succ_cons, List.drop_zero,
    unit_hexDigits hlow16 _ hmore, hlow, pure, Except.pure]

/-- A code point of a character is no half of a surrogate pair. -/
theorem isHighSurrogate_toNat (c : Char) : isHighSurrogate c.toNat = false := by
  have hvalid : c.toNat < 0xD800 ∨ 0xDFFF < c.toNat ∧ c.toNat < 0x110000 := c.valid
  simp only [isHighSurrogate, Bool.and_eq_false_iff, decide_eq_false_iff_not]
  omega

/-- The escape of a character is read as its code point. -/
theorem unitPoint_codeEscape (c : Char) (p : Nat) {more : List Char} (hmore : more ≠ []) :
    ∃ digits q, codeEscape c.toNat = '\\' :: 'u' :: digits ∧
      unitPoint ⟨p, 'u' :: (digits ++ more)⟩ = .ok (c.toNat, ⟨q, more⟩) := by
  have hvalid : c.toNat < 0xD800 ∨ 0xDFFF < c.toNat ∧ c.toNat < 0x110000 := c.valid
  by_cases hsmall : c.toNat < 0x10000
  · exact ⟨hexDigits 4 c.toNat, p + 5, by rw [codeEscape, if_pos hsmall, unitEscape],
      unitPoint_unit hsmall (isHighSurrogate_toNat c) p hmore⟩
  · have hhigh : isHighSurrogate (0xD800 + (c.toNat - 0x10000) / 0x400) = true := by
      simp only [isHighSurrogate, Bool.and_eq_true, decide_eq_true_eq]
      omega
    have hlow : isLowSurrogate (0xDC00 + (c.toNat - 0x10000) % 0x400) = true := by
      simp only [isLowSurrogate, Bool.and_eq_true, decide_eq_true_eq]
      omega
    have hjoin : joinSurrogates (0xD800 + (c.toNat - 0x10000) / 0x400)
        (0xDC00 + (c.toNat - 0x10000) % 0x400) = c.toNat := by
      unfold joinSurrogates
      omega
    have hpair := unitPoint_pair hhigh hlow p hmore
    rw [hjoin] at hpair
    refine ⟨hexDigits 4 (0xD800 + (c.toNat - 0x10000) / 0x400) ++
      unitEscape (0xDC00 + (c.toNat - 0x10000) % 0x400), p + 11, ?_, ?_⟩
    · rw [codeEscape, if_neg hsmall]
      rfl
    · simpa only [List.append_assoc, unitEscape, List.cons_append] using hpair

/-- An escape inside a text and what follows it. -/
theorem textPoints_escape {opening fuel p q point : Nat} {cs more : List Char} {points : CodePoints}
    {last : Cursor} (hescape : escapePoint opening ⟨p + 1, cs⟩ = .ok (point, ⟨q, more⟩))
    (hrest : textPoints opening fuel ⟨q, more⟩ = .ok (points, last)) :
    textPoints opening (fuel + 1) ⟨p, '\\' :: cs⟩ = .ok (point :: points, last) := by
  change (escapePoint opening ⟨p + 1, cs⟩).bind _ = _
  rw [hescape]
  change (textPoints opening fuel ⟨q, more⟩).bind _ = _
  rw [hrest]
  rfl

/-- A unit escape inside a text is read as its code point. -/
theorem textPoints_codeEscape (opening : Nat) (c : Char) (p : Nat) {more : List Char}
    (hmore : more ≠ []) :
    ∃ q, ∀ fuel points last, textPoints opening fuel ⟨q, more⟩ = .ok (points, last) →
      textPoints opening (fuel + 1) ⟨p, codeEscape c.toNat ++ more⟩ =
        .ok (c.toNat :: points, last) := by
  obtain ⟨digits, q, hcode, hunit⟩ := unitPoint_codeEscape c (p + 1) hmore
  refine ⟨q, ?_⟩
  intro fuel points last hrest
  have hescape : escapePoint opening ⟨p + 1, 'u' :: (digits ++ more)⟩ = .ok (c.toNat, ⟨q, more⟩) :=
    hunit
  rw [hcode]
  exact textPoints_escape hescape hrest

/-- A character is written as an escape of one letter, as an escape of its code point if it is a
control character or beyond the alphabet, or as itself if nothing stands against it. -/
theorem escapeChar_cases (alphabet : Alphabet) (c : Char) :
    (∃ letter, letter ≠ 'u' ∧ escapeLetter? letter = some c.toNat ∧
        escapeChar alphabet c = ['\\', letter]) ∨
      (c.toNat < 32 ∨ alphabet = .ascii ∧ 127 ≤ c.toNat) ∧
        escapeChar alphabet c = codeEscape c.toNat ∨
      (c ≠ '"' ∧ c ≠ '\\' ∧ ¬ c.toNat < 32) ∧ escapeChar alphabet c = [c] := by
  by_cases hquote : c = '"'
  · exact .inl ⟨'"', by decide, by rw [hquote]; rfl, by rw [hquote]; rfl⟩
  by_cases hslash : c = '\\'
  · exact .inl ⟨'\\', by decide, by rw [hslash]; rfl, by rw [hslash]; rfl⟩
  by_cases hfeed : c = '\n'
  · exact .inl ⟨'n', by decide, by rw [hfeed]; rfl, by rw [hfeed]; rfl⟩
  by_cases hreturn : c = '\r'
  · exact .inl ⟨'r', by decide, by rw [hreturn]; rfl, by rw [hreturn]; rfl⟩
  by_cases htab : c = '\t'
  · exact .inl ⟨'t', by decide, by rw [htab]; rfl, by rw [htab]; rfl⟩
  by_cases hback : c = '\x08'
  · exact .inl ⟨'b', by decide, by rw [hback]; rfl, by rw [hback]; rfl⟩
  by_cases hform : c = '\x0c'
  · exact .inl ⟨'f', by decide, by rw [hform]; rfl, by rw [hform]; rfl⟩
  simp only [escapeChar, beq_iff_eq, hquote, hslash, hfeed, hreturn, htab, hback, hform, if_false]
  by_cases hcontrol : c.toNat < 32
  · rw [if_pos hcontrol, codeEscape, if_pos (by omega)]
    exact .inr (.inl ⟨.inl hcontrol, rfl⟩)
  rw [if_neg hcontrol]
  by_cases hbeyond : alphabet = .ascii ∧ 127 ≤ c.toNat
  · rw [if_pos hbeyond]
    exact .inr (.inl ⟨.inr hbeyond, rfl⟩)
  · rw [if_neg hbeyond]
    exact .inr (.inr ⟨⟨hquote, hslash, hcontrol⟩, rfl⟩)

/-- A character inside a text is read as its code point, however the alphabet has it written. -/
theorem textPoints_escapeChar (alphabet : Alphabet) (opening : Nat) (c : Char) (p : Nat)
    {more : List Char} (hmore : more ≠ []) :
    ∃ q, ∀ fuel points last, textPoints opening fuel ⟨q, more⟩ = .ok (points, last) →
      textPoints opening (fuel + 1) ⟨p, escapeChar alphabet c ++ more⟩ =
        .ok (c.toNat :: points, last) := by
  rcases escapeChar_cases alphabet c with
    ⟨letter, hu, hescape, hchars⟩ | ⟨-, hchars⟩ | ⟨⟨hquote, hslash, hcontrol⟩, hchars⟩
  · refine ⟨p + 1 + 1, ?_⟩
    intro fuel points last hrest
    have hpoint : escapePoint opening ⟨p + 1, letter :: more⟩ =
        .ok (c.toNat, ⟨p + 1 + 1, more⟩) := by
      simp only [escapePoint, hescape]
      rfl
    rw [hchars]
    exact textPoints_escape hpoint hrest
  · rw [hchars]
    exact textPoints_codeEscape opening c p hmore
  · refine ⟨p + 1, ?_⟩
    intro fuel points last hrest
    rw [hchars]
    simp only [List.cons_append, List.nil_append, textPoints]
    simp only [Cursor.skip, List.drop_succ_cons, List.drop_zero, if_neg hcontrol, hrest,
      Except.bind, bind, pure, Except.pure]

/-- The inside of a quoted text is read as the code points of its characters. -/
theorem textPoints_flatMap (alphabet : Alphabet) (opening : Nat) (cs rest : List Char) (p : Nat)
    {fuel : Nat} (hfuel : cs.length < fuel) :
    ∃ q, textPoints opening fuel ⟨p, cs.flatMap (escapeChar alphabet) ++ '"' :: rest⟩ =
      .ok (cs.map Char.toNat, ⟨q, rest⟩) := by
  induction cs generalizing p fuel with
  | nil =>
      obtain ⟨fuel, rfl⟩ : ∃ n, fuel = n + 1 := ⟨fuel - 1, by simp at hfuel; omega⟩
      exact ⟨p + 1, rfl⟩
  | cons c cs ih =>
      obtain ⟨fuel, rfl⟩ : ∃ n, fuel = n + 1 := ⟨fuel - 1, by simp at hfuel; omega⟩
      have hfuel' : cs.length < fuel := by simpa using hfuel
      have hmore : cs.flatMap (escapeChar alphabet) ++ '"' :: rest ≠ [] := by simp
      obtain ⟨q, hstep⟩ := textPoints_escapeChar alphabet opening c p hmore
      obtain ⟨last, hlast⟩ := ih q hfuel'
      refine ⟨last, ?_⟩
      rw [List.flatMap_cons, List.append_assoc, List.map_cons]
      exact hstep fuel _ _ hlast

/-- Every character is written by at least one character. -/
theorem length_le_length_flatMap_escapeChar (alphabet : Alphabet) (cs : List Char) :
    cs.length ≤ (cs.flatMap (escapeChar alphabet)).length := by
  induction cs with
  | nil => exact Nat.le_refl 0
  | cons c cs ih =>
      have hchar : 1 ≤ (escapeChar alphabet c).length := by
        rcases escapeChar_cases alphabet c with ⟨letter, -, -, hchars⟩ | ⟨-, hchars⟩ | ⟨-, hchars⟩
        · simp [hchars]
        · rw [hchars, codeEscape]
          split <;> simp [unitEscape]
        · simp [hchars]
      rw [List.flatMap_cons, List.length_append, List.length_cons]
      omega

/-- A quoted text is read as the code points of its characters, whatever follows it. -/
theorem text_quoteChars (alphabet : Alphabet) (cs rest : List Char) (p : Nat) :
    ∃ q, text ⟨p, quoteChars alphabet cs ++ rest⟩ = .ok (cs.map Char.toNat, ⟨q, rest⟩) := by
  have hlength := length_le_length_flatMap_escapeChar alphabet cs
  have hrest : quoteChars alphabet cs ++ rest =
      '"' :: (cs.flatMap (escapeChar alphabet) ++ '"' :: rest) := by
    simp [quoteChars]
  rw [text, hrest]
  exact textPoints_flatMap alphabet p cs rest (p + 1) (by
    simp only [List.length_cons, List.length_append]
    omega)

end AikenForge.JsonReader
