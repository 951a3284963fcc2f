/-
# Texts of JSON

A text of JSON is a list of code points that may hold halves of surrogate pairs, but never a whole
pair in two parts, since a pair is read as the code point that it stands for. Every text that is
read is such a text, and every such text is read back as it was written.
-/

import Mathlib.Data.List.Chain
import AikenForge.Proofs.Literals

namespace AikenForge

open AikenForge.Text AikenForge.JsonReader

/-- Code points that a text can hold: no number beyond the last code point, and no pair of
surrogates in two parts. -/
structure CodePoints.Proper (points : CodePoints) : Prop where
  bounded : ∀ n ∈ points, n < 0x110000
  unpaired : points.IsChain fun n m => isHighSurrogate n = true → isLowSurrogate m = false

/-- The code points of a text are proper, since it has no surrogates. -/
theorem CodePoints.proper_codePoints (s : String) : CodePoints.Proper (codePoints s) := by
  have hhigh : ∀ n ∈ codePoints s, isHighSurrogate n = false := by
    intro n hn
    obtain ⟨c, -, rfl⟩ := List.mem_map.mp hn
    exact isHighSurrogate_toNat c
  constructor
  · intro n hn
    obtain ⟨c, -, rfl⟩ := List.mem_map.mp hn
    have hvalid : c.toNat < 0xD800 ∨ 0xDFFF < c.toNat ∧ c.toNat < 0x110000 := c.valid
    omega
  · generalize codePoints s = points at hhigh
    induction points with
    | nil => exact .nil
    | cons n rest ih =>
        have hrest := ih fun m hm => hhigh m (List.mem_cons_of_mem _ hm)
        cases rest with
        | nil => exact .singleton n
        | cons m rest =>
            refine List.isChain_cons_cons.mpr ⟨fun h => ?_, hrest⟩
            rw [hhigh n List.mem_cons_self] at h
            cases h

namespace JsonReader

/-- Before the rest of a text, a reader takes off some characters for a value, whatever the position
is. -/
def Takes {α : Type} (reader : Reader α) (cs rest : List Char) (value : α) : Prop :=
  ∀ p, ∃ q, reader ⟨p, cs ++ rest⟩ = .ok (value, ⟨q, rest⟩)

/-! ## Written texts -/

theorem quotePoints_toList (points : CodePoints) :
    (quotePoints .ascii points).toList = '"' :: (points.flatMap (writtenPoint .ascii) ++ ['"']) :=
  String.toList_ofList

theorem isHighSurrogate_iff {n : Nat} : isHighSurrogate n = true ↔ 0xD800 ≤ n ∧ n < 0xDC00 := by
  simp [isHighSurrogate]

theorem isLowSurrogate_iff {n : Nat} : isLowSurrogate n = true ↔ 0xDC00 ≤ n ∧ n < 0xE000 := by
  simp [isLowSurrogate]

theorem isLowSurrogate_eq_false {n : Nat} (h : n < 0xDC00 ∨ 0xE000 ≤ n) :
    isLowSurrogate n = false := by
  rw [Bool.eq_false_iff, ne_eq, isLowSurrogate_iff]
  omega

/-- Text does not go on with an escape that would close an open pair. -/
def Unpairing (more : List Char) : Prop :=
  ∀ cs p, more = '\\' :: 'u' :: cs →
    ∃ n after, unit ⟨p, 'u' :: cs⟩ = .ok (n, after) ∧ isLowSurrogate n = false

/-- A closing quote pairs with nothing. -/
theorem unpairing_quote (rest : List Char) : Unpairing ('"' :: rest) := by
  intro cs p h
  cases h

/-- An escape that is no low surrogate pairs with nothing before it. -/
theorem unpairing_unitEscape {n : Nat} (hbound : n < 65536) (hlow : isLowSurrogate n = false)
    {more : List Char} (hmore : more ≠ []) : Unpairing (unitEscape n ++ more) := by
  intro cs p h
  have hcs : hexDigits 4 n ++ more = cs := by
    simpa only [unitEscape, List.cons_append, List.cons.injEq, true_and] using h
  subst hcs
  exact ⟨n, _, unit_hexDigits hbound p hmore, hlow⟩

/-- A point that does not close a pair is not written so that it does. -/
theorem unpairing_writtenPoint {n : Nat} (hbound : n < 0x110000) (hlow : isLowSurrogate n = false)
    {more : List Char} (hmore : more ≠ []) : Unpairing (writtenPoint .ascii n ++ more) := by
  unfold writtenPoint
  split
  · rename_i hsurrogate
    exact unpairing_unitEscape (by have := isSurrogate_iff.mp hsurrogate; omega) hlow hmore
  rename_i hsurrogate
  have hpoint := toNat_ofNat_of_not_isSurrogate hbound (by simpa using hsurrogate)
  rcases escapeChar_cases .ascii (Char.ofNat n) with
    ⟨letter, hu, -, hchars⟩ | ⟨-, hchars⟩ | ⟨⟨-, hslash, -⟩, hchars⟩
  · intro cs p h
    rw [hchars] at h
    simp only [List.cons_append, List.nil_append, List.cons.injEq, true_and] at h
    exact absurd h.1 hu
  · rw [hchars, hpoint, codeEscape]
    split
    · rename_i hsmall
      exact unpairing_unitEscape hsmall hlow hmore
    · rw [List.append_assoc]
      exact unpairing_unitEscape (by omega) (isLowSurrogate_eq_false (by omega))
        (by simp [unitEscape])
  · intro cs p h
    rw [hchars] at h
    simp only [List.cons_append, List.nil_append, List.cons.injEq] at h
    exact absurd h.1 hslash

/-- The escape of a unit that no other unit closes is read as that unit. -/
theorem unitPoint_of_unpairing {n : Nat} (h : n < 65536) (p : Nat) {more : List Char}
    (hmore : more ≠ []) (hunpairing : Unpairing more) :
    unitPoint ⟨p, 'u' :: (hexDigits 4 n ++ more)⟩ = .ok (n, ⟨p + 5, more⟩) := by
  rw [unitPoint, unit_hexDigits h p hmore]
  dsimp only [bind, Except.bind]
  split
  · rename_i cs
    split
    · obtain ⟨m, after, hunit, hlow⟩ := hunpairing cs (p + 6) rfl
      have hskip : Cursor.skip 1 ⟨p + 5, '\\' :: 'u' :: cs⟩ = ⟨p + 6, 'u' :: cs⟩ := rfl
      rw [hskip, hunit]
      simp only [hlow, Bool.false_eq_true, if_false]
      rfl
    · rfl
  · rfl

/-- A code point inside a text is read as itself, if it opens no pair that the next one closes. -/
theorem textPoints_writtenPoint (opening : Nat) {n : Nat} (hbound : n < 0x110000) (p : Nat)
    {more : List Char} (hmore : more ≠ []) (hunpairing : isHighSurrogate n = true →
      Unpairing more) :
    ∃ q, ∀ fuel points last, textPoints opening fuel ⟨q, more⟩ = .ok (points, last) →
      textPoints opening (fuel + 1) ⟨p, writtenPoint .ascii n ++ more⟩ =
        .ok (n :: points, last) := by
  unfold writtenPoint
  split
  · rename_i hsurrogate
    have hsmall : n < 65536 := by
      have := isSurrogate_iff.mp hsurrogate
      omega
    have hunit : unitPoint ⟨p + 1, 'u' :: (hexDigits 4 n ++ more)⟩ =
        .ok (n, ⟨p + 1 + 5, more⟩) := by
      cases hhigh : isHighSurrogate n with
      | true => exact unitPoint_of_unpairing hsmall _ hmore (hunpairing hhigh)
      | false => exact unitPoint_unit hsmall hhigh _ hmore
    exact ⟨p + 1 + 5, fun fuel points last hrest => textPoints_escape hunit hrest⟩
  · rename_i hsurrogate
    have hpoint := toNat_ofNat_of_not_isSurrogate hbound (by simpa using hsurrogate)
    have hchar := textPoints_escapeChar .ascii opening (Char.ofNat n) p hmore
    rwa [hpoint] at hchar

/-- The inside of a text is read as its code points. -/
theorem textPoints_flatMap_writtenPoint (opening : Nat) {points : CodePoints} (h : points.Proper)
    (rest : List Char) (p : Nat) {fuel : Nat} (hfuel : points.length < fuel) :
    ∃ q, textPoints opening fuel ⟨p, points.flatMap (writtenPoint .ascii) ++ '"' :: rest⟩ =
      .ok (points, ⟨q, rest⟩) := by
  induction points generalizing p fuel with
  | nil =>
      obtain ⟨fuel, rfl⟩ : ∃ n, fuel = n + 1 := ⟨fuel - 1, by simp at hfuel; omega⟩
      exact ⟨p + 1, rfl⟩
  | cons n points ih =>
      obtain ⟨fuel, rfl⟩ : ∃ n, fuel = n + 1 := ⟨fuel - 1, by simp at hfuel; omega⟩
      have hrest : CodePoints.Proper points :=
        ⟨fun m hm => h.bounded m (List.mem_cons_of_mem _ hm), h.unpaired.tail⟩
      have hmore : points.flatMap (writtenPoint .ascii) ++ '"' :: rest ≠ [] := by simp
      have hunpairing : isHighSurrogate n = true →
          Unpairing (points.flatMap (writtenPoint .ascii) ++ '"' :: rest) := by
        intro hhigh
        cases points with
        | nil => exact unpairing_quote rest
        | cons m points =>
            rw [List.flatMap_cons, List.append_assoc]
            exact unpairing_writtenPoint (hrest.bounded m List.mem_cons_self)
              ((List.isChain_cons_cons.mp h.unpaired).1 hhigh) (by simp)
      obtain ⟨q, hstep⟩ := textPoints_writtenPoint opening (h.bounded n List.mem_cons_self) p hmore
        hunpairing
      obtain ⟨last, hlast⟩ := ih hrest q (by simpa using hfuel)
      refine ⟨last, ?_⟩
      rw [List.flatMap_cons, List.append_assoc]
      exact hstep fuel _ _ hlast

/-- A written text is no shorter than its points. -/
theorem length_le_length_flatMap_writtenPoint (points : CodePoints) :
    points.length ≤ (points.flatMap (writtenPoint .ascii)).length := by
  induction points with
  | nil => exact Nat.le_refl 0
  | cons n rest ih =>
      have hpoint : 1 ≤ (writtenPoint .ascii n).length := by
        unfold writtenPoint
        split
        · simp [unitEscape]
        · simpa using length_le_length_flatMap_escapeChar .ascii [Char.ofNat n]
      rw [List.flatMap_cons, List.length_append, List.length_cons]
      omega

/-- A text is read as its code points, whatever follows it. -/
theorem takes_text {points : CodePoints} (h : points.Proper) (rest : List Char) :
    Takes text (quotePoints .ascii points).toList rest points := by
  intro p
  have hlength := length_le_length_flatMap_writtenPoint points
  have hchars : (quotePoints .ascii points).toList ++ rest =
      '"' :: (points.flatMap (writtenPoint .ascii) ++ '"' :: rest) := by
    simp [quotePoints_toList]
  rw [text, hchars]
  refine textPoints_flatMap_writtenPoint p h rest (p + 1) ?_
  simp only [List.length_cons, List.length_append]
  omega

/-! ## Texts that are read -/

theorem lt_of_hexValue? {c : Char} {d : Nat} (h : hexValue? c = some d) : d < 16 := by
  unfold hexValue? at h
  split at h
  · rename_i hdigit
    have hbounds : 48 ≤ c.toNat ∧ c.toNat ≤ 57 := Char.isDigit_iff_toNat.mp hdigit
    cases h
    change c.toNat - 48 < 16
    omega
  split at h
  · rename_i hlower
    simp only [Bool.and_eq_true, decide_eq_true_eq] at hlower
    have hbound : c.toNat ≤ 102 := hlower.2
    cases h
    change c.toNat - 97 + 10 < 16
    omega
  split at h
  · rename_i hupper
    simp only [Bool.and_eq_true, decide_eq_true_eq] at hupper
    have hbound : c.toNat ≤ 70 := hupper.2
    cases h
    change c.toNat - 65 + 10 < 16
    omega
  · cases h

theorem lt_of_hexUnit? {cs : List Char} {n : Nat} (h : hexUnit? cs = some n) : n < 65536 := by
  unfold hexUnit? at h
  split at h
  · rename_i hlength
    match cs, hlength with
    | [a, b, c, d], _ =>
        cases ha : hexValue? a <;> cases hb : hexValue? b <;> cases hc : hexValue? c <;>
          cases hd : hexValue? d <;> simp [ha, hb, hc, hd] at h
        have := lt_of_hexValue? ha
        have := lt_of_hexValue? hb
        have := lt_of_hexValue? hc
        have := lt_of_hexValue? hd
        omega
  · cases h

/-- A unit has sixteen bits. -/
theorem lt_of_unit {c after : Cursor} {n : Nat} (h : unit c = .ok (n, after)) : n < 65536 := by
  unfold unit at h
  dsimp only at h
  split at h
  · cases h
  split at h
  · rename_i m hunit
    cases h
    exact lt_of_hexUnit? hunit
  · cases h

/-- More text follows a unit that is read. -/
theorem length_of_unit {c after : Cursor} {n : Nat} (h : unit c = .ok (n, after)) :
    5 < c.rest.length := by
  unfold unit at h
  dsimp only at h
  split at h
  · cases h
  · omega

/-- A unit escape that is read is one unit that no other closes, or a pair of two. -/
theorem cases_of_unitPoint {c after : Cursor} {n : Nat} (h : unitPoint c = .ok (n, after)) :
    (unit c = .ok (n, after) ∧
        (isHighSurrogate n = true → ∀ cs, after.rest = '\\' :: 'u' :: cs → 6 < after.rest.length →
          ∃ m last, unit (after.skip 1) = .ok (m, last) ∧ isLowSurrogate m = false)) ∨
      ∃ high low, isHighSurrogate high = true ∧ isLowSurrogate low = true ∧
        n = joinSurrogates high low := by
  rw [unitPoint] at h
  cases hunit : unit c with
  | error e =>
      rw [hunit] at h
      cases h
  | ok result =>
      obtain ⟨high, next⟩ := result
      rw [hunit] at h
      dsimp only [bind, Except.bind] at h
      split at h
      · rename_i cs hrest
        split at h
        · rename_i hopen
          simp only [Bool.and_eq_true, decide_eq_true_eq] at hopen
          cases hlow : unit (next.skip 1) with
          | error e =>
              rw [hlow] at h
              cases h
          | ok result =>
              obtain ⟨low, last⟩ := result
              rw [hlow] at h
              dsimp only at h
              split at h
              · rename_i hcloses
                have hpair : (joinSurrogates high low, last) = (n, after) := Except.ok.inj h
                exact .inr ⟨high, low, hopen.1, hcloses, (Prod.mk.inj hpair).1.symm⟩
              · rename_i hcloses
                cases h
                exact .inl ⟨rfl, fun _ _ _ _ => ⟨low, last, hlow, by simpa using hcloses⟩⟩
        · rename_i hopen
          cases h
          refine .inl ⟨rfl, fun hhigh _ _ hlength => absurd ?_ hopen⟩
          simp [hhigh, hlength]
      · rename_i hother
        cases h
        exact .inl ⟨rfl, fun _ cs hrest => absurd hrest (hother cs)⟩

/-- A surrogate pair stands for a point beyond sixteen bits. -/
theorem joinSurrogates_bounds {high low : Nat} (hhigh : isHighSurrogate high = true)
    (hlow : isLowSurrogate low = true) :
    0x10000 ≤ joinSurrogates high low ∧ joinSurrogates high low < 0x110000 := by
  rw [isHighSurrogate_iff] at hhigh
  rw [isLowSurrogate_iff] at hlow
  unfold joinSurrogates
  omega

/-- The escapes of one letter are ASCII. -/
theorem lt_of_escapeLetter? {c : Char} {n : Nat} (h : escapeLetter? c = some n) : n < 128 := by
  obtain ⟨before, after, hsplit, -⟩ := List.lookup_eq_some_iff.mp h
  have hall : ∀ entry ∈ [('"', 34), ('\\', 92), ('/', 47), ('b', 8), ('f', 12), ('n', 10),
    ('r', 13),
      ('t', 9)], entry.2 < 128 := by decide
  exact hall (c, n) (hsplit ▸ List.mem_append_right _ List.mem_cons_self)

/-- An escape that is read is an escape of a letter, which writes an ASCII character, or of
units. -/
theorem cases_of_escapePoint {opening : Nat} {c after : Cursor} {n : Nat}
    (h : escapePoint opening c = .ok (n, after)) :
    n < 128 ∨ ∃ cs, c.rest = 'u' :: cs ∧ unitPoint c = .ok (n, after) := by
  unfold escapePoint at h
  split at h
  · cases h
  · rename_i cs hrest
    exact .inr ⟨cs, hrest, h⟩
  · split at h
    · rename_i m hletter
      cases h
      exact .inl (lt_of_escapeLetter? hletter)
    · cases h

/-- An escape stands for a code point. -/
theorem lt_of_escapePoint {opening : Nat} {c after : Cursor} {n : Nat}
    (h : escapePoint opening c = .ok (n, after)) : n < 0x110000 := by
  rcases cases_of_escapePoint h with hsmall | ⟨cs, -, hpoint⟩
  · omega
  rcases cases_of_unitPoint hpoint with ⟨hunit, -⟩ | ⟨high, low, hhigh, hlow, hpair⟩
  · have := lt_of_unit hunit
    omega
  · rw [hpair]
    exact (joinSurrogates_bounds hhigh hlow).2

/-- A text that goes on after a point is the point and what is read after it. -/
theorem cases_of_textPoints {opening fuel : Nat} {c last : Cursor} {points : CodePoints}
    (h : textPoints opening (fuel + 1) c = .ok (points, last)) :
    points = [] ∨ ∃ n rest next, points = n :: rest ∧
      textPoints opening fuel next = .ok (rest, last) ∧
      ((∃ cs, c.rest = '\\' :: cs ∧ escapePoint opening (c.skip 1) = .ok (n, next)) ∨
        ∃ letter : Char, n = letter.toNat) := by
  rw [textPoints] at h
  split at h
  · cases h
  · cases h
    exact .inl rfl
  · rename_i cs hrest
    cases hescape : escapePoint opening (c.skip 1) with
    | error e =>
        rw [hescape] at h
        cases h
    | ok result =>
        obtain ⟨n, next⟩ := result
        rw [hescape] at h
        dsimp only [bind, Except.bind] at h
        cases hmore : textPoints opening fuel next with
        | error e =>
            rw [hmore] at h
            cases h
        | ok result =>
            obtain ⟨more, last'⟩ := result
            rw [hmore] at h
            cases h
            exact .inr ⟨n, more, next, rfl, hmore, .inl ⟨cs, hrest, rfl⟩⟩
  · rename_i letter cs hquote hslash hrest
    split at h
    · cases h
    cases hmore : textPoints opening fuel (c.skip 1) with
    | error e =>
        rw [hmore] at h
        cases h
    | ok result =>
        obtain ⟨more, last'⟩ := result
        rw [hmore] at h
        cases h
        exact .inr ⟨letter.toNat, more, c.skip 1, rfl, hmore, .inr ⟨letter, rfl⟩⟩

/-- A text that starts with a closing half starts with the escape of that half. -/
theorem unit_of_textPoints {opening fuel : Nat} {c last : Cursor} {n : Nat} {points : CodePoints}
    (h : textPoints opening fuel c = .ok (n :: points, last)) (hlow : isLowSurrogate n = true) :
    ∃ cs after, c.rest = '\\' :: 'u' :: cs ∧ unit (c.skip 1) = .ok (n, after) := by
  have hbounds := isLowSurrogate_iff.mp hlow
  cases fuel with
  | zero => cases h
  | succ fuel =>
      rcases cases_of_textPoints h with
        hnone | ⟨_, _, next, heq, -, ⟨cs, hrest, hescape⟩ | ⟨letter, hletter⟩⟩
      · cases hnone
      · cases heq
        rcases cases_of_escapePoint hescape with hsmall | ⟨more, hu, hpoint⟩
        · omega
        rcases cases_of_unitPoint hpoint with ⟨hunit, -⟩ | ⟨high, low, hhigh, hlow', hpair⟩
        · have hcs : cs = 'u' :: more := by
            simpa only [Cursor.skip, hrest, List.drop_succ_cons, List.drop_zero] using hu
          exact ⟨more, next, by rw [hrest, hcs], hunit⟩
        · have := joinSurrogates_bounds hhigh hlow'
          omega
      · cases heq
        have hvalid : letter.toNat < 0xD800 ∨ 0xDFFF < letter.toNat ∧ letter.toNat < 0x110000 :=
          letter.valid
        omega

/-- An open half that is read is not closed by the point after it: the reader would have taken the
two for a pair. -/
theorem isLowSurrogate_of_open {opening fuel : Nat} {c next last : Cursor} {n m : Nat}
    {points : CodePoints} (hescape : escapePoint opening c = .ok (n, next))
    (hhigh : isHighSurrogate n = true)
    (hmore : textPoints opening fuel next = .ok (m :: points, last)) :
    isLowSurrogate m = false := by
  have hbounds := isHighSurrogate_iff.mp hhigh
  by_contra hlow
  obtain ⟨cs, after, hrest, hunit⟩ := unit_of_textPoints hmore (by simpa using hlow)
  rcases cases_of_escapePoint hescape with hsmall | ⟨_, -, hpoint⟩
  · omega
  rcases cases_of_unitPoint hpoint with ⟨-, hopen⟩ | ⟨high, low, hhigh', hlow', hpair⟩
  · have hlength := length_of_unit hunit
    have hlong : 6 < next.rest.length := by
      simp only [Cursor.skip, List.length_drop] at hlength
      omega
    obtain ⟨m', last', hunit', hlow'⟩ := hopen hhigh cs hrest hlong
    rw [hunit] at hunit'
    cases hunit'
    exact hlow hlow'
  · have := joinSurrogates_bounds hhigh' hlow'
    omega

/-- Every text that is read is one that a text can hold. -/
theorem proper_of_textPoints {opening fuel : Nat} {c last : Cursor} {points : CodePoints}
    (h : textPoints opening fuel c = .ok (points, last)) : points.Proper := by
  induction fuel generalizing c points with
  | zero => cases h
  | succ fuel ih =>
      rcases cases_of_textPoints h with rfl | ⟨n, rest, next, rfl, hmore, hfirst⟩
      · exact ⟨by simp, .nil⟩
      have hrest := ih hmore
      have hbound : n < 0x110000 := by
        rcases hfirst with ⟨cs, -, hescape⟩ | ⟨letter, rfl⟩
        · exact lt_of_escapePoint hescape
        · have hvalid : letter.toNat < 0xD800 ∨ 0xDFFF < letter.toNat ∧ letter.toNat < 0x110000 :=
            letter.valid
          omega
      constructor
      · intro m hm
        rcases List.mem_cons.mp hm with rfl | hm
        · exact hbound
        · exact hrest.bounded m hm
      · cases rest with
        | nil => exact .singleton n
        | cons m rest =>
            refine List.isChain_cons_cons.mpr ⟨fun hhigh => ?_, hrest.unpaired⟩
            rcases hfirst with ⟨cs, -, hescape⟩ | ⟨letter, rfl⟩
            · exact isLowSurrogate_of_open hescape hhigh hmore
            · rw [isHighSurrogate_toNat] at hhigh
              cases hhigh

/-- What is read as a text is proper: two surrogates next to each other were joined. -/
theorem proper_of_text {c after : Cursor} {points : CodePoints} (h : text c = .ok (points, after)) :
    points.Proper :=
  proper_of_textPoints h

end JsonReader

end AikenForge
