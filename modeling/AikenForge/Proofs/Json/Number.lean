/-
# Numbers of JSON

The text of a number has a whole part and may have a fraction and an exponent. Integers are written
with a whole part alone and read back as they are. The texts of other numbers always have a fraction
or an exponent, so that they are read as numbers of their kind; which number is read depends on
nothing but the number that was written.
-/

import AikenForge.Proofs.Json.Text

namespace AikenForge.JsonReader

open AikenForge.Number AikenForge.Text

/-! ## Parts of numbers -/

/-- A whole part is a zero or digits that do not start with one. -/
structure IsWhole (cs : List Char) : Prop where
  digits : ∀ c ∈ cs, c.isDigit = true
  start : cs = ['0'] ∨ ∃ d ds, cs = d :: ds ∧ d ≠ '0'

/-- The text of a fraction, which is left out if it has no digits. -/
def fractionText (fraction : List Char) : List Char :=
  if fraction.isEmpty then [] else '.' :: fraction

/-- A rest does not go on with digits. -/
def EndsDigits (rest : List Char) : Prop :=
  ∀ c ∈ rest.head?, c.isDigit = false

/-- The digits of a number end where something else starts. -/
theorem digitsOf_append {cs rest : List Char} (hall : ∀ c ∈ cs, c.isDigit = true)
    (hrest : EndsDigits rest) : digitsOf (cs ++ rest) = cs := by
  rw [digitsOf, List.takeWhile_append_of_pos hall]
  cases rest with
  | nil => simp
  | cons c rest =>
      have hc : c.isDigit = false := hrest c rfl
      simp [hc]

/-- The whole part is read up to where its digits end. -/
theorem integerDigits_append {whole rest : List Char} (h : IsWhole whole)
    (hrest : EndsDigits rest) :
    integerDigits (whole ++ rest) = whole := by
  rcases h.start with rfl | ⟨d, ds, rfl, hd⟩
  · rfl
  · rw [integerDigits]
    · exact digitsOf_append h.digits hrest
    · intro tail htail
      rw [List.cons_append, List.cons.injEq] at htail
      exact hd htail.1

/-- The fraction is read up to where its digits end. -/
theorem fractionDigits_append {fraction rest : List Char} (hall : ∀ c ∈ fraction, c.isDigit = true)
    (hrest : EndsDigits rest) (hpoint : ∀ c ∈ rest.head?, c ≠ '.') :
    fractionDigits (fractionText fraction ++ rest) = fraction := by
  unfold fractionText
  split
  · rename_i hempty
    rw [List.isEmpty_iff.mp hempty, List.nil_append, fractionDigits]
    intro tail htail
    exact hpoint '.' (by rw [htail]; rfl) rfl
  · exact digitsOf_append hall hrest

/-- A fraction starts with a point, and so ends the whole part. -/
theorem endsDigits_fractionText {rest : List Char} (fraction : List Char)
    (hrest : EndsDigits rest) :
    EndsDigits (fractionText fraction ++ rest) := by
  unfold fractionText
  split
  · exact hrest
  · intro c hc
    cases hc
    rfl

/-- The sign of a number. -/
def signText (isNegative : Bool) : List Char :=
  if isNegative then ['-'] else []

theorem IsWhole.ne_nil {cs : List Char} (h : IsWhole cs) : cs ≠ [] := by
  rcases h.start with rfl | ⟨d, ds, rfl, -⟩ <;> simp

/-- The sign of a number is told by its first character. -/
theorem head?_signText (isNegative : Bool) {whole : List Char} (hwhole : IsWhole whole)
    (rest : List Char) :
    ((signText isNegative ++ (whole ++ rest)).head? == some '-') = isNegative := by
  cases isNegative with
  | true => rfl
  | false =>
      obtain ⟨d, ds, rfl⟩ := List.exists_cons_of_ne_nil hwhole.ne_nil
      have hd : d.isDigit = true := hwhole.digits d List.mem_cons_self
      have hne : d ≠ '-' := by
        rintro rfl
        cases hd
      simp [signText, hne]

theorem skip_append {cs rest : List Char} (p : Nat) :
    Cursor.skip cs.length ⟨p, cs ++ rest⟩ = ⟨p + cs.length, rest⟩ := by
  simp [Cursor.skip]

/-- A number is read part by part: after its sign the whole part, the fraction, and the exponent at
the start of the rest, if there is one. -/
theorem number_parts (isNegative : Bool) {whole rest : List Char} (fraction : List Char)
    (hwhole : IsWhole whole) (hfraction : ∀ c ∈ fraction, c.isDigit = true)
    (hrest : EndsDigits rest)
    (hpoint : ∀ c ∈ rest.head?, c ≠ '.') (p : Nat) :
    ∃ q, number ⟨p, signText isNegative ++ (whole ++ (fractionText fraction ++ rest))⟩ =
      match exponent? rest with
      | some (exponent, size) =>
        .ok (.real (.number isNegative
          (Magnitude.ofDecimal (ofDigits (whole ++ fraction)) (exponent - fraction.length))),
          Cursor.skip size ⟨q, rest⟩)
      | none =>
        if fraction.isEmpty then
          if digitLimit < whole.length then
            failAt (.digits whole.length)
              ⟨p, signText isNegative ++ (whole ++ (fractionText fraction ++ rest))⟩
          else
            .ok (.int (if isNegative then -(ofDigits whole : Int) else ofDigits whole), ⟨q, rest⟩)
        else
          .ok (.real (.number isNegative
            (Magnitude.ofDecimal (ofDigits (whole ++ fraction)) (-fraction.length))),
              ⟨q, rest⟩) := by
  let start : Nat := p + (signText isNegative).length
  have hsign := head?_signText isNegative hwhole (fractionText fraction ++ rest)
  have hstart : (if isNegative = true then
        Cursor.skip 1 ⟨p, signText isNegative ++ (whole ++ (fractionText fraction ++ rest))⟩
      else ⟨p, signText isNegative ++ (whole ++ (fractionText fraction ++ rest))⟩) =
      ⟨start, whole ++ (fractionText fraction ++ rest)⟩ := by
    cases isNegative <;> rfl
  have hdigits := integerDigits_append hwhole (endsDigits_fractionText fraction hrest)
  have hafter : (if fraction.isEmpty = true then
        (⟨start + whole.length, fractionText fraction ++ rest⟩ : Cursor)
      else Cursor.skip (fraction.length + 1)
        ⟨start + whole.length, fractionText fraction ++ rest⟩) =
      ⟨start + whole.length + (fractionText fraction).length, rest⟩ := by
    unfold fractionText
    split
    · rfl
    · simp [Cursor.skip, Nat.add_assoc]
  refine ⟨start + whole.length + (fractionText fraction).length, ?_⟩
  unfold number
  dsimp only
  rw [hsign, hstart]
  dsimp only
  rw [hdigits, if_neg (by simpa using hwhole.ne_nil), skip_append]
  dsimp only
  rw [fractionDigits_append hfraction hrest hpoint, hafter]
  dsimp only
  cases exponent? rest with
  | some result => rfl
  | none =>
      dsimp only
      split
      · split
        · rfl
        · rename_i hempty _
          have hnone := List.isEmpty_iff.mp hempty
          subst hnone
          rfl
      · rfl

/-! ## Integers -/

/-- The rest after a number does not go on with it. -/
def EndsNumber (rest : List Char) : Prop :=
  ∀ c ∈ rest.head?, c.isDigit = false ∧ c ≠ '.' ∧ c ≠ 'e' ∧ c ≠ 'E'

/-- What ends a number ends its digits. -/
theorem EndsNumber.endsDigits {rest : List Char} (h : EndsNumber rest) : EndsDigits rest :=
  fun c hc => (h c hc).1

/-- What ends a number is no exponent. -/
theorem exponent?_of_endsNumber {rest : List Char} (h : EndsNumber rest) :
    exponent? rest = none := by
  cases rest with
  | nil => rfl
  | cons c rest =>
      obtain ⟨-, -, he, hE⟩ := h c rfl
      simp [exponent?, he, hE]

/-- A number other than zero has no leading zero. -/
theorem head_toDigits_ne_zero {n : Nat} (h : 0 < n) :
    ∃ d ds, Nat.toDigits 10 n = d :: ds ∧ d ≠ '0' := by
  induction n using Nat.strongRecOn with
  | ind n ih =>
      rw [Nat.toDigits_eq_if (by omega)]
      split
      · rename_i hsmall
        have hdigit : ∀ d < 10, 0 < d → Nat.digitChar d ≠ '0' := by decide
        exact ⟨_, [], rfl, hdigit n hsmall h⟩
      · obtain ⟨d, ds, hds, hd⟩ := ih (n / 10) (by omega) (by omega)
        exact ⟨d, ds ++ [Nat.digitChar (n % 10)], by rw [hds, List.cons_append], hd⟩

/-- The digits of a number are a whole part. -/
theorem isWhole_toDigits (n : Nat) : IsWhole (Nat.toDigits 10 n) := by
  constructor
  · intro c hc
    exact Nat.isDigit_of_mem_toDigits (by omega) (by omega) hc
  · rcases Nat.eq_zero_or_pos n with rfl | hpos
    · exact .inl rfl
    · exact .inr (head_toDigits_ne_zero hpos)

/-- An integer is written as its sign and its digits. -/
theorem toList_toString_int (n : Int) :
    (toString n).toList = signText (decide (n < 0)) ++ Nat.toDigits 10 n.natAbs := by
  cases n with
  | ofNat m =>
      have hsign : decide ((Int.ofNat m : Int) < 0) = false := by simp
      rw [hsign]
      exact String.toList_ofList
  | negSucc m =>
      have hsign : decide (Int.negSucc m < 0) = true := by simp [Int.negSucc_lt_zero]
      rw [hsign]
      change ("-" ++ (m + 1).repr).toList = _
      rw [String.toList_append]
      exact congrArg ('-' :: ·) String.toList_ofList

/-- An integer that keeps to the limit is read as itself. -/
theorem takes_int {n : Int} (h : (Nat.toDigits 10 n.natAbs).length ≤ digitLimit) {rest : List Char}
    (hrest : EndsNumber rest) : Takes number (toString n).toList rest (.int n) := by
  intro p
  obtain ⟨q, hq⟩ := number_parts (decide (n < 0)) [] (isWhole_toDigits n.natAbs) (by simp)
    hrest.endsDigits (fun c hc => (hrest c hc).2.1) p
  refine ⟨q, ?_⟩
  rw [exponent?_of_endsNumber hrest] at hq
  dsimp only at hq
  rw [if_pos List.isEmpty_nil, if_neg (by omega), ofDigits_toDigits] at hq
  have hvalue : (if decide (n < 0) = true then -(n.natAbs : Int) else n.natAbs) = n := by
    by_cases hneg : n < 0
    · simp only [hneg, decide_true, if_true]
      omega
    · simp only [hneg, decide_false, Bool.false_eq_true, if_false]
      omega
  rw [hvalue] at hq
  rw [toList_toString_int, List.append_assoc]
  exact hq

/-! ## Other numbers -/

/-- The text of an exponent: its letter, its sign and its digits. -/
structure IsPower (cs : List Char) : Prop where
  spelled : ∃ sign digits, cs = 'e' :: sign :: digits ∧ (sign = '+' ∨ sign = '-') ∧ digits ≠ [] ∧
    ∀ c ∈ digits, c.isDigit = true

/-- A power is read as its exponent. -/
theorem IsPower.exponent? {power : List Char} (h : IsPower power) :
    ∃ exponent, ∀ rest, EndsDigits rest →
      JsonReader.exponent? (power ++ rest) = some (exponent, power.length) := by
  obtain ⟨sign, digits, rfl, hsign, hne, hall⟩ := h.spelled
  obtain ⟨d, ds, rfl⟩ := List.exists_cons_of_ne_nil hne
  refine ⟨if sign = '-' then -(ofDigits (d :: ds) : Int) else ofDigits (d :: ds),
    fun rest hrest => ?_⟩
  have hdigits : digitsOf (d :: (ds ++ rest)) = d :: ds := digitsOf_append hall hrest
  rcases hsign with rfl | rfl
  · simp [JsonReader.exponent?, hdigits]
    omega
  · simp [JsonReader.exponent?, hdigits]
    omega

/-- The text of a number that is no integer: a whole part with a fraction, with an exponent, or with
both. -/
structure IsRealText (cs : List Char) : Prop where
  parts : ∃ whole fraction power, cs = whole ++ (fractionText fraction ++ power) ∧ IsWhole whole ∧
    (∀ c ∈ fraction, c.isDigit = true) ∧ (IsPower power ∨ power = [] ∧ fraction ≠ [])

/-- The text of a number that is no integer is read as one number, whatever follows. -/
theorem IsRealText.takes {cs : List Char} (h : IsRealText cs) (isNegative : Bool) :
    ∃ r, ∀ rest, EndsNumber rest → Takes number (signText isNegative ++ cs) rest (.real r) := by
  obtain ⟨whole, fraction, power, rfl, hwhole, hfraction, hpower | ⟨rfl, hne⟩⟩ := h.parts
  · obtain ⟨exponent, hexponent⟩ := hpower.exponent?
    refine ⟨.number isNegative (Magnitude.ofDecimal (ofDigits (whole ++ fraction))
      (exponent - fraction.length)), fun rest hrest p => ?_⟩
    have hends : ∀ c ∈ (power ++ rest).head?, c.isDigit = false ∧ c ≠ '.' := by
      obtain ⟨sign, digits, rfl, -⟩ := hpower.spelled
      intro c hc
      cases hc
      decide
    obtain ⟨q, hq⟩ := number_parts isNegative fraction hwhole hfraction
      (fun c hc => (hends c hc).1) (fun c hc => (hends c hc).2) p
    rw [hexponent rest hrest.endsDigits] at hq
    dsimp only at hq
    rw [skip_append] at hq
    refine ⟨q + power.length, ?_⟩
    simpa only [List.append_assoc] using hq
  · refine ⟨.number isNegative (Magnitude.ofDecimal (ofDigits (whole ++ fraction))
      (-fraction.length)), fun rest hrest p => ?_⟩
    obtain ⟨q, hq⟩ := number_parts isNegative fraction hwhole hfraction hrest.endsDigits
      (fun c hc => (hrest c hc).2.1) p
    rw [exponent?_of_endsNumber hrest] at hq
    dsimp only at hq
    rw [if_neg (by simpa using hne)] at hq
    refine ⟨q, ?_⟩
    simpa only [List.append_assoc, List.append_nil] using hq

theorem fractionText_of_ne_nil {fraction : List Char} (h : fraction ≠ []) :
    fractionText fraction = '.' :: fraction := by
  rw [fractionText, if_neg (by simpa using h)]

/-- A whole part with a fraction. -/
theorem isRealText_point {whole fraction : List Char} (hwhole : IsWhole whole) (hne : fraction ≠ [])
    (hfraction : ∀ c ∈ fraction, c.isDigit = true) : IsRealText (whole ++ '.' :: fraction) :=
  ⟨whole, fraction, [], by rw [fractionText_of_ne_nil hne, List.append_nil], hwhole, hfraction,
    .inr ⟨rfl, hne⟩⟩

theorem isDigit_of_mem_zeros {c : Char} {n : Nat} (h : c ∈ List.replicate n '0') :
    c.isDigit = true := by
  rw [List.eq_of_mem_replicate h]
  rfl

/-- Decimals are written as numbers that are no integers. -/
theorem isRealText_render (d : Decimal) : IsRealText (d.render .real).toList := by
  have hdigit : ∀ c ∈ ['0'], c.isDigit = true := List.forall_mem_singleton.mpr rfl
  have hzero : IsWhole ['0'] := ⟨hdigit, .inl rfl⟩
  have hkeep : Layout.real.keepPoint = true := rfl
  have hdigits : ∀ c ∈ Nat.toDigits 10 d.digits, c.isDigit = true := fun c hc =>
    Nat.isDigit_of_mem_toDigits (by omega) (by omega) hc
  unfold Decimal.render
  dsimp only
  by_cases hpos : d.digits = 0
  · rw [if_pos hpos, if_pos hkeep]
    exact isRealText_point hzero (List.cons_ne_nil '0' []) hdigit
  rw [if_neg hpos]
  obtain ⟨c, cs, hcs, hc⟩ := head_toDigits_ne_zero (Nat.pos_of_ne_zero hpos)
  rw [hcs] at hdigits ⊢
  have hwhole {more : List Char} (hmore : ∀ x ∈ more, x.isDigit = true) : IsWhole (c :: more) := by
    refine ⟨fun x hx => ?_, .inr ⟨c, more, rfl, hc⟩⟩
    rcases List.mem_cons.mp hx with rfl | hx
    · exact hdigits x List.mem_cons_self
    · exact hmore x hx
  have hrest : ∀ x ∈ cs, x.isDigit = true := fun x hx => hdigits x (List.mem_cons_of_mem _ hx)
  generalize hplace : ((c :: cs).length : Int) + d.exponent = place
  by_cases hpositional : Layout.real.leastPlace ≤ place ∧ place ≤ Layout.real.greatestPlace
  · rw [if_pos hpositional]
    by_cases hsmall : place ≤ 0
    · rw [if_pos hsmall, String.toList_ofList]
      refine isRealText_point hzero (by simp) fun x hx => ?_
      rcases List.mem_append.mp hx with hx | hx
      · exact isDigit_of_mem_zeros hx
      · exact hdigits x hx
    rw [if_neg hsmall]
    by_cases hlong : ((c :: cs).length : Int) ≤ place
    · rw [if_pos hlong, String.toList_ofList, if_pos hkeep]
      refine isRealText_point (hwhole fun x hx => ?_) (List.cons_ne_nil '0' []) hdigit
      rcases List.mem_append.mp hx with hx | hx
      · exact hrest x hx
      · exact isDigit_of_mem_zeros hx
    · rw [if_neg hlong, String.toList_ofList]
      obtain ⟨k, hk⟩ : ∃ k, place.toNat = k + 1 := ⟨place.toNat - 1, by omega⟩
      have hshort : k < cs.length := by
        rw [List.length_cons] at hlong
        omega
      rw [hk, List.take_succ_cons, List.drop_succ_cons]
      refine isRealText_point (hwhole fun x hx => hrest x (List.mem_of_mem_take hx)) ?_
        fun x hx => hrest x (List.mem_of_mem_drop hx)
      simpa using hshort
  · rw [if_neg hpositional, String.toList_ofList]
    generalize hsize : Nat.toDigits 10 (place - 1).natAbs = size
    refine ⟨[c], cs, 'e' :: (if place - 1 < 0 then '-' else '+') ::
      (List.replicate (2 - size.length) '0' ++ size),
        by simp [fractionText], hwhole (by simp), hrest,
      .inl ⟨_, _, rfl, ?_, ?_, fun x hx => ?_⟩⟩
    · by_cases hneg : place - 1 < 0 <;> simp [hneg]
    · rw [← hsize]
      simp
    · rcases List.mem_append.mp hx with hx | hx
      · exact isDigit_of_mem_zeros hx
      · rw [← hsize] at hx
        exact Nat.isDigit_of_mem_toDigits (by omega) (by omega) hx

end AikenForge.JsonReader
