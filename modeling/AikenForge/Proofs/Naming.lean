/-
# Names keep their form

Snake case only adds underscores: between two neighbours of the lower-case name, at most one at each
place, and none at its ends. So it loses no character, and a second conversion finds nothing to do.
The same holds of the name of a constant, which opens with an underscore only if the source name has
nothing else. All of this is said of ASCII names; beyond ASCII, a lower-case form can have more
characters than the letter that it stands for.
-/

import Mathlib.Data.List.TakeWhile
import AikenForge.Naming

namespace AikenForge.Naming

open AikenForge.Text

/-! ## Lower case of ASCII -/

section Ascii

variable {c : Char} {cs : List Char}

/-- A property of ASCII characters is told from their numbers. -/
theorem of_ascii {p : Char → Prop} (hall : ∀ n < 128, p (Char.ofNat n)) (hc : c.toNat < 128) :
    p c := by
  have h := hall c.toNat hc
  rwa [Char.ofNat_toNat] at h

/-- Nothing is upper case after lower-casing. -/
theorem isUpper_toLower (hc : c.toNat < 128) : isUpper c.toLower = false :=
  of_ascii (p := fun c => isUpper c.toLower = false) (by decide) hc

theorem ascii_toLower (hc : c.toNat < 128) : c.toLower.toNat < 128 :=
  of_ascii (p := fun c => c.toLower.toNat < 128) (by decide) hc

/-- What is not upper case stays. -/
theorem toLower_of_not_isUpper (hc : c.toNat < 128) (h : isUpper c = false) : c.toLower = c :=
  of_ascii (p := fun c => isUpper c = false → c.toLower = c) (by decide) hc h

/-- Lower-casing makes no underscores. -/
theorem toLower_eq_underscore_iff (hc : c.toNat < 128) : c.toLower = '_' ↔ c = '_' :=
  of_ascii (p := fun c => c.toLower = '_' ↔ c = '_') (by decide) hc

/-- In ASCII, lower case does not depend on what is around a character. -/
theorem lowerAfter_of_ascii (before : List Char) (h : ∀ c ∈ cs, c.toNat < 128) :
    lowerAfter before cs = cs.map Char.toLower := by
  induction cs generalizing before with
  | nil => rfl
  | cons c rest ih =>
      have hc := h c List.mem_cons_self
      have hsigma : (c == 'Σ') = false := by
        rw [beq_eq_false_iff_ne]
        rintro rfl
        exact absurd hc (by decide)
      rw [lowerAfter, hsigma, ih (c :: before) fun d hd => h d (List.mem_cons_of_mem _ hd)]
      simp [lowerChar, hc]

/-- ASCII is lowered character by character. -/
theorem lowerText_of_ascii (h : ∀ c ∈ cs, c.toNat < 128) : lowerText cs = cs.map Char.toLower :=
  lowerAfter_of_ascii [] h

end Ascii

/-! ## Underscores between neighbours -/

/-- The second text is the first with at most one underscore put between any two neighbours, and
none at its ends. -/
inductive Spaced : List Char → List Char → Prop
  | nil : Spaced [] []
  | single (c : Char) : Spaced [c] [c]
  | next {c d : Char} {cs ds : List Char} (h : Spaced (d :: cs) ds) :
      Spaced (c :: d :: cs) (c :: ds)
  | gap {c d : Char} {cs ds : List Char} (h : Spaced (d :: cs) ds) :
      Spaced (c :: d :: cs) (c :: '_' :: ds)

namespace Spaced

variable {cs ds : List Char}

theorem refl (cs : List Char) : Spaced cs cs := by
  induction cs with
  | nil => exact .nil
  | cons c rest ih =>
      cases rest with
      | nil => exact .single c
      | cons d rest => exact .next ih

/-- What a map of characters does to the text it does to the words put apart. -/
theorem map {f : Char → Char} (hf : f '_' = '_') (h : Spaced cs ds) :
    Spaced (cs.map f) (ds.map f) := by
  induction h with
  | nil => exact .nil
  | single c => exact .single (f c)
  | next _ ih => exact .next ih
  | gap _ ih =>
      rw [List.map_cons, List.map_cons, List.map_cons, List.map_cons, hf]
      exact .gap ih

/-- Without underscores the two texts are the same. -/
theorem filter_eq (h : Spaced cs ds) : ds.filter (· != '_') = cs.filter (· != '_') := by
  induction h with
  | nil => rfl
  | single c => rfl
  | next _ ih => rw [List.filter_cons, List.filter_cons, ih]
  | @gap c _ _ ds _ ih =>
      have hgap : ('_' :: ds).filter (· != '_') = ds.filter (· != '_') := rfl
      rw [List.filter_cons, hgap, ih, List.filter_cons (x := c)]

/-- Putting words apart adds underscores only. -/
theorem eq_or_mem (h : Spaced cs ds) {c : Char} (hc : c ∈ ds) : c = '_' ∨ c ∈ cs := by
  by_cases hunder : c = '_'
  · exact .inl hunder
  · have hmem : c ∈ ds.filter (· != '_') := by simp [hc, hunder]
    rw [h.filter_eq] at hmem
    exact .inr (List.mem_filter.mp hmem).1

/-- It adds none in front. -/
theorem head?_eq (h : Spaced cs ds) : ds.head? = cs.head? := by
  cases h <;> rfl

theorem ne_nil (h : Spaced cs ds) (hne : cs ≠ []) : ds ≠ [] := by
  intro hnil
  exact hne (List.head?_eq_none_iff.mp (by rw [← h.head?_eq, hnil]; rfl))

end Spaced

/-- Separating words only inserts underscores. -/
theorem spaced_separateWords (cs : List Char) : Spaced cs (separateWords cs) := by
  fun_induction separateWords cs with
  | case1 a b rest hstart ih => exact .gap ih
  | case2 a b rest hstart ih => exact .next ih
  | case3 cs hshort => exact .refl cs

/-- A new word starts with an upper-case letter, so a text without one is one word. -/
theorem separateWords_eq_self {cs : List Char} (h : ∀ c ∈ cs, c.isUpper = false) :
    separateWords cs = cs := by
  fun_induction separateWords cs with
  | case1 a b rest hstart ih =>
      simp [startsWord, h b (by simp)] at hstart
  | case2 a b rest hstart ih => rw [ih fun c hc => h c (List.mem_cons_of_mem _ hc)]
  | case3 cs hshort => rfl

/-! ## Snake case -/

section SnakeCase

variable {name : String}

/-- The snake case of a name is the lower-case name with underscores between neighbours. -/
theorem spaced_toSnakeCase (h : ∀ c ∈ name.toList, c.toNat < 128) :
    Spaced (lowerText name.toList) (toSnakeCase name).toList := by
  have hspaced := spaced_separateWords name.toList
  have hwords : ∀ c ∈ separateWords name.toList, c.toNat < 128 := by
    intro c hc
    rcases hspaced.eq_or_mem hc with rfl | hc
    · decide
    · exact h c hc
  unfold toSnakeCase
  dsimp only
  split
  · rw [String.toList_ofList]
    exact .refl _
  · rw [String.toList_ofList, lowerText_of_ascii h, lowerText_of_ascii hwords]
    exact hspaced.map rfl

/-- Snake case stays within ASCII and has no upper-case letter. -/
theorem lower_of_mem_toSnakeCase (h : ∀ c ∈ name.toList, c.toNat < 128) {c : Char}
    (hc : c ∈ (toSnakeCase name).toList) : c.toNat < 128 ∧ isUpper c = false := by
  rcases (spaced_toSnakeCase h).eq_or_mem hc with rfl | hc
  · decide
  · rw [lowerText_of_ascii h] at hc
    obtain ⟨d, hd, rfl⟩ := List.mem_map.mp hc
    exact ⟨ascii_toLower (h d hd), isUpper_toLower (h d hd)⟩

/-- A name without upper-case letters is in snake case already. -/
theorem toSnakeCase_eq_self (h : ∀ c ∈ name.toList, c.toNat < 128 ∧ isUpper c = false) :
    toSnakeCase name = name := by
  have hlower : lowerText name.toList = name.toList := by
    rw [lowerText_of_ascii fun c hc => (h c hc).1]
    exact (List.map_congr_left fun c hc => toLower_of_not_isUpper (h c hc).1 (h c hc).2).trans
      (List.map_id' _)
  have hupper : ∀ c ∈ name.toList, c.isUpper = false := by
    intro c hc
    have hisUpper := (h c hc).2
    rwa [isUpper, if_pos (h c hc).1] at hisUpper
  unfold toSnakeCase
  dsimp only
  rw [separateWords_eq_self hupper, hlower, ite_self, String.ofList_toList]

/-- A name in snake case stays as it is. -/
theorem toSnakeCase_idem (h : ∀ c ∈ name.toList, c.toNat < 128) :
    toSnakeCase (toSnakeCase name) = toSnakeCase name :=
  toSnakeCase_eq_self fun _ hc => lower_of_mem_toSnakeCase h hc

end SnakeCase

/-! ## Constants -/

section Constants

variable {name : String}

/-- Nothing is left of a name of underscores only. -/
theorem dropUnderscores_eq_nil_iff {cs : List Char} :
    dropUnderscores cs = [] ↔ ∀ c ∈ cs, c = '_' := by
  simp [dropUnderscores, List.dropWhile_eq_nil_iff]

/-- No underscore is left in front. -/
theorem head?_dropUnderscores (cs : List Char) : (dropUnderscores cs).head? ≠ some '_' := by
  have hhead := List.head?_dropWhile_not (· == '_') cs
  intro h
  rw [dropUnderscores] at h
  rw [h] at hhead
  cases hhead

theorem dropUnderscores_eq_self {cs : List Char} (h : cs.head? ≠ some '_') :
    dropUnderscores cs = cs := by
  cases cs with
  | nil => rfl
  | cons c rest =>
      rw [dropUnderscores, List.dropWhile_cons_of_neg]
      rintro hc
      exact h (congrArg some (eq_of_beq hc))

/-- A name of underscores alone is the name of its constant. -/
theorem constantName_of_underscores (h : ∀ c ∈ name.toList, c = '_') :
    constantName name = name := by
  rw [constantName, dropUnderscores_eq_nil_iff.mpr h]
  rfl

/-- The snake case of a text that does not open with an underscore does not open with one either. -/
theorem head?_toSnakeCase (hascii : ∀ c ∈ name.toList, c.toNat < 128)
    (h : name.toList.head? ≠ some '_') : (toSnakeCase name).toList.head? ≠ some '_' := by
  rw [(spaced_toSnakeCase hascii).head?_eq, lowerText_of_ascii hascii, List.head?_map]
  intro hhead
  obtain ⟨c, hc, hlower⟩ := Option.map_eq_some_iff.mp hhead
  rw [toLower_eq_underscore_iff (hascii c (List.mem_of_mem_head? hc))] at hlower
  exact h (hlower ▸ hc)

/-- Any other constant has the snake case of what follows the underscores, which is in snake case
and opens with another character. -/
theorem constantName_of_word (hascii : ∀ c ∈ name.toList, c.toNat < 128)
    (h : ¬ ∀ c ∈ name.toList, c = '_') :
    toSnakeCase (constantName name) = constantName name ∧
      ∃ c, (constantName name).toList.head? = some c ∧ c ≠ '_' := by
  have hword : ∀ c ∈ (String.ofList (dropUnderscores name.toList)).toList, c.toNat < 128 := by
    intro c hc
    rw [String.toList_ofList] at hc
    exact hascii c ((List.dropWhile_sublist _).subset hc)
  have hhead := head?_toSnakeCase hword (by
    rw [String.toList_ofList]
    exact head?_dropUnderscores _)
  have hne : (toSnakeCase (.ofList (dropUnderscores name.toList))).toList ≠ [] := by
    refine (spaced_toSnakeCase hword).ne_nil ?_
    rw [lowerText_of_ascii hword, String.toList_ofList]
    simpa [dropUnderscores_eq_nil_iff] using h
  have hname : constantName name = toSnakeCase (.ofList (dropUnderscores name.toList)) := by
    rw [constantName, if_neg]
    simpa [String.isEmpty_iff, ← String.toList_eq_nil_iff] using hne
  rw [hname]
  obtain ⟨c, rest, hcons⟩ := List.exists_cons_of_ne_nil hne
  rw [hcons] at hhead ⊢
  exact ⟨toSnakeCase_idem hword, c, rfl, fun hc => hhead (congrArg some hc)⟩

/-- The name of a constant stays as it is. -/
theorem constantName_idem (hascii : ∀ c ∈ name.toList, c.toNat < 128) :
    constantName (constantName name) = constantName name := by
  by_cases h : ∀ c ∈ name.toList, c = '_'
  · rw [constantName_of_underscores h]
    exact constantName_of_underscores h
  · obtain ⟨hsnake, c, hhead, hc⟩ := constantName_of_word hascii h
    have hdrop : dropUnderscores (constantName name).toList = (constantName name).toList :=
      dropUnderscores_eq_self (by simpa [hhead] using hc)
    have hfull : (constantName name).isEmpty = false := by
      rw [Bool.eq_false_iff, ne_eq, String.isEmpty_iff]
      intro hempty
      rw [hempty] at hhead
      cases hhead
    rw [constantName, hdrop, String.ofList_toList, hsnake]
    simp [hfull]

end Constants

/-- Conversions of names are stable. For an ASCII name, a second conversion to snake case or to the
name of a constant changes nothing. Snake case has no upper-case letter; it is the lower-case name
with underscores put between neighbours, and the same as that name without underscores. The name of
a constant opens with an underscore only where there is nothing else to open with. -/
theorem naming_stable {name : String} (h : ∀ c ∈ name.toList, c.toNat < 128) :
    toSnakeCase (toSnakeCase name) = toSnakeCase name ∧
    constantName (constantName name) = constantName name ∧
    (∀ c ∈ (toSnakeCase name).toList, isUpper c = false) ∧
    Spaced (lowerText name.toList) (toSnakeCase name).toList ∧
    (toSnakeCase name).toList.filter (· != '_') = (lowerText name.toList).filter (· != '_') ∧
    ((constantName name).toList.head? = some '_' → ∀ c ∈ name.toList, c = '_') := by
  have hspaced := spaced_toSnakeCase h
  refine ⟨toSnakeCase_idem h, constantName_idem h, fun c hc => (lower_of_mem_toSnakeCase h hc).2,
    hspaced, hspaced.filter_eq, fun hhead => ?_⟩
  by_contra hword
  obtain ⟨-, c, hc, hne⟩ := constantName_of_word h hword
  exact hne (Option.some.inj (hc.symm.trans hhead))

/-- An acronym, a digit and a change of case in one name, with an underscore before it for the
constant. -/
theorem naming_stable_acronym :
    (∀ c ∈ "_HTTPServer2Go".toList, c.toNat < 128) ∧
    constantName "_HTTPServer2Go" = "http_server2_go" ∧
    constantName (constantName "_HTTPServer2Go") = constantName "_HTTPServer2Go" := by
  have hascii : ∀ c ∈ "_HTTPServer2Go".toList, c.toNat < 128 := by simp
  exact ⟨hascii, by decide, (naming_stable hascii).2.1⟩

end AikenForge.Naming
