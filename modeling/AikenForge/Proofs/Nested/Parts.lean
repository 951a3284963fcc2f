/-
# Parts of a nested text

Text is split at a separator where all its brackets are closed. Parts whose own brackets are
balanced, with the separator inside of brackets only, come out of it as they were joined.
-/

import AikenForge.Proofs.Directive.Pipe
import AikenForge.Proofs.Outcome.Rendering

namespace AikenForge.TypeDeclaration

open AikenForge.Text
open AikenForge.Lowering (strip_cons_blank strip_append_blank)

/-! ## Balanced text -/

/-- The brackets of a text are balanced: as many are closed as are opened, and none before it is
opened. -/
structure Balanced (cs : List Char) : Prop where
  closed : balance cs = 0
  nonneg : ∀ first rest, cs = first ++ rest → 0 ≤ balance first

/-- Whether a text has no brackets. -/
def isFlat (cs : List Char) : Bool :=
  cs.all fun c => nesting c == 0

/-- A flat text has no brackets to balance. -/
theorem balance_of_isFlat {cs : List Char} (h : isFlat cs = true) : balance cs = 0 := by
  have hall : ∀ c ∈ cs, nesting c = 0 := fun c hc => eq_of_beq (List.all_eq_true.mp h c hc)
  rw [balance, List.map_congr_left hall]
  simp

namespace Balanced

variable {cs ds : List Char}

theorem of_isFlat (h : isFlat cs = true) : Balanced cs where
  closed := balance_of_isFlat h
  nonneg first rest heq := by
    have hfirst : isFlat first = true := by
      rw [heq, isFlat, List.all_append, Bool.and_eq_true] at h
      exact h.1
    exact Int.le_of_eq (balance_of_isFlat hfirst).symm

/-- Balanced texts one after the other. -/
theorem append (hcs : Balanced cs) (hds : Balanced ds) : Balanced (cs ++ ds) := by
  refine ⟨by rw [balance_append, hcs.closed, hds.closed, Int.add_zero], fun first rest heq => ?_⟩
  rcases List.append_eq_append_iff.mp heq with ⟨more, rfl, hds'⟩ | ⟨more, hcs', rfl⟩
  · rw [balance_append, hcs.closed, Int.zero_add]
    exact hds.nonneg more rest hds'
  · exact hcs.nonneg first more hcs'

/-- Balanced texts joined by something balanced. -/
theorem intercalate {glue : String} (hglue : Balanced glue.toList) {texts : List String}
    (h : ∀ text ∈ texts, Balanced text.toList) : Balanced (glue.intercalate texts).toList := by
  rcases eq_or_ne texts [] with rfl | hne
  · exact .of_isFlat rfl
  refine intercalate_induction (p := fun text => Balanced text.toList) hne ?_ h
  intro first second hfirst hsecond
  rw [String.toList_append, String.toList_append]
  exact (hfirst.append hglue).append hsecond

section Bracketed

variable {opening closing : Char} (hopening : nesting opening = 1)

include hopening

theorem balance_opening (cs : List Char) : balance (opening :: cs) = 1 + balance cs := by
  simp [balance, hopening]

/-- Behind an opening bracket balanced text stays at depth one at least. -/
theorem pos_of_opening (h : Balanced cs) {first rest : List Char}
    (heq : opening :: cs = first ++ rest) (hfirst : first ≠ []) : 0 < balance first := by
  obtain ⟨c, more, rfl⟩ := List.exists_cons_of_ne_nil hfirst
  obtain ⟨rfl, hmore⟩ := List.cons.inj heq
  have hdepth := h.nonneg more rest hmore
  rw [balance_opening hopening]
  omega

/-- A balanced text in a pair of brackets. -/
theorem bracketed (hclosing : nesting closing = -1) (h : Balanced cs) :
    Balanced (opening :: cs ++ [closing]) := by
  have hall : balance (opening :: cs ++ [closing]) = 0 := by
    rw [balance_append, balance_opening hopening, h.closed]
    simp [balance, hclosing]
  refine ⟨hall, fun first rest heq => ?_⟩
  rcases eq_or_ne first [] with rfl | hfirst
  · exact Int.le_refl 0
  rcases List.eq_nil_or_concat rest with rfl | ⟨more, c, rfl⟩
  · rw [List.append_nil] at heq
    exact Int.le_of_eq (heq ▸ hall.symm)
  · rw [List.concat_eq_append, ← List.append_assoc] at heq
    exact Int.le_of_lt (h.pos_of_opening hopening (List.append_inj_left' heq rfl) hfirst)

end Bracketed

end Balanced

/-! ## Text that is not split -/

/-- The separator stands in a text where the brackets before it are balanced. -/
def HasOpen (separator : Char) (cs : List Char) : Prop :=
  ∃ first rest, cs = first ++ separator :: rest ∧ balance first = 0

/-- A text that no splitting cuts: its brackets are balanced, and the separator stands inside of
them only. -/
structure Whole (separator : Char) (cs : List Char) : Prop extends Balanced cs where
  inside : ¬ HasOpen separator cs

namespace Whole

variable {separator : Char} {cs ds : List Char}

/-- Text with neither a bracket nor the separator. -/
theorem of_isFlat (h : isFlat cs = true) (hseparator : separator ∉ cs) : Whole separator cs where
  toBalanced := .of_isFlat h
  inside := by
    rintro ⟨first, rest, rfl, -⟩
    simp at hseparator

theorem append (hcs : Whole separator cs) (hds : Whole separator ds) :
    Whole separator (cs ++ ds) := by
  refine ⟨hcs.toBalanced.append hds.toBalanced, ?_⟩
  rintro ⟨first, rest, heq, hfirst⟩
  rcases List.append_eq_append_iff.mp heq with ⟨more, rfl, hds'⟩ | ⟨more, hcs', hmore⟩
  · rw [balance_append, hcs.closed, Int.zero_add] at hfirst
    exact hds.inside ⟨more, rest, hds', hfirst⟩
  · cases more with
    | nil => exact hds.inside ⟨[], rest, hmore.symm, rfl⟩
    | cons c more =>
        obtain ⟨rfl, rfl⟩ := List.cons.inj hmore
        exact hcs.inside ⟨first, more, hcs', hfirst⟩

/-- Balanced text in brackets is not split, wherever the separator stands in it. -/
theorem bracketed {opening closing : Char} (hopening : nesting opening = 1)
    (hclosing : nesting closing = -1) (hseparator : nesting separator = 0) (h : Balanced cs) :
    Whole separator (opening :: cs ++ [closing]) := by
  refine ⟨h.bracketed hopening hclosing, ?_⟩
  rintro ⟨first, rest, heq, hfirst⟩
  rcases List.eq_nil_or_concat rest with rfl | ⟨more, c, rfl⟩
  · obtain rfl : closing = separator := List.singleton_inj.mp (List.append_inj_right' heq rfl)
    omega
  · rw [List.concat_eq_append, ← List.cons_append, ← List.append_assoc] at heq
    have hmore := List.append_inj_left' heq rfl
    rcases eq_or_ne first [] with rfl | hne
    · obtain ⟨rfl, -⟩ := List.cons.inj hmore
      omega
    · have hdepth := h.pos_of_opening hopening hmore hne
      omega

end Whole

/-! ## Splitting -/

section Splitting

variable {separator : Char} (hseparator : nesting separator = 0)

include hseparator

/-- A text is cut at the first separator that is not inside of brackets. -/
theorem splitFrom_part {cs : List Char} (h : Whole separator cs) (rest : List Char) :
    splitFrom [separator] 0 0 [] (cs ++ separator :: rest) =
      strip (.ofList cs) :: splitFrom [separator] 0 0 [] rest := by
  have hinside : ∀ first more, cs = first ++ separator :: more → 0 + balance first ≠ 0 := by
    intro first more heq hbalance
    exact h.inside ⟨first, more, heq, by simpa using hbalance⟩
  rw [splitFrom_append hseparator hinside, h.closed]
  simp [splitFrom, hseparator]

/-- A whole text at the end is the last part. -/
theorem splitFrom_last {cs : List Char} (h : Whole separator cs) (hfull : strip (.ofList cs) ≠ "") :
    splitFrom [separator] 0 0 [] cs = [strip (.ofList cs)] := by
  have hinside : ∀ first more, cs = first ++ separator :: more → 0 + balance first ≠ 0 := by
    intro first more heq hbalance
    exact h.inside ⟨first, more, heq, by simpa using hbalance⟩
  have hsplit := splitFrom_append hseparator hinside [] []
  simpa [splitFrom, String.isEmpty_iff, hfull] using hsplit

end Splitting

/-- A part of a text: not empty, without blanks at its ends, and not split itself. -/
structure IsPart (separator : Char) (text : String) : Prop extends Whole separator text.toList where
  full : text ≠ ""
  trimmed : strip text = text

/-- Parts come out of a joined text as they were joined. -/
theorem splitTopLevel_intercalate {separator : Char} (hseparator : nesting separator = 0)
    {parts : List String} (h : ∀ part ∈ parts, IsPart separator part) :
    splitTopLevel (.singleton separator) ((String.singleton separator).intercalate parts) =
      parts := by
  rw [splitTopLevel, String.toList_singleton]
  induction parts with
  | nil => simp [splitFrom, strip, dropWhileEnd]
  | cons part rest ih =>
      have hpart := h part List.mem_cons_self
      cases rest with
      | nil =>
          rw [String.intercalate_singleton, splitFrom_last hseparator hpart.toWhole] <;>
            rw [String.ofList_toList, hpart.trimmed]
          exact hpart.full
      | cons next others =>
          have hrest := ih fun other hother => h other (List.mem_cons_of_mem _ hother)
          rw [String.intercalate_cons_cons]
          simp only [String.toList_append, String.toList_singleton, List.append_assoc,
            List.singleton_append]
          rw [splitFrom_part hseparator hpart.toWhole, hrest, String.ofList_toList, hpart.trimmed]

/-- So they do if there is a blank behind each separator and around the whole text. -/
theorem splitTopLevel_spaced {parts : List String} (h : ∀ part ∈ parts, IsPart ',' part) :
    splitTopLevel "," (" " ++ ", ".intercalate parts ++ " ") = parts := by
  have hcomma : nesting ',' = 0 := by decide
  have hblank : Whole ',' [' '] := .of_isFlat (by decide) (by decide)
  -- Each part has a blank before it, which the induction carries as the part's own.
  have hlead : ∀ (rest : List String) (part : String), IsPart ',' part →
      (∀ other ∈ rest, IsPart ',' other) →
      splitFrom [','] 0 0 [] ((", ".intercalate ((" " ++ part) :: rest) ++ " ").toList) =
        part :: rest := by
    intro rest
    induction rest with
    | nil =>
        intro part hpart _
        have hstrip : strip (.ofList (' ' :: part.toList ++ [' '])) = part := by
          rw [strip_append_blank, strip_cons_blank, String.ofList_toList, hpart.trimmed]
        have hlast := splitFrom_last hcomma ((hblank.append hpart.toWhole).append hblank)
        rw [List.singleton_append, hstrip] at hlast
        simpa using hlast hpart.full
    | cons next others ih =>
        intro part hpart hrest
        have hnext := ih next (hrest next List.mem_cons_self)
          fun other hother => hrest other (List.mem_cons_of_mem _ hother)
        have hjoin : (", ".intercalate ((" " ++ part) :: next :: others) ++ " ").toList =
            (' ' :: part.toList) ++ ',' ::
              (", ".intercalate ((" " ++ next) :: others) ++ " ").toList := by
          cases others <;> simp [String.intercalate_cons_cons]
        have hsplit := splitFrom_part hcomma (hblank.append hpart.toWhole)
        simp only [List.singleton_append] at hsplit
        rw [hjoin, hsplit, hnext, strip_cons_blank, String.ofList_toList, hpart.trimmed]
  cases parts with
  | nil => rfl
  | cons part rest =>
      have hparts := hlead rest part (h part List.mem_cons_self)
        fun other hother => h other (List.mem_cons_of_mem _ hother)
      have hjoin : " " ++ ", ".intercalate (part :: rest) =
          ", ".intercalate ((" " ++ part) :: rest) := by
        cases rest <;> simp [String.intercalate_cons_cons, String.append_assoc]
      rw [splitTopLevel, hjoin]
      exact hparts

end AikenForge.TypeDeclaration
