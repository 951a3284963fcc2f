/-
# The lengths of literals

A string literal is never shorter than the text it stands for: no escape stands for more characters
than it is written with, and what neighbouring literals and the parts of a formatted literal are
joined to has been written piece by piece. The texts inside the expressions of a formatted literal
are no longer than what is written there.
-/

import AikenForge.Source.Grammar.Formatted
import AikenForge.Source.Walk
import Mathlib.Algebra.GroupWithZero.Nat

namespace AikenForge.Source

/-! ## Escapes -/

/-- A code takes as many characters as it has digits. -/
theorem hexCode?_length {width code : Nat} {cs rest : List Char}
    (h : hexCode? width cs = some (code, rest)) : rest.length + width = cs.length := by
  unfold hexCode? at h
  dsimp only at h
  split at h
  · rename_i hdigits
    cases h
    have hwidth := (Bool.and_eq_true _ _ ▸ hdigits).1
    simp only [List.length_take, decide_eq_true_eq] at hwidth
    rw [List.length_drop]
    omega
  · cases h

variable {names : CharacterNames}

/-- A named character takes its name away. -/
theorem namedPoint?_length {point : Nat} {cs rest : List Char}
    (h : namedPoint? names cs = some (point, rest)) : rest.length < cs.length := by
  unfold namedPoint? at h
  split at h
  · rename_i inside
    dsimp only at h
    split at h
    · cases h
    · rename_i mark after hafter
      split at h
      · cases h
      · obtain ⟨c, -, hpair⟩ := Option.map_eq_some_iff.mp h
        cases hpair
        have := (List.dropWhile_suffix (l := inside) (· != '\x7d')).length_le
        rw [hafter] at this
        simp only [List.length_cons] at this ⊢
        omega
  · cases h

/-- What an escape stands for is no longer than the escape with its backslash. -/
theorem readEscape_length {isBytes : Bool} {cs rest : List Char} {plain : CodePoints}
    (h : readEscape names isBytes cs = some (plain, rest)) :
    plain.length + rest.length ≤ cs.length + 1 := by
  unfold readEscape at h
  split at h
  · cases h
    simp
  · cases h
    simp
    omega
  · rename_i c after _
    split at h
    · cases h
      simp
      omega
    split at h
    · cases h
      simp only [List.length_cons, List.length_nil, List.length_drop]
      omega
    split at h
    · obtain ⟨⟨code, final⟩, hcode, h⟩ := Option.map_eq_some_iff.mp h
      cases h
      have := hexCode?_length hcode
      simp only [List.length_cons, List.length_nil]
      omega
    split at h
    · cases h
      simp
      omega
    split at h
    · obtain ⟨⟨code, final⟩, hcode, h⟩ := Option.map_eq_some_iff.mp h
      cases h
      have := hexCode?_length hcode
      simp only [List.length_cons, List.length_nil]
      omega
    split at h
    · split at h
      · rename_i hcode
        have hfinal := hexCode?_length hcode
        split at h <;> cases h
        simp only [List.length_cons, List.length_nil]
        omega
      · cases h
    split at h
    · obtain ⟨⟨point, final⟩, hpoint, h⟩ := Option.map_eq_some_iff.mp h
      cases h
      have := namedPoint?_length hpoint
      simp only [List.length_cons, List.length_nil]
      omega
    · cases h
      simp
      omega

/-- Decoding makes a text no longer, as every escape is longer than what it stands for. -/
theorem decodeEscapes_length {isBytes : Bool} {fuel : Nat} {cs : List Char} {plain : CodePoints}
    (h : decodeEscapes names isBytes fuel cs = some plain) : plain.length ≤ cs.length := by
  fun_induction decodeEscapes names isBytes fuel cs generalizing plain with
  | case1 cs =>
      cases h
      simp
  | case2 => exact (Option.some.inj h ▸ Nat.le_refl _)
  | case3 fuel rest ih =>
      obtain ⟨⟨first, after⟩, hescape, h⟩ := Option.bind_eq_some_iff.mp h
      obtain ⟨tail, htail, h⟩ := Option.bind_eq_some_iff.mp h
      cases h
      have := readEscape_length hescape
      have := ih _ htail
      simp only [List.length_append, List.length_cons]
      omega
  | case4 fuel c rest _ ih =>
      obtain ⟨tail, htail, rfl⟩ := Option.map_eq_some_iff.mp h
      have := ih htail
      simp only [List.length_cons]
      omega

/-- A body is no shorter than what it decodes to. -/
theorem decodeBody_length {isBytes isRaw : Bool} {body : List Char} {plain : CodePoints}
    (h : decodeBody names isBytes isRaw body = some plain) : plain.length ≤ body.length := by
  unfold decodeBody at h
  split at h
  · cases h
    simp
  · exact decodeEscapes_length h

/-! ## Texts of bounded length -/

/-- The texts among expressions have at most `n` characters. -/
def Within (n : Nat) (terms : List Expr) : Prop :=
  ∀ x ∈ terms, x.textLength ≤ n

section Within

variable {n m : Nat} {first rest : List Expr}

@[simp]
theorem within_nil : Within n [] := by
  simp [Within]

@[simp]
theorem within_cons {e : Expr} : Within n (e :: rest) ↔ e.textLength ≤ n ∧ Within n rest := by
  simp [Within]

@[simp]
theorem within_append : Within n (first ++ rest) ↔ Within n first ∧ Within n rest := by
  simp [Within, or_imp, forall_and]

/-- A larger bound holds as well. -/
theorem Within.mono (h : Within n first) (hle : n ≤ m) : Within m first :=
  fun x hx => Nat.le_trans (h x hx) hle

/-- The subterms of a list are within a bound if those of each item are. -/
theorem within_all {items : List Expr} :
    Within n (Expr.all items) ↔ ∀ e ∈ items, Within n e.subterms := by
  induction items with
  | nil => simp [Expr.all]
  | cons e rest ih => simp [Expr.all, ih]

end Within

/-- The characters of the texts in a row of parts. -/
def textSum (parts : List Expr) : Nat :=
  (parts.map Expr.textLength).sum

@[simp]
theorem textSum_nil : textSum [] = 0 :=
  rfl

@[simp]
theorem textSum_cons (e : Expr) (parts : List Expr) :
    textSum (e :: parts) = e.textLength + textSum parts := by
  simp [textSum]

/-- The texts of parts add up. -/
@[simp]
theorem textSum_append (first second : List Expr) :
    textSum (first ++ second) = textSum first + textSum second := by
  simp [textSum]

/-- One part is no longer than all of them. -/
theorem textLength_le_textSum {e : Expr} {parts : List Expr} (h : e ∈ parts) :
    e.textLength ≤ textSum parts := by
  induction parts with
  | nil => cases h
  | cons first rest ih =>
      rw [textSum_cons]
      rcases List.mem_cons.mp h with rfl | h
      · exact Nat.le_add_right _ _
      · exact Nat.le_trans (ih h) (Nat.le_add_left _ _)

namespace Formatted

/-! ## Joining texts -/

/-- Merging texts next to each other keeps their sum. -/
theorem textSum_mergeTexts (parts : List Expr) : textSum (mergeTexts parts) = textSum parts := by
  fun_induction mergeTexts parts with
  | case1 => rfl
  | case2 s marked rest t other merged hmerged ih =>
      rw [hmerged] at ih
      simp [Expr.textLength] at ih ⊢
      omega
  | case3 s marked rest hempty hplain ih =>
      simp [Expr.textLength, List.isEmpty_iff.mp hempty, ih]
  | case4 s marked rest hfull hplain ih => simp [Expr.textLength, ih]
  | case5 part rest hpart ih => simp [ih]

/-- A part after joining is a part from before or a text. -/
theorem mem_mergeTexts {e : Expr} {parts : List Expr} (h : e ∈ mergeTexts parts) :
    e ∈ parts ∨ ∃ s marked, e = .constant (.text s marked) := by
  fun_induction mergeTexts parts with
  | case1 => cases h
  | case2 s marked rest t other merged hmerged ih =>
      rcases List.mem_cons.mp h with rfl | h
      · exact .inr ⟨_, _, rfl⟩
      · exact (ih (hmerged ▸ List.mem_cons_of_mem _ h)).imp_left (List.mem_cons_of_mem _)
  | case3 s marked rest hplain hempty ih => exact (ih h).imp_left (List.mem_cons_of_mem _)
  | case4 s marked rest hplain hfull ih =>
      rcases List.mem_cons.mp h with rfl | h
      · exact .inr ⟨_, _, rfl⟩
      · exact (ih h).imp_left (List.mem_cons_of_mem _)
  | case5 part rest hpart ih =>
      rcases List.mem_cons.mp h with rfl | h
      · exact .inl List.mem_cons_self
      · exact (ih h).imp_left (List.mem_cons_of_mem _)

/-- Joined texts are as long as all texts together. -/
theorem within_mergeTexts {n : Nat} {parts : List Expr} (h : Within n (Expr.all parts))
    (hsum : textSum parts ≤ n) : Within n (Expr.all (mergeTexts parts)) := by
  refine within_all.mpr fun e he => ?_
  rcases mem_mergeTexts he with hmem | ⟨s, marked, rfl⟩
  · exact within_all.mp h e hmem
  · have := textLength_le_textSum he
    rw [textSum_mergeTexts] at this
    simpa [Expr.subterms] using Nat.le_trans this hsum

/-- The mark of the last text has no length. -/
theorem within_unmarkLast {n : Nat} {parts : List Expr} (h : Within n (Expr.all parts)) :
    Within n (Expr.all (unmarkLast parts)) := by
  fun_induction unmarkLast parts with
  | case1 => exact h
  | case2 s marked => simpa [Expr.all, Expr.subterms, Expr.textLength] using h
  | case3 part rest _ ih =>
      simp only [Expr.all, within_append] at h ⊢
      exact ⟨h.1, ih h.2⟩

/-! ## The parts of a formatted literal -/

/-- A brace ends literal text, or stands for itself with the brace after it. -/
theorem brace_length {nested more : Bool} {lead cs text rest : List Char} {c : Char}
    (h : (if nested then some (lead, false, c :: cs)
      else if cs.head? == some c then some (lead ++ [c], true, cs.drop 1)
      else if c == '\x7d' then none
      else some (lead, false, c :: cs)) = some (text, more, rest)) :
    text.length + rest.length ≤ lead.length + (c :: cs).length := by
  split at h
  · cases h
    exact Nat.le_refl _
  split at h
  · cases h
    simp only [List.length_append, List.length_cons, List.length_nil, List.length_drop]
    omega
  split at h <;> cases h
  exact Nat.le_refl _

/-- The text of a part and what is left are within what was there. -/
theorem literalPart_length {isRaw nested inName more : Bool} {cs text rest : List Char}
    (h : literalPart isRaw nested inName cs = some (text, more, rest)) :
    text.length + rest.length ≤ cs.length := by
  fun_induction literalPart isRaw nested inName cs generalizing text more rest with
  | case1 | case4 =>
      cases h
      simp
  | case3 => simpa using brace_length h
  | case5 =>
      have := brace_length h
      simp only [List.length_cons, List.length_nil] at this ⊢
      omega
  | case2 | case6 | case7 =>
      rename_i ih
      obtain ⟨⟨text', more', rest'⟩, hrec, h⟩ := Option.map_eq_some_iff.mp h
      cases h
      have := ih hrec
      simp only [List.length_cons]
      omega

/-- What a part of a text is cut into has no more characters than the text. -/
def Cuts (n : Nat) (result : Option (List Char × List Char)) : Prop :=
  ∀ text rest, result = some (text, rest) → text.length + rest.length ≤ n

theorem cuts_none (n : Nat) : Cuts n none :=
  fun _ _ h => nomatch h

/-- A choice cuts off what both of its sides may cut off. -/
theorem Cuts.ite {n : Nat} {p : Prop} [Decidable p] {yes no : Option (List Char × List Char)}
    (hyes : Cuts n yes) (hno : Cuts n no) : Cuts n (if p then yes else no) := by
  split
  · exact hyes
  · exact hno

/-- One more character was taken. -/
theorem Cuts.cons {n : Nat} {result : Option (List Char × List Char)} (h : Cuts n result)
    (c : Char) :
    Cuts (n + 1) (result.map fun (text, rest) => (c :: text, rest)) := by
  intro text rest hresult
  obtain ⟨⟨text', rest'⟩, hcut, hpair⟩ := Option.map_eq_some_iff.mp hresult
  cases hpair
  have := h text' rest hcut
  simp only [List.length_cons]
  omega

/-- The text of an embedded expression and what is left are within what was there. -/
theorem cuts_expressionPart (inside : Option OpenString) (opened : List Char) (skip : Nat)
    (cs : List Char) : Cuts cs.length (expressionPart inside opened skip cs) := by
  induction cs generalizing inside opened skip with
  | nil => exact cuts_none _
  | cons c cs ih =>
      have hkeep (inside : Option OpenString) (opened : List Char) (skip : Nat) :
          Cuts (c :: cs).length ((expressionPart inside opened skip cs).map
            fun (text, rest) => (c :: text, rest)) :=
        (ih inside opened skip).cons c
      have hstop : Cuts (c :: cs).length (some ([], c :: cs)) := by
        intro text rest h
        cases h
        simp
      unfold expressionPart
      dsimp only
      cases skip with
      | succ skip => exact hkeep _ _ _
      | zero =>
          refine .ite (cuts_none _) ?_
          cases inside with
          | some string =>
              exact .ite (.ite (.ite (hkeep _ _ _) (hkeep _ _ _)) (hkeep _ _ _)) (hkeep _ _ _)
          | none =>
              refine .ite (.ite (hkeep _ _ _) (hkeep _ _ _)) ?_
              refine .ite (hkeep _ _ _) (.ite (hkeep _ _ _) (.ite (hkeep _ _ _) ?_))
              refine .ite (cuts_none _) (.ite (.ite (hkeep _ _ _) (.ite (hkeep _ _ _) hstop)) ?_)
              refine .ite ?_ (hkeep _ _ _)
              cases opened with
              | nil => exact cuts_none _
              | cons top below => exact .ite (hkeep _ _ _) (cuts_none _)

/-- The text between embedded expressions is decoded, and so no longer. -/
theorem textPart_sum {isMarked isRaw : Bool} {text : List Char} {lead : List Expr}
    (h : textPart names isMarked isRaw text = some lead) :
    textSum lead ≤ text.length ∧ Within text.length (Expr.all lead) := by
  unfold textPart at h
  split at h
  · cases h
    simp [Expr.all]
  · obtain ⟨plain, hplain, h⟩ := Option.bind_eq_some_iff.mp h
    cases h
    have := decodeBody_length hplain
    simp [Expr.all, Expr.subterms, Expr.textLength, this]

/-- The text that an expression shows of itself is taken off what follows. -/
theorem selfText_length {text rest shown after : List Char}
    (h : selfText text rest = some (shown, after)) :
    shown.length + after.length = text.length + rest.length := by
  unfold selfText at h
  split at h
  · rename_i spaces
    dsimp only at h
    cases h
    have := congrArg List.length
      (List.takeWhile_append_dropWhile (p := fun c => c == ' ' || (9 ≤ c.toNat && c.toNat ≤ 13))
        (l := spaces))
    simp only [List.length_append, List.length_cons] at this ⊢
    omega
  · cases h

/-- The text that a self-documenting field shows, and what comes after it. -/
theorem selfLabel_sum (isMarked : Bool) (text rest : List Char) :
    let label := match selfText text rest with
      | some (shown, _) => [Expr.constant (.text (shown.map Char.toNat) isMarked)]
      | none => []
    textSum label + (((selfText text rest).map Prod.snd).getD rest).length ≤
        text.length + rest.length ∧
      Within (text.length + rest.length) (Expr.all label) := by
  cases hself : selfText text rest with
  | none => simp [Expr.all]
  | some result =>
      have := selfText_length hself
      simp [Expr.all, Expr.subterms, Expr.textLength]
      omega

/-- A conversion takes its characters away. -/
theorem conversionPart_length {conversion : Option Char} {cs rest : List Char}
    (h : conversionPart cs = some (conversion, rest)) : rest.length ≤ cs.length := by
  unfold conversionPart at h
  split at h
  · split at h <;> cases h
    simp only [List.length_cons]
    omega
  · cases h
  · cases h
    exact Nat.le_refl _

/-- What a reader of embedded expressions finds is no longer than what it reads. -/
def Embeds (embedded : List Char → Option Expr) : Prop :=
  ∀ text value, embedded text = some value → Within text.length value.subterms

/-- The parts of a formatted string are no longer than its body. -/
theorem parts_sum {embedded : List Char → Option Expr} (hembedded : Embeds embedded)
    {isMarked isRaw : Bool} {fuel level : Nat} {cs rest : List Char} {found : List Expr}
    (h : parts names embedded isMarked isRaw fuel level cs = some (found, rest)) :
    textSum found + rest.length ≤ cs.length ∧ Within cs.length (Expr.all found) := by
  induction fuel generalizing level cs rest found with
  | zero => cases h
  | succ fuel ih =>
      rw [parts] at h
      obtain ⟨⟨text, more, after⟩, hliteral, h⟩ := Option.bind_eq_some_iff.mp h
      obtain ⟨lead, hlead, h⟩ := Option.bind_eq_some_iff.mp h
      have hfirst := literalPart_length hliteral
      obtain ⟨hsum, hwithin⟩ := textPart_sum hlead
      have hleadWithin := hwithin.mono (Nat.le_trans (Nat.le_add_right _ _) hfirst)
      dsimp only at h
      split at h
      · -- A doubled brace: the literal text goes on.
        obtain ⟨⟨others, final⟩, hothers, h⟩ := Option.bind_eq_some_iff.mp h
        cases h
        obtain ⟨hothersSum, hothersWithin⟩ := ih hothers
        have := hothersWithin.mono (m := cs.length) (by omega)
        simp only [textSum_append, all_append, within_append]
        exact ⟨by omega, hleadWithin, this⟩
      split at h
      · rename_i inside
        split at h
        · cases h
        obtain ⟨⟨written, beyond⟩, hwritten, h⟩ := Option.bind_eq_some_iff.mp h
        dsimp only at h
        split at h
        · cases h
        obtain ⟨value, hvalue, h⟩ := Option.bind_eq_some_iff.mp h
        obtain ⟨⟨conversion, following⟩, hconversion, h⟩ := Option.bind_eq_some_iff.mp h
        dsimp only at h
        have hvalueWithin := hembedded _ _ hvalue
        have hlength := cuts_expressionPart _ _ _ _ _ _ hwritten
        have hfollowing := conversionPart_length hconversion
        obtain ⟨hlabelSum, hlabelWithin⟩ := selfLabel_sum isMarked written beyond
        simp only [List.length_cons] at hfirst
        have hdone {shown : Option Char} {layout : Option Expr} {others : List Expr}
            {closing final : List Char} (hlayout : Within cs.length (Expr.optional layout))
            (hclosing : closing.length < following.length)
            (hothers : parts names embedded isMarked isRaw fuel level closing =
              some (others, final)) :
            textSum (lead ++ (match selfText written beyond with
                | some (text, _) => [Expr.constant (.text (text.map Char.toNat) isMarked)]
                | none => []) ++ .formatted value shown layout :: others) + final.length ≤
                    cs.length ∧
              Within cs.length (Expr.all (lead ++ (match selfText written beyond with
                | some (text, _) => [Expr.constant (.text (text.map Char.toNat) isMarked)]
                | none => []) ++ .formatted value shown layout :: others)) := by
          obtain ⟨hothersSum, hothersWithin⟩ := ih hothers
          simp only [textSum_append, textSum_cons, all_append, within_append, Expr.all,
            Expr.subterms,
            within_cons, Expr.textLength]
          exact ⟨by omega, ⟨hleadWithin, hlabelWithin.mono (by omega)⟩,
            ⟨Nat.zero_le _, hvalueWithin.mono (by omega), hlayout⟩, hothersWithin.mono (by omega)⟩
        split at h
        · obtain ⟨⟨layout, closing⟩, hlayout, h⟩ := Option.bind_eq_some_iff.mp h
          obtain ⟨⟨inner, closing'⟩, hinner, hlayout⟩ := Option.map_eq_some_iff.mp hlayout
          cases hlayout
          dsimp only at h
          split at h
          · obtain ⟨⟨others, final⟩, hothers, h⟩ := Option.bind_eq_some_iff.mp h
            cases h
            obtain ⟨hinnerSum, hinnerWithin⟩ := ih hinner
            simp only [List.length_cons] at hinnerSum hfollowing
            refine hdone ?_ (by simp only [List.length_cons]; omega) hothers
            simp only [Expr.optional, Expr.subterms, within_cons, Expr.textLength]
            refine ⟨Nat.zero_le _, within_unmarkLast (within_mergeTexts (hinnerWithin.mono ?_) ?_)⟩
            · omega
            · omega
          · cases h
        · obtain ⟨⟨layout, closing⟩, hlayout, h⟩ := Option.bind_eq_some_iff.mp h
          cases hlayout
          dsimp only at h
          split at h
          · obtain ⟨⟨others, final⟩, hothers, h⟩ := Option.bind_eq_some_iff.mp h
            cases h
            exact hdone (by simp [Expr.optional]) (by simp) hothers
          · cases h
      · cases h
        exact ⟨by omega, hleadWithin⟩

/-- Those of any literal are no longer than its body. -/
theorem read_sum {embedded : List Char → Option Expr} (hembedded : Embeds embedded)
    {isMarked : Bool} {literal : StringLiteral} {found : List Expr}
    (h : read names embedded isMarked literal = some found) :
    textSum found ≤ literal.body.length ∧ Within literal.body.length (Expr.all found) := by
  obtain ⟨⟨parts, rest⟩, hparts, h⟩ := Option.bind_eq_some_iff.mp h
  dsimp only at h
  split at h <;> cases h
  obtain ⟨hsum, hwithin⟩ := parts_sum hembedded hparts
  exact ⟨Nat.le_trans (Nat.le_add_right _ _) hsum, hwithin⟩

end Formatted

/-! ## Neighbouring literals -/

/-- The characters between the quotes of literals. -/
def bodySum (literals : List StringLiteral) : Nat :=
  (literals.map fun literal => literal.body.length).sum

/-- The parts of several literals are no longer than their bodies together. -/
theorem mapM_sum {read : StringLiteral → Option (List Expr)}
    (hread : ∀ literal found, read literal = some found →
      textSum found ≤ literal.body.length ∧ Within literal.body.length (Expr.all found))
    {literals : List StringLiteral} {parts : List (List Expr)}
    (h : literals.mapM read = some parts) :
    textSum parts.flatten ≤ bodySum literals ∧
    Within (bodySum literals) (Expr.all parts.flatten) := by
  induction literals generalizing parts with
  | nil =>
      cases h
      simp [Expr.all]
  | cons literal rest ih =>
      rw [List.mapM_cons] at h
      obtain ⟨found, hfound, h⟩ := Option.bind_eq_some_iff.mp h
      obtain ⟨others, hothers, h⟩ := Option.bind_eq_some_iff.mp h
      cases h
      obtain ⟨hsum, hwithin⟩ := hread literal found hfound
      obtain ⟨hothersSum, hothersWithin⟩ := ih hothers
      simp only [bodySum, List.map_cons, List.sum_cons, List.flatten_cons, textSum_append,
        all_append,
        within_append] at hothersSum hothersWithin ⊢
      exact ⟨by omega, hwithin.mono (by omega), hothersWithin.mono (by omega)⟩

/-- The texts in what neighbouring literals are joined to are no longer than the literals. -/
theorem within_joinLiterals {embedded : List Char → Option Expr}
    (hembedded : Formatted.Embeds embedded)
    {literals : List StringLiteral} {value : Expr}
    (h : joinLiterals names embedded literals = some value) :
    Within (bodySum literals) value.subterms := by
  unfold joinLiterals at h
  split at h
  · obtain ⟨bytes, -, h⟩ := Option.bind_eq_some_iff.mp h
    cases h
    simp [Expr.subterms, Expr.textLength]
  split at h
  · cases h
  obtain ⟨parts, hparts, h⟩ := Option.bind_eq_some_iff.mp h
  obtain ⟨hsum, hwithin⟩ := mapM_sum (fun literal found hfound => by
    split at hfound
    · exact Formatted.read_sum hembedded hfound
    · obtain ⟨text, htext, rfl⟩ := Option.map_eq_some_iff.mp hfound
      have := decodeBody_length htext
      simpa [Expr.all, Expr.subterms, Expr.textLength] using this) hparts
  have hmerged := Formatted.within_mergeTexts hwithin hsum
  split at h
  · cases h
    simpa [Expr.subterms, Expr.textLength] using hmerged
  dsimp only at h
  split at h
  · rename_i text htext
    cases h
    exact within_all.mp hmerged value (htext ▸ List.mem_singleton_self value)
  · cases h
    simp [Expr.subterms, Expr.textLength]

end AikenForge.Source
