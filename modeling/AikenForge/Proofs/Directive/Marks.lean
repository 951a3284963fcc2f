/-
# The order of marks

The marks of a text come in the order of the lines they start on, a string over several lines
included, and after a comment nothing but its line break is left on the line. A carriage return
without a line feed is the only exception: it ends a comment, but not a line.
-/

import AikenForge.Proofs.Outcome.Comment
import Mathlib.Data.List.Pairwise
import Mathlib.Data.Nat.Basic
import Mathlib.Order.Basic

namespace AikenForge.Directive

/-! ## Marks in order -/

/-- The line that a mark starts on. -/
def Mark.line : Mark → Nat
  | .comment line _ | .layout line | .code line => line

/-- Whether a mark is a comment. -/
def Mark.isComment : Mark → Bool
  | .comment .. => true
  | _ => false

/-- Whether a mark is layout. -/
def Mark.isLayout : Mark → Bool
  | .layout _ => true
  | _ => false

/-- The directive that a mark writes. -/
def Mark.directive? : Mark → Option Directive
  | .comment line text => ofComment? line text
  | _ => none

/-- The line of code that a mark is. -/
def Mark.codeLine? : Mark → Option Nat
  | .code line => some line
  | _ => none

/-- Marks whose lines never decrease, where what comes after a comment starts on a later line unless
it is layout. -/
structure Ordered (marks : List Mark) : Prop where
  sorted : marks.Pairwise fun a b => a.line ≤ b.line
  apart : marks.Pairwise fun a b => a.isComment → !b.isLayout → a.line < b.line

/-- Marks in order are so without the first. -/
theorem Ordered.tail {mark : Mark} {marks : List Mark} (h : Ordered (mark :: marks)) :
    Ordered marks :=
  ⟨h.sorted.of_cons, h.apart.of_cons⟩

/-! ## One line -/

/-- Every carriage return is followed by a line feed. -/
def Paired (cs : List Char) : Prop :=
  ∀ rest, '\r' :: rest <:+ cs → ∃ more, rest = '\n' :: more

/-- A line whose break, if it has one, is at its end. -/
structure Unbroken (cs : List Char) : Prop where
  feed : ∀ rest, '\n' :: rest <:+ cs → rest = []
  paired : Paired cs

theorem Paired.suffix {cs rest : List Char} (h : Paired cs) (hrest : rest <:+ cs) : Paired rest :=
  fun more hmore => h more (hmore.trans hrest)

theorem Unbroken.suffix {cs rest : List Char} (h : Unbroken cs) (hrest : rest <:+ cs) :
    Unbroken rest :=
  ⟨fun more hmore => h.feed more (hmore.trans hrest), h.paired.suffix hrest⟩

/-- What ends a comment is the end of the line. -/
theorem Unbroken.dropWhile {cs : List Char} (h : Unbroken cs) :
    cs.dropWhile (fun c => c != '\r' && c != '\n') ∈ [[], ['\n'], ['\r', '\n']] := by
  have hrest := h.suffix (List.dropWhile_suffix fun c => c != '\r' && c != '\n')
  have hhead := List.head?_dropWhile_not (fun c => c != '\r' && c != '\n') cs
  rcases hbreak : cs.dropWhile (fun c => c != '\r' && c != '\n') with _ | ⟨c, rest⟩
  · simp
  · rw [hbreak] at hrest hhead
    have hc : c = '\r' ∨ c = '\n' := by
      simp only [List.head?_cons, Bool.and_eq_false_iff, bne_eq_false_iff_eq] at hhead
      exact hhead
    rcases hc with rfl | rfl
    · obtain ⟨more, rfl⟩ := hrest.paired rest (List.suffix_refl _)
      rw [hrest.feed more (List.suffix_cons _ _)]
      simp
    · rw [hrest.feed rest (List.suffix_refl _)]
      simp

/-- What scanning a part of a line gives: marks of that line, of which a comment is the last but for
layout, and perhaps a string that starts on it. -/
structure OnLine (clean : Prop) (line : Nat) (result : List Mark × ScanState) : Prop where
  here : ∀ mark ∈ result.1, mark.line = line
  opened : ∀ string, result.2.string = some string → string.line = line
  last : clean → result.1.Pairwise fun a b => a.isComment → b.isLayout
  closed : clean → ∀ mark ∈ result.1, mark.isComment → result.2.string = none

section Line

variable {clean : Prop} {line : Nat} {state : ScanState}

/-- A line may have no mark at all. -/
theorem onLine_nil (h : ∀ string, state.string = some string → string.line = line) :
    OnLine clean line ([], state) :=
  ⟨by simp, h, fun _ => .nil, by simp⟩

/-- A line may have only its layout. -/
theorem onLine_layout (h : state.string = none) : OnLine clean line ([.layout line], state) :=
  ⟨by simp [Mark.line], by simp [h], fun _ => List.pairwise_singleton _ _, by simp [h]⟩

/-- Code may come before what else is on its line. -/
theorem OnLine.code {marks : List Mark} (h : OnLine clean line (marks, state)) :
    OnLine clean line (.code line :: marks, state) := by
  refine ⟨?_, h.opened, fun hclean => ?_, fun hclean => ?_⟩
  · simpa [Mark.line] using h.here
  · exact List.pairwise_cons.mpr ⟨by simp [Mark.isComment], h.last hclean⟩
  · simpa [Mark.isComment] using h.closed hclean

/-- A comment with what is left of its line. -/
theorem OnLine.comment {marks : List Mark} {text : String} (h : OnLine clean line (marks, state))
    (hend : clean → (∀ mark ∈ marks, mark.isLayout) ∧ state.string = none) :
    OnLine clean line (.comment line text :: marks, state) := by
  refine ⟨?_, h.opened, fun hclean => ?_, fun hclean => ?_⟩
  · simpa [Mark.line] using h.here
  · exact List.pairwise_cons.mpr ⟨fun mark hmark _ => (hend hclean).1 mark hmark, h.last hclean⟩
  · intro mark _ _
    exact (hend hclean).2

/-- At the end of a line there is nothing but layout. -/
theorem scanRest_break {cs : List Char} (h : cs ∈ [[], ['\n'], ['\r', '\n']]) (width fuel : Nat) :
    (∀ mark ∈ (scanRest line width fuel state cs).1, mark.isLayout) ∧
      (scanRest line width fuel state cs).2 = state := by
  cases fuel with
  | zero => simp [scanRest]
  | succ fuel =>
      simp only [List.mem_cons, List.not_mem_nil, or_false] at h
      rcases h with rfl | rfl | rfl <;> simp [scanRest, Mark.isLayout]

/-- What follows an item is the end of the line. -/
theorem afterItem_suffix (cs : List Char) : afterItem cs <:+ cs :=
  List.drop_suffix _ _

/-- The rest of a line has marks of that line only. -/
theorem onLine_scanRest (width fuel : Nat) {cs : List Char} (hclean : clean → Unbroken cs)
    (hstate : state.string = none) : OnLine clean line (scanRest line width fuel state cs) := by
  induction fuel generalizing state cs with
  | zero => exact onLine_nil (by simp [hstate])
  | succ fuel ih =>
      have hrest {rest : List Char} {state : ScanState} (h : rest <:+ cs)
          (hstate : state.string = none) :
            OnLine clean line (scanRest line width fuel state rest) :=
        ih (fun hc => (hclean hc).suffix h) hstate
      unfold scanRest
      dsimp only
      split
      · exact onLine_nil (by simp [hstate])
      · exact onLine_layout hstate
      · exact onLine_layout hstate
      · exact onLine_nil (by simp [hstate])
      · exact onLine_nil (by simp [hstate])
      split
      · exact hrest (List.suffix_cons _ _) hstate
      split
      · refine (hrest (List.dropWhile_suffix _) hstate).comment fun hc => ?_
        have hend := @scanRest_break line state _ (hclean hc).dropWhile width fuel
        exact ⟨hend.1, hend.2.symm ▸ hstate⟩
      split
      · rename_i hquote
        have hinside := openingQuote?_suffix hquote
        split
        · rename_i hend
          exact (hrest ((stringEnd_suffix hend).trans hinside) hstate).code
        · exact onLine_nil (by simp)
        · exact (hrest hinside hstate).code
      · refine OnLine.code (hrest (afterItem_suffix _) ?_)
        exact hstate

/-- A line that starts outside of strings has marks of that line only. -/
theorem onLine_scanFresh {cs : List Char} {result : List Mark × ScanState}
    (hclean : clean → Unbroken cs) (hstate : state.string = none)
    (h : scanFresh line state cs = .ok result) : OnLine clean line result := by
  have hrest := measureColumn_suffix 0 cs
  unfold scanFresh at h
  dsimp only at h
  split at h
  · cases h
    exact onLine_nil (by simp [hstate])
  · cases h
    exact (onLine_layout hstate).comment fun _ => ⟨by simp [Mark.isLayout], hstate⟩
  · cases h
    exact onLine_layout hstate
  · cases h
    exact onLine_layout hstate
  · split at h
    · cases h
      exact onLine_scanRest _ _ (fun hc => (hclean hc).suffix hrest) hstate
    · cases h

end Line

/-! ## All lines -/

/-- Marks in order whose lines lie between two lines; in clean text a comment lies before the
second. -/
structure Between (clean : Prop) (low high : Nat) (marks : List Mark) : Prop where
  le : low ≤ high
  lower : ∀ mark ∈ marks, low ≤ mark.line
  upper : ∀ mark ∈ marks, mark.line ≤ high
  comments : clean → ∀ mark ∈ marks, mark.isComment → mark.line < high
  sorted : marks.Pairwise fun a b => a.line ≤ b.line
  apart : clean → marks.Pairwise fun a b => a.isComment → !b.isLayout → a.line < b.line

section Lines

variable {clean : Prop} {low middle high line : Nat} {marks later : List Mark} {state : ScanState}

theorem between_nil (h : low ≤ high) : Between clean low high [] :=
  ⟨h, by simp, by simp, by simp, .nil, fun _ => .nil⟩

/-- A mark of code lies on its own line. -/
theorem between_code (hlow : low ≤ line) (hhigh : line ≤ high) :
    Between clean low high [.code line] :=
  ⟨hlow.trans hhigh, by simpa [Mark.line], by simpa [Mark.line], by simp [Mark.isComment],
    List.pairwise_singleton _ _, fun _ => List.pairwise_singleton _ _⟩

/-- Marks of earlier lines before those of later ones. -/
theorem Between.append (h : Between clean low middle marks)
    (hlater : Between clean middle high later) :
    Between clean low high (marks ++ later) where
  le := h.le.trans hlater.le
  lower mark hmark := (List.mem_append.mp hmark).elim (h.lower mark)
    fun hmark => h.le.trans (hlater.lower mark hmark)
  upper mark hmark := (List.mem_append.mp hmark).elim
    (fun hmark => (h.upper mark hmark).trans hlater.le) (hlater.upper mark)
  comments hclean mark hmark hcomment := (List.mem_append.mp hmark).elim
    (fun hmark => (h.comments hclean mark hmark hcomment).trans_le hlater.le)
    fun hmark => hlater.comments hclean mark hmark hcomment
  sorted := List.pairwise_append.mpr ⟨h.sorted, hlater.sorted, fun a ha b hb =>
    (h.upper a ha).trans (hlater.lower b hb)⟩
  apart hclean := List.pairwise_append.mpr ⟨h.apart hclean, hlater.apart hclean,
    fun a ha b hb hcomment _ => (h.comments hclean a ha hcomment).trans_le (hlater.lower b hb)⟩

/-- The line that the next mark cannot lie before: that of the open string, or the present one. -/
def floorLine (line : Nat) (state : ScanState) : Nat :=
  state.string.elim line OpenText.line

/-- A string that is open was opened no further down than its line. -/
theorem OnLine.floorLine_le {result : List Mark × ScanState} (h : OnLine clean line result) :
    floorLine (line + 1) result.2 ≤ line + 1 := by
  unfold floorLine
  cases hstring : result.2.string with
  | none => exact le_rfl
  | some string => exact (h.opened string hstring).le.trans (Nat.le_succ line)

/-- The marks of a line lie between that line and the next. -/
theorem OnLine.between {result : List Mark × ScanState} (h : OnLine clean line result) :
    Between clean line (floorLine (line + 1) result.2) result.1 := by
  have hle : line ≤ floorLine (line + 1) result.2 := by
    unfold floorLine
    cases hstring : result.2.string with
    | none => exact Nat.le_succ line
    | some string => exact (h.opened string hstring).ge
  refine ⟨hle, fun mark hmark => (h.here mark hmark).ge, fun mark hmark =>
    (h.here mark hmark).trans_le hle,
    fun hclean mark hmark hcomment => ?_, ?_, fun hclean => ?_⟩
  · rw [h.here mark hmark, floorLine, h.closed hclean mark hmark hcomment]
    exact Nat.lt_succ_self line
  · exact List.pairwise_of_forall_mem_list fun a ha b hb =>
      ((h.here a ha).trans (h.here b hb).symm).le
  · refine (h.last hclean).imp fun hlast hcomment hlayout => ?_
    rw [hlast hcomment] at hlayout
    cases hlayout

/-- A line adds marks between the floor before it and the floor after it. -/
theorem between_scanLine {cs : List Char} {result : List Mark × ScanState}
    (hclean : clean → Unbroken cs) (hfloor : floorLine line state ≤ line)
    (h : scanLine line state cs = .ok result) :
    Between clean (floorLine line state) (floorLine (line + 1) result.2) result.1 ∧
      floorLine (line + 1) result.2 ≤ line + 1 := by
  unfold scanLine at h
  split at h
  · rename_i string hstring
    rw [floorLine, hstring, Option.elim_some] at hfloor ⊢
    split at h
    · rename_i rest hend
      cases h
      have hline : OnLine clean line (scanRest line cs.length (rest.length + 1)
          { state with string := none, needsBackslash := false } rest) :=
        onLine_scanRest _ _ (fun hc => (hclean hc).suffix (end?_suffix hend)) rfl
      exact ⟨(between_code le_rfl hfloor).append hline.between, hline.floorLine_le⟩
    · split at h <;> cases h
      · exact ⟨between_code le_rfl (hfloor.trans (Nat.le_succ line)), le_rfl⟩
      · simp only [floorLine, hstring, Option.elim_some]
        exact ⟨between_nil le_rfl, hfloor.trans (Nat.le_succ line)⟩
  · rename_i hstring
    rw [floorLine, hstring, Option.elim_none]
    have hline : OnLine clean line result := by
      split at h
      · exact onLine_scanFresh hclean hstring h
      · cases h
        exact onLine_scanRest _ _ hclean hstring
    exact ⟨hline.between, hline.floorLine_le⟩

/-- The marks of lines lie in order, by induction on the lines. -/
theorem between_scanLines {lines : List (List Char)}
    (hclean : clean → ∀ cs ∈ lines, Unbroken cs) (hfloor : floorLine line state ≤ line)
    (h : scanLines line state lines = .ok marks) :
    ∃ high, Between clean (floorLine line state) high marks := by
  induction lines generalizing line state marks with
  | nil =>
      rw [scanLines_nil h]
      exact ⟨_, between_nil le_rfl⟩
  | cons cs rest ih =>
      obtain ⟨result, later, hline, hlater, rfl⟩ := scanLines_cons h
      obtain ⟨hbetween, hnext⟩ :=
        between_scanLine (fun hc => hclean hc cs List.mem_cons_self) hfloor hline
      obtain ⟨high, hrest⟩ :=
        ih (fun hc l hl => hclean hc l (List.mem_cons_of_mem _ hl)) hnext hlater
      exact ⟨high, hbetween.append hrest⟩

/-- A line feed after a text without line feeds is at the end. -/
theorem eq_nil_of_feed_suffix {cs rest : List Char} (hcs : '\n' ∉ cs)
    (h : '\n' :: rest <:+ cs ++ ['\n']) : rest = [] := by
  rcases List.suffix_concat_iff.mp h with hnil | ⟨before, hbefore, hsuffix⟩
  · cases hnil
  · cases before with
    | nil => exact (List.cons.inj hbefore).2
    | cons c before =>
        obtain ⟨rfl, -⟩ := List.cons.inj hbefore
        exact absurd (hsuffix.subset List.mem_cons_self) hcs

/-- A line is unbroken if the text around it pairs its breaks. -/
theorem unbroken_concat {cs later : List Char} (hcs : '\n' ∉ cs)
    (hpaired : Paired (cs ++ '\n' :: later)) : Unbroken (cs ++ ['\n']) := by
  refine ⟨fun rest => eq_nil_of_feed_suffix hcs, fun rest hrest => ?_⟩
  rcases List.suffix_concat_iff.mp hrest with hnil | ⟨tail, htail, before, rfl⟩
  · cases hnil
  · cases tail with
    | nil => exact absurd (List.cons.inj htail).1 (by decide)
    | cons c tail =>
        obtain ⟨rfl, rfl⟩ := List.cons.inj htail
        -- In the text the carriage return has the same character after it as in the line.
        obtain ⟨more, hmore⟩ := hpaired (tail ++ '\n' :: later) ⟨before, by simp⟩
        cases tail with
        | nil => exact ⟨[], rfl⟩
        | cons d tail => exact ⟨tail ++ ['\n'], congrArg (· :: _) (List.cons.inj hmore).1⟩

/-- The lines of a text have their breaks at their ends. -/
theorem unbroken_of_mem_feedLines {current cs l : List Char}
    (hpaired : Paired (current.reverse ++ cs)) (hcurrent : '\n' ∉ current)
    (h : l ∈ feedLines current cs) : Unbroken l := by
  fun_induction feedLines current cs with
  | case1 => cases h
  | case2 current =>
      rw [List.mem_singleton.mp h]
      rw [List.append_nil] at hpaired
      refine ⟨fun rest hrest => absurd (hrest.subset List.mem_cons_self) ?_, hpaired⟩
      simpa using hcurrent
  | case3 current rest ih =>
      rcases List.mem_cons.mp h with rfl | h
      · rw [List.reverse_cons]
        exact unbroken_concat (by simpa using hcurrent) hpaired
      · refine ih (hpaired.suffix ?_) (by simp) h
        exact (List.suffix_cons _ _).trans (List.suffix_append _ _)
  | case4 current c rest hc ih =>
      refine ih (by simpa using hpaired) ?_ h
      rw [List.mem_cons, not_or]
      exact ⟨fun heq => hc heq.symm, hcurrent⟩

/-- The marks of a text come in the order of their lines, and if no carriage return is without its
line feed, nothing but layout comes after a comment on its line. -/
theorem between_marksOf {source : String} (h : marksOf source = .ok marks) :
    ∃ high, Between (Paired source.toList) 1 high marks :=
  between_scanLines (fun hpaired _ hl => unbroken_of_mem_feedLines hpaired (by simp) hl) le_rfl h

end Lines

/-- The marks of any source are sorted by their lines. -/
theorem sorted_marksOf {source : String} {marks : List Mark} (h : marksOf source = .ok marks) :
    marks.Pairwise fun a b => a.line ≤ b.line :=
  have ⟨_, hbetween⟩ := between_marksOf h
  hbetween.sorted

/-- Those of a source with paired line breaks are in order. -/
theorem ordered_marksOf {source : String} {marks : List Mark} (hpaired : Paired source.toList)
    (h : marksOf source = .ok marks) : Ordered marks :=
  have ⟨_, hbetween⟩ := between_marksOf h
  ⟨hbetween.sorted, hbetween.apart hpaired⟩

end AikenForge.Directive
