/-
# Where the text of a directive comes from

The scanner goes through a text from the front to the back, so what it has still to scan is always
an end of the line that it is on, and a comment is a piece of a line. Hence the text of a directive,
and every part of it, consists of characters of the source.
-/

import AikenForge.Directive.Scan
import AikenForge.Lowering.Directive

namespace AikenForge.Directive

open AikenForge.Source AikenForge.Text

/-! ## What is left to scan -/

/-- What follows a string over several lines is the end of what was there. -/
theorem afterLong?_suffix {mark : Char} {cs rest : List Char} (h : afterLong? mark cs = some rest) :
    rest <:+ cs := by
  fun_induction afterLong? mark cs with
  | case1 => cases h
  | case2 => cases h
  | case3 c cs _ ih => exact (ih h).trans ((List.suffix_cons _ _).trans (List.suffix_cons _ _))
  | case4 c cs =>
      obtain rfl := Option.some.inj h
      exact (List.drop_suffix _ _).trans (List.suffix_cons _ _)
  | case5 c cs _ _ _ ih => exact (ih h).trans (List.suffix_cons _ _)

theorem afterContinued?_suffix {mark : Char} {cs rest : List Char}
    (h : afterContinued? mark cs = some rest) : rest <:+ cs := by
  fun_induction afterContinued? mark cs with
  | case1 => cases h
  | case2 => cases h
  | case3 c cs _ ih => exact (ih h).trans ((List.suffix_cons _ _).trans (List.suffix_cons _ _))
  | case4 c cs =>
      obtain rfl := Option.some.inj h
      exact List.suffix_cons _ _
  | case5 c cs _ _ _ ih => exact (ih h).trans (List.suffix_cons _ _)

/-- What follows the string that is open is the end of what was there. -/
theorem end?_suffix {string : OpenText} {cs rest : List Char} (h : string.end? cs = some rest) :
    rest <:+ cs := by
  unfold OpenText.end? at h
  split at h
  · exact afterLong?_suffix h
  · exact afterContinued?_suffix h

theorem shortEnd_suffix {mark : Char} {cs rest : List Char} (h : shortEnd mark cs = .closed rest) :
    rest <:+ cs := by
  fun_induction shortEnd mark cs with
  | case6 c cs _ _ ih => exact (ih h).trans ((List.suffix_cons _ _).trans (List.suffix_cons _ _))
  | case7 c cs =>
      cases h
      exact List.suffix_cons _ _
  | case8 c cs _ _ _ _ _ _ ih => exact (ih h).trans (List.suffix_cons _ _)
  | _ => cases h

/-- What follows any string is the end of what was there. -/
theorem stringEnd_suffix {mark : Char} {cs rest : List Char}
    (h : stringEnd mark cs = .closed rest) :
    rest <:+ cs := by
  unfold stringEnd at h
  split at h
  · split at h
    · rename_i hafter
      cases h
      exact (afterLong?_suffix hafter).trans (List.drop_suffix _ _)
    · cases h
  · split at h
    · rename_i hend
      cases h
      exact shortEnd_suffix hend
    · cases h
    · cases h

/-- What follows an opening quote is the end of what was there. -/
theorem openingQuote?_suffix {mark : Char} {cs rest : List Char}
    (h : openingQuote? cs = some (mark, rest)) : rest <:+ cs := by
  unfold openingQuote? at h
  dsimp only at h
  split at h
  · rename_i c others hdrop
    split at h
    · cases h
      have hdropped := List.drop_suffix (leadingWord cs).length cs
      rw [hdrop] at hdropped
      exact (List.suffix_cons _ _).trans hdropped
    · cases h
  · cases h

/-- What follows the margin is the end of what was there. -/
theorem measureColumn_suffix (column : Nat) (cs : List Char) :
    (measureColumn column cs).2 <:+ cs := by
  fun_induction measureColumn column cs with
  | case4 => exact List.suffix_refl _
  | _ => rename_i ih; exact ih.trans (List.suffix_cons _ _)

/-! ## Comments -/

/-- The comments among marks consist of certain characters. -/
def WrittenWith (cs : List Char) (marks : List Mark) : Prop :=
  ∀ line text, .comment line text ∈ marks → text.toList ⊆ cs

section Marks

variable {cs more : List Char} {marks later : List Mark}

/-- Marks are written with more characters too. -/
theorem WrittenWith.mono (h : WrittenWith cs marks) (hmore : cs ⊆ more) : WrittenWith more marks :=
  fun line text hmem => List.Subset.trans (h line text hmem) hmore

theorem writtenWith_nil (cs : List Char) : WrittenWith cs [] :=
  fun _ _ h => absurd h List.not_mem_nil

/-- Marks one after the other. -/
theorem WrittenWith.append (h : WrittenWith cs marks) (hlater : WrittenWith cs later) :
    WrittenWith cs (marks ++ later) :=
  fun line text hmem => (List.mem_append.mp hmem).elim (h line text) (hlater line text)

theorem WrittenWith.cons {mark : Mark} (h : WrittenWith cs [mark]) (hlater : WrittenWith cs later) :
    WrittenWith cs (mark :: later) :=
  h.append hlater

theorem writtenWith_code (cs : List Char) (line : Nat) : WrittenWith cs [.code line] :=
  fun _ _ h => nomatch List.mem_singleton.mp h

theorem writtenWith_layout (cs : List Char) (line : Nat) : WrittenWith cs [.layout line] :=
  fun _ _ h => nomatch List.mem_singleton.mp h

/-- A comment is written with the characters of its own text. -/
theorem writtenWith_comment {text : List Char} (h : text ⊆ cs) (line : Nat) :
    WrittenWith cs [.comment line (.ofList text)] := by
  intro _ _ hmem
  cases List.mem_singleton.mp hmem
  simpa using h

end Marks

/-- The marks of the rest of a line are written with what was scanned. -/
theorem writtenWith_scanRest (line width fuel : Nat) (state : ScanState) (cs : List Char) :
    WrittenWith cs (scanRest line width fuel state cs).1 := by
  induction fuel generalizing state cs with
  | zero => exact writtenWith_nil _
  | succ fuel ih =>
      -- The scanner goes on with an end of what it has before it.
      have hrest {rest : List Char} (state : ScanState) (h : rest <:+ cs) :
          WrittenWith cs (scanRest line width fuel state rest).1 :=
        (ih state rest).mono h.subset
      unfold scanRest
      dsimp only
      split
      · exact writtenWith_nil _
      · exact writtenWith_layout _ line
      · exact writtenWith_layout _ line
      · exact writtenWith_nil _
      · exact writtenWith_nil _
      split
      · exact hrest state (List.suffix_cons _ _)
      split
      · exact (writtenWith_comment (List.takeWhile_prefix _).subset line).cons
          (hrest state (List.dropWhile_suffix _))
      split
      · rename_i hquote
        have hinside := openingQuote?_suffix hquote
        split
        · rename_i hend
          exact (writtenWith_code _ line).cons (hrest state ((stringEnd_suffix hend).trans hinside))
        · exact writtenWith_nil _
        · exact (writtenWith_code _ line).cons (hrest state hinside)
      · exact (writtenWith_code _ line).cons (hrest _ (List.drop_suffix _ _))

/-- So are those of a line that starts outside of strings. -/
theorem writtenWith_scanFresh {line : Nat} {state after : ScanState} {cs : List Char}
    {marks : List Mark} (h : scanFresh line state cs = .ok (marks, after)) :
    WrittenWith cs marks := by
  have hrest := measureColumn_suffix 0 cs
  unfold scanFresh at h
  dsimp only at h
  split at h
  · cases h
    exact writtenWith_nil _
  · cases h
    refine (writtenWith_comment ?_ line).cons (writtenWith_layout _ line)
    intro c hc
    rw [dropWhileEnd, List.mem_reverse] at hc
    exact hrest.subset (List.mem_reverse.mp ((List.dropWhile_suffix _).subset hc))
  · cases h
    exact writtenWith_layout _ line
  · cases h
    exact writtenWith_layout _ line
  · split at h
    · obtain rfl := congrArg Prod.fst (Except.ok.inj h)
      exact (writtenWith_scanRest _ _ _ _ _).mono hrest.subset
    · cases h

/-- So are those of any line. -/
theorem writtenWith_scanLine {line : Nat} {state after : ScanState} {cs : List Char}
    {marks : List Mark} (h : scanLine line state cs = .ok (marks, after)) :
    WrittenWith cs marks := by
  unfold scanLine at h
  split at h
  · split at h
    · rename_i rest hend
      obtain rfl := congrArg Prod.fst (Except.ok.inj h)
      have hrest := writtenWith_scanRest line cs.length (rest.length + 1)
        { state with string := none, needsBackslash := false } rest
      exact (writtenWith_code _ _).cons (hrest.mono (end?_suffix hend).subset)
    · split at h <;> cases h
      · exact writtenWith_code _ _
      · exact writtenWith_nil _
  · split at h
    · exact writtenWith_scanFresh h
    · obtain rfl := congrArg Prod.fst (Except.ok.inj h)
      exact writtenWith_scanRest _ _ _ _ _

/-- Without lines there are no marks. -/
theorem scanLines_nil {line : Nat} {state : ScanState} {marks : List Mark}
    (h : scanLines line state [] = .ok marks) : marks = [] := by
  rw [scanLines] at h
  cases hend : checkEnd line state with
  | error e => rw [hend] at h; cases h
  | ok _ =>
      rw [hend] at h
      cases h
      rfl

/-- The marks of lines are those of the first line and those of the rest from there. -/
theorem scanLines_cons {line : Nat} {state : ScanState} {l : List Char} {rest : List (List Char)}
    {marks : List Mark} (h : scanLines line state (l :: rest) = .ok marks) :
    ∃ result later, scanLine line state l = .ok result ∧
      scanLines (line + 1) result.2 rest = .ok later ∧ marks = result.1 ++ later := by
  rw [scanLines] at h
  cases hline : scanLine line state l with
  | error e => rw [hline] at h; cases h
  | ok result =>
      cases hrest : scanLines (line + 1) result.2 rest with
      | error e => rw [hline] at h; simp [bind, Except.bind, hrest] at h
      | ok later =>
          rw [hline] at h
          simp only [bind, Except.bind, hrest, pure, Except.pure, Except.ok.injEq] at h
          exact ⟨result, later, rfl, hrest, h.symm⟩

/-- So are those of several lines. -/
theorem writtenWith_scanLines {line : Nat} {state : ScanState} {cs : List Char}
    {lines : List (List Char)} {marks : List Mark} (hlines : ∀ l ∈ lines, l ⊆ cs)
    (h : scanLines line state lines = .ok marks) : WrittenWith cs marks := by
  induction lines generalizing line state marks with
  | nil =>
      rw [scanLines_nil h]
      exact writtenWith_nil _
  | cons l rest ih =>
      obtain ⟨result, later, hline, hrest, rfl⟩ := scanLines_cons h
      have hfirst := (writtenWith_scanLine hline).mono (hlines l List.mem_cons_self)
      exact hfirst.append
        (ih (fun other hother => hlines other (List.mem_cons_of_mem _ hother)) hrest)

/-- The lines of a text have its characters only. -/
theorem mem_feedLines {current cs line : List Char} (h : line ∈ feedLines current cs) :
    line ⊆ current ++ cs := by
  fun_induction feedLines current cs with
  | case1 => cases h
  | case2 current =>
      rw [List.mem_singleton.mp h]
      simp
  | case3 current rest ih =>
      rcases List.mem_cons.mp h with rfl | h
      · intro c hc
        simp only [List.mem_reverse, List.mem_cons] at hc
        simp only [List.mem_append, List.mem_cons]
        rcases hc with hc | hc
        · exact .inr (.inl hc)
        · exact .inl hc
      · intro c hc
        have hrest := ih h hc
        rw [List.nil_append] at hrest
        exact List.mem_append_right _ (List.mem_cons_of_mem _ hrest)
  | case4 current c rest _ ih =>
      intro d hd
      have hrest := ih h hd
      simp only [List.mem_append, List.mem_cons] at hrest ⊢
      rcases hrest with (hrest | hrest) | hrest
      · exact .inr (.inl hrest)
      · exact .inl hrest
      · exact .inr (.inr hrest)

/-- The marks of a source are written with its characters. -/
theorem writtenWith_marksOf {source : String} {marks : List Mark} (h : marksOf source = .ok marks) :
    WrittenWith source.toList marks :=
  writtenWith_scanLines (fun _ hline => mem_feedLines hline) h

/-! ## Directives -/

/-- Stripping adds no character. -/
theorem mem_strip {text : String} {c : Char} (h : c ∈ (strip text).toList) : c ∈ text.toList := by
  rw [strip, String.toList_ofList, dropWhileEnd, List.mem_reverse] at h
  have hend := List.mem_reverse.mp ((List.dropWhile_suffix _).subset h)
  exact (List.dropWhile_suffix _).subset hend

theorem afterWord?_subset {word cs rest : List Char} (h : afterWord? word cs = some rest) :
    rest ⊆ cs := by
  unfold afterWord? at h
  split at h
  · split at h
    · cases h
      exact List.nil_subset _
    · rename_i hdrop
      split at h
      · cases h
      · cases h
        rw [← hdrop]
        exact List.drop_subset _ _
  · cases h

/-- The text of a directive is part of its comment. -/
theorem ofComment?_subset {line : Nat} {comment : String} {d : Directive}
    (h : ofComment? line comment = some d) : d.text.toList ⊆ comment.toList := by
  unfold ofComment? at h
  split at h
  · rename_i rest hcomment
    split at h
    · rename_i after hdrop
      obtain ⟨kind, -, hkind⟩ := List.exists_of_findSome?_eq_some h
      obtain ⟨text, htext, rfl⟩ := Option.map_eq_some_iff.mp hkind
      intro c hc
      have hafter := afterWord?_subset htext (by simpa using mem_strip hc)
      have hrest : c ∈ rest := by
        apply (List.dropWhile_suffix isBlank).subset
        rw [hdrop]
        exact List.mem_cons_of_mem _ hafter
      rw [hcomment]
      exact List.mem_cons_of_mem _ hrest
    · cases h
  · cases h

/-- The texts of directives consist of certain characters. -/
def TextsWithin (cs : List Char) (directives : List Directive) : Prop :=
  ∀ d ∈ directives, d.text.toList ⊆ cs

/-- The directives that are bound were waiting, or bound before. -/
theorem mem_bind {table : DirectiveTable} {line : Nat} {directives : List Directive}
    {entry : Nat × List Directive} (h : entry ∈ table.bind line directives) {d : Directive}
    (hd : d ∈ entry.2) : d ∈ directives ∨ ∃ old ∈ table, d ∈ old.2 := by
  induction table with
  | nil =>
      rw [DirectiveTable.bind, List.mem_singleton] at h
      subst h
      exact .inl hd
  | cons first rest ih =>
      obtain ⟨l, found⟩ := first
      rw [DirectiveTable.bind] at h
      split at h
      · rcases List.mem_cons.mp h with rfl | h
        · rcases List.mem_append.mp hd with hd | hd
          · exact .inr ⟨(l, found), List.mem_cons_self, hd⟩
          · exact .inl hd
        · exact .inr ⟨entry, List.mem_cons_of_mem _ h, hd⟩
      · rcases List.mem_cons.mp h with rfl | h
        · exact .inr ⟨(l, found), List.mem_cons_self, hd⟩
        · exact (ih h).imp_right fun ⟨old, hold, hmem⟩ => ⟨old, List.mem_cons_of_mem _ hold, hmem⟩

/-- Binding directives to lines changes none of their texts. -/
theorem textsWithin_bindFrom {cs : List Char} {table : DirectiveTable} {pending : List Directive}
    {marks : List Mark} (htable : ∀ entry ∈ table, TextsWithin cs entry.2)
    (hpending : TextsWithin cs pending) (h : WrittenWith cs marks) :
    ∀ entry ∈ (bindFrom table pending marks).1, TextsWithin cs entry.2 := by
  have htail {mark : Mark} {rest : List Mark} (h : WrittenWith cs (mark :: rest)) :
      WrittenWith cs rest := fun line text hmem => h line text (List.mem_cons_of_mem _ hmem)
  fun_induction bindFrom table pending marks with
  | case1 => exact htable
  | case2 table pending line text rest directive hdirective ih =>
      refine ih htable (fun d hd => ?_) (htail h)
      rcases List.mem_append.mp hd with hd | hd
      · exact hpending d hd
      · rw [List.mem_singleton.mp hd]
        exact List.Subset.trans (ofComment?_subset hdirective) (h line text List.mem_cons_self)
  | case3 table pending line text rest _ ih => exact ih htable hpending (htail h)
  | case4 table pending line rest ih => exact ih htable hpending (htail h)
  | case5 table pending line rest _ ih => exact ih htable (by simp [TextsWithin]) (htail h)
  | case6 table pending line rest _ ih =>
      refine ih (fun entry hentry d hd => ?_) (by simp [TextsWithin]) (htail h)
      rcases mem_bind hentry hd with hd | ⟨old, hold, hd⟩
      · exact hpending d hd
      · exact htable old hold d hd

/-- The text of a directive consists of characters of the source. -/
theorem text_subset_of_scan {source : String} {entry : Nat × List Directive}
    (h : entry ∈ (scan source).1) {d : Directive} (hd : d ∈ entry.2) :
    d.text.toList ⊆ source.toList := by
  unfold scan at h
  split at h
  · cases h
  · rename_i marks hmarks
    exact textsWithin_bindFrom (by simp) (by simp [TextsWithin]) (writtenWith_marksOf hmarks)
      entry h d hd

end AikenForge.Directive
