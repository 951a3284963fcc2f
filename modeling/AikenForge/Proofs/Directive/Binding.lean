/-
# Where directives are bound

Marks come in the order of their lines, and after a comment nothing but its line break is left on
the line. On such marks every directive that some code follows is bound once, to the line of the
first code after it; what is bound to a line keeps its order, and so do the lines. The directives
after the last code are bound to nothing.
-/

import AikenForge.Proofs.Directive.Marks
import AikenForge.Proofs.Outcome.Directive
import Mathlib.Data.List.Nodup

namespace AikenForge.Directive

/-! ## What binding should do -/

/-- The directives among marks, in their order. -/
def directivesOf (marks : List Mark) : List Directive :=
  marks.filterMap Mark.directive?

theorem directivesOf_cons (mark : Mark) (marks : List Mark) :
    directivesOf (mark :: marks) = mark.directive?.toList ++ directivesOf marks := by
  rw [directivesOf, List.filterMap_cons]
  cases mark.directive? <;> rfl

/-- The line of the first code among marks. -/
def firstCode? (marks : List Mark) : Option Nat :=
  marks.findSome? Mark.codeLine?

/-- What a table of directives and those left over have to be for marks. -/
structure Binds (marks : List Mark) (table : DirectiveTable) (left : List Directive) : Prop where
  /-- A directive is bound to the line of the first code after it and to no other; it is a later
  line than its own. -/
  toNext : ∀ before line text after d target, marks = before ++ .comment line text :: after →
    ofComment? line text = some d → firstCode? after = some target →
    d.line = line ∧ line < target ∧ ∀ l, d ∈ table.onLine l ↔ l = target
  /-- The lines that directives are bound to increase. -/
  increasing : (table.map Prod.fst).Pairwise (· < ·)
  /-- The directives of a line keep their order. -/
  inOrder : ∀ l, (table.onLine l).Sublist (directivesOf marks)
  /-- The directives before the last code are bound, and those after it are left over. -/
  complete : ∀ before line after, marks = before ++ .code line :: after → firstCode? after = none →
    table.flatMap Prod.snd = directivesOf before ∧ left = directivesOf after
  /-- Without code no directive is bound. -/
  codeless : firstCode? marks = none → table = [] ∧ left = directivesOf marks
  /-- A directive that is left over is bound to nothing. -/
  unbound : ∀ d ∈ left, ∀ l, d ∉ table.onLine l

/-- A directive keeps the line of its comment. -/
theorem line_of_ofComment? {line : Nat} {text : String} {d : Directive}
    (h : ofComment? line text = some d) : d.line = line := by
  unfold ofComment? at h
  split at h
  · split at h
    · obtain ⟨kind, -, hkind⟩ := List.exists_of_findSome?_eq_some h
      obtain ⟨_, -, rfl⟩ := Option.map_eq_some_iff.mp hkind
      rfl
    · cases h
  · cases h

/-- Only a comment is a directive. -/
theorem Mark.eq_comment_of_directive? {mark : Mark} {d : Directive} (h : mark.directive? = some d) :
    ∃ text, mark = .comment d.line text := by
  cases mark with
  | comment line text => exact ⟨text, by rw [line_of_ofComment? h]⟩
  | layout _ => cases h
  | code _ => cases h

/-- Directives come on later and later lines. -/
theorem Ordered.directives {marks : List Mark} (h : Ordered marks) :
    (directivesOf marks).Pairwise fun a b => a.line < b.line := by
  refine h.apart.filterMap _ fun a b hapart d hd d' hd' => ?_
  obtain ⟨text, rfl⟩ := Mark.eq_comment_of_directive? hd
  obtain ⟨text', rfl⟩ := Mark.eq_comment_of_directive? hd'
  exact hapart rfl rfl

/-- Marks in order have no directive twice, as their lines differ. -/
theorem Ordered.nodup_directives {marks : List Mark} (h : Ordered marks) :
    (directivesOf marks).Nodup :=
  h.directives.imp fun hlt heq => Nat.ne_of_lt hlt (congrArg Directive.line heq)

/-! ## Groups

Binding puts the waiting directives into the table when code comes. Without the table this is a walk
that closes a group of directives at each line of code for which some of them wait. -/

/-- The groups that marks close, with the lines of the code that closes them. -/
def groups (pending : List Directive) : List Mark → DirectiveTable
  | [] => []
  | .code line :: rest =>
    if pending.isEmpty then groups [] rest else (line, pending) :: groups [] rest
  | mark :: rest => groups (pending ++ mark.directive?.toList) rest

/-- The directives that wait after marks. -/
def waiting (pending : List Directive) : List Mark → List Directive
  | [] => pending
  | .code _ :: rest => waiting [] rest
  | mark :: rest => waiting (pending ++ mark.directive?.toList) rest

section Groups

variable {pending : List Directive} {marks rest : List Mark}

/-- Groups go on with what waits after the first marks. -/
theorem groups_append (pending : List Directive) (first second : List Mark) :
    groups pending (first ++ second) =
      groups pending first ++ groups (waiting pending first) second := by
  fun_induction groups pending first with
  | case1 => rfl
  | case2 pending line rest hempty ih => simpa [groups, waiting, hempty] using ih
  | case3 pending line rest hpending ih => simpa [groups, waiting, hpending] using ih
  | case4 pending mark rest hcode ih => cases mark <;> simp_all [groups, waiting]

/-- What waits after all marks is what waits after the last ones. -/
theorem waiting_append (pending : List Directive) (first second : List Mark) :
    waiting pending (first ++ second) = waiting (waiting pending first) second := by
  fun_induction waiting pending first with
  | case1 => rfl
  | case2 pending line rest ih => simpa [waiting] using ih
  | case3 pending mark rest hcode ih => cases mark <;> simp_all [waiting]

/-- No directive is lost and none is bound twice. -/
theorem flatMap_groups (pending : List Directive) (marks : List Mark) :
    (groups pending marks).flatMap Prod.snd ++ waiting pending marks =
      pending ++ directivesOf marks := by
  fun_induction groups pending marks with
  | case1 => simp [waiting, directivesOf]
  | case2 pending line rest hempty ih =>
      simpa [waiting, directivesOf_cons, Mark.directive?, List.isEmpty_iff.mp hempty] using ih
  | case3 pending line rest hpending ih =>
      simpa [waiting, directivesOf_cons, Mark.directive?] using ih
  | case4 pending mark rest hcode ih =>
      rw [waiting, ih, directivesOf_cons, List.append_assoc]
      exact hcode

theorem firstCode?_cons_none {mark : Mark} (h : firstCode? (mark :: rest) = none) :
    mark.codeLine? = none ∧ firstCode? rest = none := by
  rw [firstCode?, List.findSome?_cons] at h
  split at h
  · cases h
  · exact ⟨‹_›, h⟩

/-- Marks without code close no group. -/
theorem groups_of_codeless (h : firstCode? marks = none) : groups pending marks = [] := by
  fun_induction groups pending marks with
  | case1 => rfl
  | case2 | case3 => cases (firstCode?_cons_none h).1
  | case4 pending mark rest hcode ih => exact ih (firstCode?_cons_none h).2

/-- Without code everything goes on waiting. -/
theorem waiting_of_codeless (h : firstCode? marks = none) :
    waiting pending marks = pending ++ directivesOf marks := by
  simpa [groups_of_codeless h] using flatMap_groups pending marks

/-- A line that lies before every group that marks close: no mark is before it, and no directive
waits for code on the line itself. -/
structure Ahead (floor : Nat) (pending : List Directive) (marks : List Mark) : Prop where
  lines : ∀ mark ∈ marks, floor ≤ mark.line
  waits : pending ≠ [] → ∀ line, .code line ∈ marks → floor < line

/-- Code takes all that waits. -/
theorem Ahead.code {floor line : Nat} (h : Ahead floor pending (.code line :: rest)) :
    Ahead floor [] rest :=
  ⟨fun mark hmark => h.lines mark (List.mem_cons_of_mem _ hmark), fun hne => absurd rfl hne⟩

/-- A comment goes on waiting for code that is further down. -/
theorem Ahead.step {floor : Nat} {mark : Mark} (h : Ahead floor pending (mark :: rest))
    (horder : Ordered (mark :: rest)) : Ahead floor (pending ++ mark.directive?.toList) rest := by
  refine ⟨fun m hm => h.lines m (List.mem_cons_of_mem _ hm), fun hne line hline => ?_⟩
  cases hd : mark.directive? with
  | none =>
      rw [hd, Option.toList_none, List.append_nil] at hne
      exact h.waits hne line (List.mem_cons_of_mem _ hline)
  | some d =>
      obtain ⟨text, rfl⟩ := Mark.eq_comment_of_directive? hd
      have hfloor : floor ≤ d.line := h.lines _ List.mem_cons_self
      have hlater : d.line < line := List.rel_of_pairwise_cons horder.apart hline rfl rfl
      omega

/-- Every group is bound to a line further down. -/
theorem Ahead.lt_key {floor : Nat} (h : Ahead floor pending marks) (horder : Ordered marks) :
    ∀ entry ∈ groups pending marks, floor < entry.1 := by
  fun_induction groups pending marks with
  | case1 => simp
  | case2 pending line rest hempty ih => exact ih h.code horder.tail
  | case3 pending line rest hpending ih =>
      intro entry hentry
      rcases List.mem_cons.mp hentry with rfl | hentry
      · exact h.waits (by simpa using hpending) _ List.mem_cons_self
      · exact ih h.code horder.tail entry hentry
  | case4 pending mark rest hcode ih => exact ih (h.step horder) horder.tail

theorem Ordered.ahead {line : Nat} (h : Ordered (.code line :: rest)) : Ahead line [] rest :=
  ⟨fun _ hmark => List.rel_of_pairwise_cons h.sorted hmark, fun hne => absurd rfl hne⟩

/-- Later groups are closed on later lines. -/
theorem Ordered.increasing_groups (h : Ordered marks) (pending : List Directive) :
    ((groups pending marks).map Prod.fst).Pairwise (· < ·) := by
  fun_induction groups pending marks with
  | case1 => exact .nil
  | case2 pending line rest hempty ih => exact ih h.tail
  | case3 pending line rest hpending ih =>
      refine List.pairwise_cons.mpr ⟨fun key hkey => ?_, ih h.tail⟩
      obtain ⟨entry, hentry, rfl⟩ := List.mem_map.mp hkey
      exact h.ahead.lt_key h.tail entry hentry
  | case4 pending mark rest hcode ih => exact ih h.tail

/-- Binding to a line that nothing is bound to yet adds an entry at the end. -/
theorem bind_of_fresh {table : DirectiveTable} {line : Nat} {directives : List Directive}
    (h : ∀ entry ∈ table, entry.1 ≠ line) :
    table.bind line directives = table ++ [(line, directives)] := by
  induction table with
  | nil => rfl
  | cons entry table ih =>
      obtain ⟨l, found⟩ := entry
      have hne : (l == line) = false := by simpa using h _ List.mem_cons_self
      rw [DirectiveTable.bind, hne, ih fun other hother => h other (List.mem_cons_of_mem _ hother)]
      rfl

/-- Binding marks in order adds their groups to the table. -/
theorem bindFrom_eq_groups {table : DirectiveTable} (horder : Ordered marks)
    (h : ∀ entry ∈ table, Ahead entry.1 pending marks) :
    bindFrom table pending marks = (table ++ groups pending marks, waiting pending marks) := by
  fun_induction bindFrom table pending marks with
  | case1 => simp [groups, waiting]
  | case2 table pending line text rest d hd ih =>
      have hmark : (Mark.comment line text).directive? = some d := hd
      simpa [groups, waiting, hmark] using
        ih horder.tail fun entry hentry => by simpa [hmark] using (h entry hentry).step horder
  | case3 table pending line text rest hnone ih =>
      have hmark : (Mark.comment line text).directive? = none := hnone
      simpa [groups, waiting, hmark] using
        ih horder.tail fun entry hentry => by simpa [hmark] using (h entry hentry).step horder
  | case4 table pending line rest ih =>
      simpa [groups, waiting, Mark.directive?] using
        ih horder.tail fun entry hentry => by
          simpa [Mark.directive?] using (h entry hentry).step horder
  | case5 table pending line rest hempty ih =>
      simpa [groups, waiting, hempty] using ih horder.tail fun entry hentry => (h entry hentry).code
  | case6 table pending line rest hpending ih =>
      have hwaits : pending ≠ [] := by simpa using hpending
      have hbind : table.bind line pending = table ++ [(line, pending)] := by
        refine bind_of_fresh fun entry hentry heq => ?_
        exact Nat.lt_irrefl line (heq ▸ (h entry hentry).waits hwaits line List.mem_cons_self)
      rw [hbind] at ih ⊢
      rw [ih horder.tail ?_]
      · simp [groups, waiting, hpending]
      · intro entry hentry
        rcases List.mem_append.mp hentry with hentry | hentry
        · exact (h entry hentry).code
        · cases List.mem_singleton.mp hentry
          exact horder.ahead

/-- Marks in order are bound group by group, and no line gets two groups. -/
theorem Ordered.bindAll_eq (h : Ordered marks) :
    bindAll marks = (groups [] marks, waiting [] marks) :=
  bindFrom_eq_groups h (by simp)

end Groups

/-! ## Reading the table -/

/-- With increasing keys each entry is found on its line. -/
theorem onLine_eq {table : DirectiveTable} (h : (table.map Prod.fst).Pairwise (· < ·))
    {entry : Nat × List Directive} (hentry : entry ∈ table) : table.onLine entry.1 = entry.2 := by
  induction table with
  | nil => cases hentry
  | cons first table ih =>
      obtain ⟨l, directives⟩ := first
      obtain ⟨hfirst, hrest⟩ := List.pairwise_cons.mp h
      rcases List.mem_cons.mp hentry with rfl | hentry
      · simp [DirectiveTable.onLine]
      · have hne : (entry.1 == l) = false :=
          beq_false_of_ne (Nat.ne_of_gt (hfirst _ (List.mem_map_of_mem hentry)))
        simpa [DirectiveTable.onLine, List.lookup_cons, hne] using ih hrest hentry

/-- The directives of a line are its entry in the table. -/
theorem mem_onLine {table : DirectiveTable} {line : Nat} {d : Directive}
    (h : d ∈ table.onLine line) :
    (line, table.onLine line) ∈ table := by
  unfold DirectiveTable.onLine at h ⊢
  cases hlookup : table.lookup line with
  | none => simp [hlookup] at h
  | some directives => exact mem_of_lookup hlookup

/-- In a table without repetition a directive is bound to one line. -/
theorem line_unique {table : DirectiveTable} (h : (table.flatMap Prod.snd).Nodup)
    {first second : Nat × List Directive} (hfirst : first ∈ table) (hsecond : second ∈ table)
    {d : Directive} (hd : d ∈ first.2) (hd' : d ∈ second.2) : first = second := by
  by_contra hne
  have : Std.Symm (Function.onFun List.Disjoint (Prod.snd : Nat × List Directive → _)) :=
    ⟨fun _ _ hapart _ hd hd' => hapart hd' hd⟩
  have hdisjoint := (List.nodup_flatMap.mp h).2.forall hfirst hsecond hne
  exact hdisjoint hd hd'

theorem sublist_flatMap {table : DirectiveTable} {entry : Nat × List Directive}
    (h : entry ∈ table) : entry.2.Sublist (table.flatMap Prod.snd) := by
  obtain ⟨before, after, rfl⟩ := List.append_of_mem h
  rw [List.flatMap_append, List.flatMap_cons]
  exact (List.sublist_append_left _ _).trans (List.sublist_append_right _ _)

/-- Marks in order are bound as they should be. -/
theorem Ordered.binds {marks : List Mark} (h : Ordered marks) :
    Binds marks (bindAll marks).1 (bindAll marks).2 := by
  have hall := flatMap_groups [] marks
  have hincreasing := h.increasing_groups []
  rw [List.nil_append] at hall
  obtain ⟨hbound, -, hapart⟩ := List.nodup_append.mp (hall ▸ h.nodup_directives)
  rw [h.bindAll_eq]
  refine ⟨?toNext, hincreasing, ?inOrder, ?complete, ?codeless, ?unbound⟩
  case toNext =>
    rintro before line text after d target rfl hd htarget
    obtain ⟨between, mark, rest, rfl, hmark, hbetween⟩ := List.findSome?_eq_some_iff.mp htarget
    obtain rfl : mark = .code target := by
      cases mark <;> cases hmark
      rfl
    have hlater : line < target := by
      have hmem : Mark.code target ∈ between ++ .code target :: rest := by simp
      exact List.rel_of_pairwise_cons (List.pairwise_append.mp h.apart).2.1 hmem rfl rfl
    have hcodeless : firstCode? between = none := List.findSome?_eq_none_iff.mpr hbetween
    have hcomment : (Mark.comment line text).directive? = some d := hd
    -- The group that the first code after the directive closes has the directive in it.
    have hgroup : ∃ directives, d ∈ directives ∧ (target, directives) ∈
        groups [] (before ++ .comment line text :: (between ++ .code target :: rest)) := by
      refine ⟨waiting [] before ++ d :: directivesOf between, by simp, ?_⟩
      rw [groups_append, groups, hcomment, groups_append, groups_of_codeless hcodeless,
        waiting_of_codeless hcodeless, groups]
      · simp
      · exact fun _ heq => nomatch heq
    obtain ⟨directives, hmem, hgroup⟩ := hgroup
    refine ⟨line_of_ofComment? hd, hlater, fun l => ⟨fun hl => ?_, ?_⟩⟩
    · exact congrArg Prod.fst (line_unique hbound (mem_onLine hl) hgroup hl hmem)
    · rintro rfl
      rw [onLine_eq hincreasing hgroup]
      exact hmem
  case inOrder =>
    intro l
    cases hl : (groups [] marks).onLine l with
    | nil => exact List.nil_sublist _
    | cons d others =>
        have hentry := mem_onLine (hl ▸ List.mem_cons_self : d ∈ (groups [] marks).onLine l)
        rw [← hl, ← hall]
        exact (sublist_flatMap hentry).trans (List.sublist_append_left _ _)
  case complete =>
    rintro before line after rfl hafter
    have hbefore := flatMap_groups [] before
    rw [List.nil_append] at hbefore
    constructor
    · rw [groups_append, groups, groups_of_codeless hafter]
      split
      · rename_i hempty
        rw [← hbefore, List.isEmpty_iff.mp hempty]
        simp
      · rw [← hbefore]
        simp
    · rw [waiting_append, waiting, waiting_of_codeless hafter, List.nil_append]
  case codeless =>
    intro hnone
    exact ⟨groups_of_codeless hnone, by rw [waiting_of_codeless hnone, List.nil_append]⟩
  case unbound =>
    intro d hd l hl
    exact hapart _ (List.mem_flatMap.mpr ⟨_, mem_onLine hl, hl⟩) _ hd rfl

/-- Directives are bound as they should be on all marks in order. The marks of every text have lines
that never decrease, and those of a text without a stray carriage return are in order. -/
theorem directives_bound :
    (∀ marks, Ordered marks → Binds marks (bindAll marks).1 (bindAll marks).2) ∧
    (∀ source marks, marksOf source = .ok marks →
      (scan source).1 = (bindAll marks).1 ∧
      (marks.Pairwise fun a b => a.line ≤ b.line) ∧
      (Paired source.toList → Ordered marks)) := by
  refine ⟨fun marks h => h.binds, fun source marks h => ⟨?_, sorted_marksOf h, fun hpaired =>
    ordered_marksOf hpaired h⟩⟩
  rw [scan, h]

/-- A directive before code is bound to it, and one at the end to nothing. -/
theorem directives_bound_around_code :
    ∃ marks, marksOf "# @expect y\nx = 1\n# @when z\n" = .ok marks ∧ Ordered marks ∧
      Binds marks [(2, [⟨.expect, "y", 1⟩])] [⟨.when, "z", 3⟩] := by
  have hmarks : marksOf "# @expect y\nx = 1\n# @when z\n" = .ok
      [.comment 1 "# @expect y", .layout 1, .code 2, .code 2, .code 2, .layout 2,
        .comment 3 "# @when z", .layout 3] := rfl
  have hpaired : Paired "# @expect y\nx = 1\n# @when z\n".toList :=
    fun rest h => absurd (h.subset List.mem_cons_self) (by decide)
  have hordered := (directives_bound.2 _ _ hmarks).2.2 hpaired
  exact ⟨_, hmarks, hordered, directives_bound.1 _ hordered⟩

end AikenForge.Directive
