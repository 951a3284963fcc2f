/-
# Local names in the body of a function

If every use of some names in the statements of a body, at every depth, is harmless, and so is every
use in the directives above the function, then the body is lowered as in the scope that takes the
names as local.
-/

import AikenForge.Proofs.Local.Harmless

namespace AikenForge.Locals

open AikenForge.Source AikenForge.Text AikenForge.Lowering AikenForge.Inlining
    AikenForge.Expectation

variable {ctx : Context} {builtins : Option (Table String)} {names : List String}

/-- Uses are clear item by item. -/
theorem clear_flatMap {α : Type} {items : List α} {f : α → List Use} :
    Clear ctx builtins names (items.flatMap f) ↔
    ∀ item ∈ items, Clear ctx builtins names (f item) := by
  unfold Clear
  simp only [List.mem_flatMap]
  constructor
  · intro h item hitem use huse
    exact h use ⟨item, hitem, huse⟩
  · rintro h use ⟨item, hitem, huse⟩
    exact h item hitem use huse

/-! ## Directives -/

/-- The directives of a line in which all uses are harmless. -/
theorem clear_ofKind {line : Nat} (h : Clear ctx builtins names (lineUses ctx line))
    {kind : DirectiveKind} {d : Directive} (hd : d ∈ ctx.directives.ofKind line kind) :
    d.kind = kind ∧ Clear ctx builtins names (directiveUses ctx d) := by
  obtain ⟨hd, hkind⟩ := List.mem_filter.mp hd
  exact ⟨by simpa using hkind, clear_flatMap.mp h d hd⟩

/-- The expression that a directive holds, unless it is a pipe. -/
theorem clear_readable {d : Directive} (hkind : d.kind ≠ .pipe)
    (h : Clear ctx builtins names (directiveUses ctx d)) {e : Expr}
    (hread : readable? ctx d.text = some e) : Clear ctx builtins names (uses ctx e) := by
  rw [← usesAll_singleton]
  unfold directiveUses at h
  cases hkind' : d.kind with
  | pipe => exact absurd hkind' hkind
  | when | expect =>
      rw [hkind', hread] at h
      exact h

/-- Splitting off a message adds no use. -/
theorem clear_splitExpectation (e : Expr) (h : Clear ctx builtins names (uses ctx e)) :
    Clear ctx builtins names (uses ctx (splitExpectation e).1) := by
  unfold splitExpectation
  split
  · exact (clear_append.mp h).1
  · exact h

theorem filterMap_of_mapM {read : String → Option Expr} {parts : List String}
    {expressions : List Expr} (h : (parts.map read).mapM id = some expressions) :
    parts.filterMap read = expressions := by
  induction parts generalizing expressions with
  | nil => exact Option.some.inj h
  | cons part parts ih =>
      rw [List.map_cons, List.mapM_cons] at h
      obtain ⟨first, hfirst, h⟩ := Option.bind_eq_some_iff.mp h
      obtain ⟨rest, hrest, h⟩ := Option.bind_eq_some_iff.mp h
      have hread : read part = some first := hfirst
      rw [List.filterMap_cons_some hread, ih hrest]
      exact Option.some.inj h

/-- What an expect directive checks is lowered as where the names are local. -/
theorem agrees_checked {d : Directive} (hkind : d.kind = .expect)
    (h : Clear ctx builtins names (directiveUses ctx d)) {e : Expr}
    (hread : readable? ctx d.text = some e) :
    Agrees builtins (lower ctx (splitExpectation e).1)
      (lower (ctx.withLocals names) (splitExpectation e).1) :=
  agrees_lower _ (clear_splitExpectation e (clear_readable (by simp [hkind]) h hread))

/-- The checks of a line are lowered alike where its uses are clear. -/
theorem agrees_expectLines {line : Nat} (h : Clear ctx builtins names (lineUses ctx line)) :
    Agrees builtins (expectLines ctx line) (expectLines (ctx.withLocals names) line) := by
  refine agrees_congruence.checks options_withLocals rfl fun d hd e hread => ?_
  obtain ⟨hkind, hclear⟩ := clear_ofKind h hd
  exact agrees_checked hkind hclear hread

/-- So is its pipe. -/
theorem agrees_pipeLine? {line : Nat} (h : Clear ctx builtins names (lineUses ctx line)) :
    Agrees builtins (pipeLine? ctx line) (pipeLine? (ctx.withLocals names) line) := by
  refine agrees_congruence.pipeAbove options_withLocals rfl fun d hd parts hparts => ?_
  obtain ⟨hkind, hclear⟩ := clear_ofKind h hd
  rw [directiveUses, hkind] at hclear
  dsimp only at hclear
  rw [filterMap_of_mapM hparts] at hclear
  exact agrees_lowerPipe parts hclear

/-- So is what it dispatches on. -/
theorem agrees_subjectText {line : Nat} {subject : String}
    (hsubject : whenSubject? ctx line = some subject)
    (h : Clear ctx builtins names (lineUses ctx line)) :
    Agrees builtins (subjectText ctx subject) (subjectText (ctx.withLocals names) subject) := by
  obtain ⟨d, hd, rfl⟩ := Option.map_eq_some_iff.mp hsubject
  obtain ⟨hkind, hclear⟩ := clear_ofKind h (List.mem_of_getLast? hd)
  refine agrees_congruence.subject options_withLocals fun e hread => ?_
  exact agrees_lower e (clear_readable (by simp [hkind]) hclear hread)

/-! ## Statements -/

/-- What is lowered of a statement in which all uses are harmless is lowered as where the names are
local. -/
theorem relatedAt_of_clear {statement : Stmt}
    (h : Clear ctx builtins names (statementUses ctx statement)) :
    RelatedAt (Agrees builtins) ctx (ctx.withLocals names) statement := by
  obtain ⟨hheads, hlines⟩ := clear_append.mp h
  exact {
    heads e he := agrees_lower e fun use huse => hheads use (uses_subset_usesAll he huse)
    pipe := agrees_pipeLine? hlines
    checks := agrees_expectLines hlines
    dispatches := rfl
    subject text htext := agrees_subjectText htext hlines
    isAlias _ _ _ _ _ := rfl }

/-- The body of a function in which all uses of some names are harmless is lowered as where these
are local. -/
theorem agrees_functionText {f : FunctionSource}
    (h : Clear ctx builtins names (functionUses ctx f)) :
    Agrees builtins (functionText ctx f) (functionText (ctx.withLocals names) f) := by
  obtain ⟨hheader, hbody⟩ := clear_append.mp h
  refine agrees_congruence.function options_withLocals rfl (fun _ _ => rfl) (fun d hd hkind => ?_)
    fun statement hmem => relatedAt_of_clear (clear_flatMap.mp hbody statement hmem)
  obtain ⟨line, hline, hd⟩ := List.mem_flatMap.mp hd
  have hclear := clear_flatMap.mp (clear_flatMap.mp hheader line hline) d hd
  exact agrees_congruence.check options_withLocals fun e hread => agrees_checked hkind hclear hread

end AikenForge.Locals
