/-
# What lowering leaves alone

Lowering an expression, or a block of statements, leaves the aliases as they were. It adds to the
records and to the list of used builtins, and never takes away from them or changes their order.
Both hold of every run, whether it gives a text or fails, because the state that a failure reaches
is kept.

The operations of lowering do so one by one, and it passes through sequences: a run that fails in
its first part has reached a state that only grew, and one that does not goes on from such a state.
-/

import AikenForge.Proofs.Composition

namespace AikenForge.Frame

open AikenForge.Source AikenForge.Lowering

variable {α β : Type}

/-- The state that a run reaches, with a value or with a failure. -/
def reachedState (action : Lowering α) (before : LoweringState) : LoweringState :=
  (outcome action before).2

/-- A registry has the mappings that another has, and its used builtins begin with those of the
other. -/
structure Continues (before after : Registry) : Prop where
  mappings : after.mappings = before.mappings
  used : before.used <+: after.used

/-- A state keeps all that another one has collected: every list of records begins with what it was,
and so does the list of used builtins of the registry, if there is one. -/
structure Grows (before after : LoweringState) : Prop where
  whens : before.records.whens <+: after.records.whens
  pipes : before.records.pipes <+: after.records.pipes
  expects : before.records.expects <+: after.records.expects
  registry : Option.Rel Continues before.registry after.registry

/-! ## Growth along a run -/

theorem Continues.refl (registry : Registry) : Continues registry registry :=
  ⟨rfl, List.prefix_refl _⟩

/-- A registry may go on twice. -/
theorem Continues.trans {first second third : Registry} (h : Continues first second)
    (h' : Continues second third) : Continues first third :=
  ⟨h'.mappings.trans h.mappings, h.used.trans h'.used⟩

/-- Using a target goes on with the history. -/
theorem continues_use (registry : Registry) (target : String) :
    Continues registry (registry.use target) := by
  refine ⟨mappings_use registry target, ?_⟩
  unfold Registry.use addOnce
  dsimp only
  split
  · exact List.prefix_refl _
  · exact List.prefix_append _ _

theorem registry_refl (registry : Option Registry) : Option.Rel Continues registry registry := by
  cases registry with
  | none => exact .none
  | some registry => exact .some (.refl registry)

theorem registry_trans {first second third : Option Registry}
    (h : Option.Rel Continues first second) (h' : Option.Rel Continues second third) :
    Option.Rel Continues first third := by
  cases h with
  | none => exact h'
  | some h =>
      cases h' with
      | some h' => exact .some (h.trans h')

/-- A state may grow twice. -/
theorem Grows.trans {first second third : LoweringState} (h : Grows first second)
    (h' : Grows second third) : Grows first third :=
  ⟨h.whens.trans h'.whens, h.pipes.trans h'.pipes, h.expects.trans h'.expects,
    registry_trans h.registry h'.registry⟩

/-- Growth looks at the records and at the registry only. -/
theorem Grows.of_eq {before after : LoweringState} (hrecords : after.records = before.records)
    (hregistry : after.registry = before.registry) : Grows before after := by
  obtain ⟨aliases, records, registry, journal⟩ := after
  obtain ⟨rfl, rfl⟩ : records = before.records ∧ registry = before.registry :=
    ⟨hrecords, hregistry⟩
  exact ⟨List.prefix_refl _, List.prefix_refl _, List.prefix_refl _, registry_refl _⟩

/-- A state grows by what is recorded. -/
theorem grows_record (state : LoweringState) (added : Records) :
    Grows state { state with records := state.records ++ added } :=
  ⟨List.prefix_append _ _, List.prefix_append _ _, List.prefix_append _ _, registry_refl _⟩

/-- It grows by a use. -/
theorem grows_builtinTarget? (ctx : Context) (callee : Expr) (state : LoweringState) :
    Grows state (reachedState (builtinTarget? ctx callee) state) := by
  unfold reachedState
  rw [outcome_builtinTarget?]
  refine ⟨List.prefix_refl _, List.prefix_refl _, List.prefix_refl _, ?_⟩
  cases state.registry with
  | none => exact .none
  | some registry =>
      cases foundTarget? ctx state callee with
      | none => exact .some (.refl registry)
      | some target => exact .some (continues_use registry target)

/-- A sequence reaches what its first part reaches, if that fails, and otherwise what its second
part reaches from there. -/
theorem reachedState_bind (action : Lowering α) (next : α → Lowering β) (state : LoweringState) :
    reachedState (action >>= next) state = reachedState action state ∨
      ∃ value, reachedState (action >>= next) state =
        reachedState (next value) (reachedState action state) := by
  unfold reachedState
  rw [outcome_bind]
  rcases hrun : outcome action state with ⟨failure | value, between⟩
  · exact .inl rfl
  · exact .inr ⟨value, rfl⟩

/-- Every run of lowering only adds to what was collected. -/
theorem grows_reachedState {extent : Extent} {action : Lowering α} (h : Composed extent action)
    (state : LoweringState) : Grows state (reachedState action state) := by
  induction h generalizing state with
  | pure | throw | report | ofReporting | setAlias | dropAliases => exact .of_eq rfl rfl
  | bind _ _ ih ihnext =>
      obtain hreached | ⟨value, hreached⟩ := reachedState_bind _ _ state
      · rw [hreached]
        exact ih state
      · rw [hreached]
        exact (ih state).trans (ihnext value _)
  | aliases next _ ih => exact ih state.aliases state
  | builtin ctx callee => exact grows_builtinTarget? ctx callee state
  | record added => exact grows_record state added
  | withAliases change _ ih =>
      have hinside := ih { state with aliases := change state.aliases }
      exact ⟨hinside.whens, hinside.pipes, hinside.expects, hinside.registry⟩
  | separately _ ih =>
      -- The records are put back, so only the registry has gone on.
      have hinside := ih { state with aliases := [], records := {} }
      exact ⟨List.prefix_refl _, List.prefix_refl _, List.prefix_refl _, hinside.registry⟩

/-- A run of what an expression is composed of leaves the aliases as they were. -/
theorem aliases_reachedState {action : Lowering α} (h : Composed .expression action)
    (state : LoweringState) : (reachedState action state).aliases = state.aliases := by
  generalize hextent : Extent.expression = extent at h
  induction h generalizing state with
  | pure | throw | report | record | withAliases | ofReporting => rfl
  | bind _ _ ih ihnext =>
      obtain hreached | ⟨value, hreached⟩ := reachedState_bind _ _ state
      · rw [hreached]
        exact ih state hextent
      · rw [hreached]
        exact (ihnext value _ hextent).trans (ih state hextent)
  | aliases next _ ih => exact ih state.aliases state hextent
  | builtin ctx callee =>
      unfold reachedState
      rw [outcome_builtinTarget?]
  | setAlias | dropAliases | separately => cases hextent

/-- From every state, lowering an expression and lowering a block of statements leave the aliases as
they were and only add to the records and to the used builtins, whether they succeed or fail. -/
theorem lower_framed (ctx : Context) (state : LoweringState) :
    (∀ e : Expr,
      (reachedState (lower ctx e) state).aliases = state.aliases ∧
        Grows state (reachedState (lower ctx e) state)) ∧
    (∀ statements : List Stmt,
      (reachedState (blockText (lowerLines ctx statements)) state).aliases = state.aliases ∧
        Grows state (reachedState (blockText (lowerLines ctx statements)) state)) := by
  constructor
  · intro e
    exact ⟨aliases_reachedState (composed_lower ctx e) state,
      grows_reachedState (composed_lower ctx e : Composed .expression _) state⟩
  · intro statements
    exact ⟨rfl, grows_reachedState (composed_blockText (composed_lowerLines ctx statements)) state⟩

-- A number without bound fails inside a function, after the pipe beside it was recorded.
example :
    let run := outcome (lower {} (.lambda (.mk [] [.mk "tx" none none] none [] none)
      (.list [.call (.name "pipe") [.name "tx", .name "head"] [], .constant (.real .infinite)])))
      { aliases := [("tx", "p.transaction")], registry := some {} }
    run.1 = .error .infiniteInteger ∧ run.2.aliases = [("tx", "p.transaction")] ∧
      run.2.records = { pipes := [⟨"tx", [⟨"head_list", []⟩]⟩] } ∧
      run.2.registry = some { used := ["head_list"] } :=
  ⟨rfl, rfl, rfl, rfl⟩

end AikenForge.Frame
