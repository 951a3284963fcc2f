/-
# Computations from a given state

What a computation gives may depend on the aliases in force where it starts. Expressions leave these
as they are, so a state that is alike before an expression is so after it. Statements change them,
and the state that the next statement starts from is the one that the statement before it leaves.
Since alike states lead to alike states, it is enough to know that state from one run.
-/

import AikenForge.Proofs.Ending
import AikenForge.Proofs.Steady

namespace AikenForge.Lowering

open AikenForge.Frame (reachedState)

variable {α β : Type} {fails : Failure → Prop} {gives : α → Prop} {further : β → Prop}
  {base : LoweringState} {action : Lowering α} {next : α → Lowering β}

/-! ## States -/

/-- A state in which names have lost their aliases. -/
def dropped (names : List String) (state : LoweringState) : LoweringState :=
  { state with aliases := names.foldl Table.erase state.aliases }

/-- States that are alike stay so without some aliases. -/
theorem Alike.dropped {s t : LoweringState} (h : Alike s t) (names : List String) :
    Alike (Lowering.dropped names s) (Lowering.dropped names t) :=
  ⟨congrArg (names.foldl Table.erase) h.aliases, h.mappings⟩

/-- From alike states a uniform computation gives the same result and leaves alike states. -/
theorem Uniform.alike_reachedState (h : Uniform action) {s t : LoweringState} (hst : Alike s t) :
    (outcome action s).1 = (outcome action t).1 ∧
      Alike (reachedState action s) (reachedState action t) := by
  obtain ⟨result, added, s', t', hs, ht, hst', -⟩ := h s t hst
  unfold reachedState
  rw [hs, ht]
  exact ⟨rfl, hst'⟩

/-- A uniform computation leaves the mappings of the registry. -/
theorem Uniform.mappings_reachedState (h : Uniform action) (state : LoweringState) :
    (reachedState action state).registry.map Registry.mappings =
      state.registry.map Registry.mappings := by
  obtain ⟨result, added, s', t', hs, -, -, hmappings, -⟩ := h state state (.refl state)
  unfold reachedState
  rw [hs]
  exact hmappings

/-- A steady computation leaves a state alike to the one it starts from. -/
theorem Steady.alike_reachedState (h : Steady action) (state : LoweringState) :
    Alike state (reachedState action state) := by
  obtain ⟨result, added, s', t', hs, -, hstate, -⟩ := h state state (.refl state)
  unfold reachedState
  rw [hs]
  exact hstate

/-! ## From alike states to alike states -/

/-- A note is taken without fail. -/
theorem ends_note (level : Level) (channel : Channel) (message : String) :
    Ends (Alike base) fails (fun _ => True) (note level channel message) :=
  ends_modify trivial fun _ h => ⟨h.aliases, h.mappings⟩

theorem ends_warn (channel : Channel) (message : String) :
    Ends (Alike base) fails (fun _ => True) (warn channel message) :=
  ends_note .warning channel message

/-- Recording something cannot fail. -/
theorem ends_modifyRecords (change : Records → Records) :
    Ends (Alike base) fails (fun _ => True) (modifyRecords change) :=
  ends_modify trivial fun _ h => ⟨h.aliases, h.mappings⟩

theorem alike_journal (state : LoweringState) (journal : Journal) (h : Alike base state) :
    Alike base { state with journal } :=
  ⟨h.aliases, h.mappings⟩

/-- Only a name has a target. -/
theorem ends_builtinTarget? (ctx : Context) (callee : Source.Expr) :
    Ends (Alike base) fails (fun target => target.isSome → callee.name?.isSome)
      (builtinTarget? ctx callee) := by
  intro state hstate
  have hrun := outcome_builtinTarget? ctx callee state
  unfold outcome at hrun
  rw [hrun]
  refine ⟨?_, hstate.aliases, ?_⟩
  · change (foundTarget? ctx state callee).isSome → callee.name?.isSome
    unfold foundTarget?
    split
    · rename_i hname _
      exact fun _ => by simp [hname]
    · exact fun h => absurd h (by simp)
  · rw [mappings_useTarget]
    exact hstate.mappings

/-- The value that a uniform computation gives is the one it gives from the state itself. -/
theorem ends_fromBase (h : Ends (Alike base) fails gives action) (hu : Uniform action) :
    Ends (Alike base) fails (fun value => gives value ∧ (outcome action base).1 = .ok value)
      action := by
  intro state hstate
  obtain ⟨hmeets, hkept⟩ := h state hstate
  have hsame : (outcome action base).1 = (outcome action state).1 :=
    (hu.alike_reachedState hstate).1
  refine ⟨?_, hkept⟩
  rw [hsame]
  change Meets fails _ (outcome action state).1
  change Meets fails gives (outcome action state).1 at hmeets
  cases hresult : (outcome action state).1 with
  | error failure =>
      rw [hresult] at hmeets
      exact hmeets
  | ok value =>
      rw [hresult] at hmeets
      exact ⟨hmeets, rfl⟩

/-- Work with changed aliases, which are put back after it. -/
theorem ends_withAliases {change : Table String → Table String}
    (h : Ends (Alike { base with aliases := change base.aliases }) fails gives action) :
    Ends (Alike base) fails gives (withAliases change action) := by
  intro state hstate
  have hinside := h { state with aliases := change state.aliases }
    ⟨congrArg change hstate.aliases, hstate.mappings⟩
  exact ⟨hinside.1, hstate.aliases, hinside.2.mappings⟩

/-! ## From alike states -/

/-- From every state alike to `base`, a computation ends with a failure of one kind or with a value
of one kind. -/
def EndsFrom (base : LoweringState) (fails : Failure → Prop) (gives : α → Prop)
    (action : Lowering α) : Prop :=
  ∀ state, Alike base state → Meets fails gives (outcome action state).1

/-- How something ends from a state it does from every state that is alike. -/
theorem EndsFrom.of_alike {other : LoweringState} (h : EndsFrom base fails gives action)
    (halike : Alike base other) : EndsFrom other fails gives action :=
  fun state hstate => h state (halike.trans hstate)

/-- What ends from all states alike ends from one of them. -/
theorem EndsFrom.of_ends (h : Ends (Alike base) fails gives action) :
    EndsFrom base fails gives action :=
  fun state hstate => (h state hstate).1

theorem EndsFrom.anywhere (h : Ends (fun _ => True) fails gives action) :
    EndsFrom base fails gives action :=
  fun state _ => (h state trivial).1

theorem EndsFrom.pure {value : α} (h : gives value) :
    EndsFrom base fails gives (Pure.pure value : Lowering α) :=
  fun _ _ => h

/-- Less may be said of what is given. -/
theorem EndsFrom.imp {gives' : α → Prop} (h : EndsFrom base fails gives action)
    (himp : ∀ value, gives value → gives' value) : EndsFrom base fails gives' action :=
  fun state hstate => (h state hstate).imp himp

/-- What a sequence gives is what its second part gives from the state that the first part
leaves. -/
theorem meets_outcome_bind {state : LoweringState} (h : Meets fails gives (outcome action state).1)
    (hnext : ∀ value, gives value →
      Meets fails further (outcome (next value) (reachedState action state)).1) :
    Meets fails further (outcome (action >>= next) state).1 := by
  rw [outcome_bind]
  unfold reachedState at hnext
  rcases hrun : outcome action state with ⟨failure | value, after⟩
  · rw [hrun] at h
    exact h
  · rw [hrun] at h hnext
    exact hnext value h

/-- After a part that leaves the state alike. -/
theorem EndsFrom.after (h : Ends (Alike base) fails gives action)
    (hnext : ∀ value, gives value → EndsFrom base fails further (next value)) :
    EndsFrom base fails further (action >>= next) := by
  intro state hstate
  obtain ⟨hmeets, hkept⟩ := h state hstate
  exact meets_outcome_bind hmeets fun value hvalue => hnext value hvalue _ hkept

/-- After a part that may change the aliases. -/
theorem EndsFrom.bind (h : EndsFrom base fails gives action) (hu : Uniform action)
    (hnext : ∀ value, gives value →
      EndsFrom (reachedState action base) fails further (next value)) :
    EndsFrom base fails further (action >>= next) := fun state hstate =>
  meets_outcome_bind (h state hstate) fun value hvalue =>
    hnext value hvalue _ (hu.alike_reachedState hstate).2

/-- Before a part that depends on no state. -/
theorem EndsFrom.then (h : EndsFrom base fails gives action)
    (hnext : ∀ value, gives value → ∀ after, EndsFrom after fails further (next value)) :
    EndsFrom base fails further (action >>= next) := fun state hstate =>
  meets_outcome_bind (h state hstate) fun value hvalue => hnext value hvalue _ _ (.refl _)

/-- Before a part that leaves the state alike, and so starts from the state that the whole
leaves. -/
theorem EndsFrom.bindSteady (h : EndsFrom base fails gives action) (hu : Uniform (action >>= next))
    (hsteady : ∀ value, Steady (next value))
    (hnext : ∀ value, gives value →
      EndsFrom (reachedState (action >>= next) base) fails further (next value)) :
    EndsFrom base fails further (action >>= next) := by
  intro state hstate
  have hwhole := (hu.alike_reachedState hstate).2
  have hmeets := h state hstate
  rcases hrun : outcome action state with ⟨failure | value, between⟩
  · rw [hrun] at hmeets
    rw [outcome_bind, hrun]
    exact hmeets
  · rw [hrun] at hmeets
    have hreached : reachedState (action >>= next) state = reachedState (next value) between := by
      unfold reachedState
      rw [outcome_bind, hrun]
    rw [hreached] at hwhole
    rw [outcome_bind, hrun]
    exact hnext value hmeets _ (hwhole.trans ((hsteady value).alike_reachedState between).symm)

/-- A value put together afterwards. -/
theorem EndsFrom.map {f : α → β} (h : EndsFrom base fails gives action)
    (hf : ∀ value, gives value → further (f value)) :
    EndsFrom base fails further (f <$> action) := by
  rw [map_eq_pure_bind]
  exact h.then fun value hvalue _ => .pure (hf value hvalue)

/-- After names have lost their aliases. -/
theorem EndsFrom.drop {names : List String} {next : Unit → Lowering β}
    (h : EndsFrom (dropped names base) fails further (next ())) :
    EndsFrom base fails further (dropAliases names >>= next) :=
  fun _ hstate => h _ (hstate.dropped names)

/-- Work that changes the aliases itself, and starts from changed ones. -/
theorem EndsFrom.withAliases {change : Table String → Table String} (hu : Uniform action)
    (h : EndsFrom { base with aliases := change base.aliases } fails gives action) :
    Ends (Alike base) fails gives (withAliases change action) := by
  intro state hstate
  have hinside : Alike { base with aliases := change base.aliases }
      { state with aliases := change state.aliases } :=
    ⟨congrArg change hstate.aliases, hstate.mappings⟩
  have hmappings := hu.mappings_reachedState { state with aliases := change state.aliases }
  exact ⟨h _ hinside, hstate.aliases, hstate.mappings.trans hmappings.symm⟩

/-- A block restores the aliases, and so leaves the state alike. -/
theorem EndsFrom.inBlock (hu : Uniform action) (h : EndsFrom base fails gives action) :
    Ends (Alike base) fails gives (inBlock action) :=
  EndsFrom.withAliases hu h

/-- Work by itself starts without aliases. -/
theorem EndsFrom.separately (hu : Uniform action)
    (h : EndsFrom { base with aliases := [] } fails gives action) :
    Ends (Alike base) fails (fun result => gives result.1) (separately action) := by
  intro state hstate
  have hinside : Alike { base with aliases := [] } { state with aliases := [], records := {} } :=
    ⟨rfl, hstate.mappings⟩
  have hmappings := hu.mappings_reachedState { state with aliases := [], records := {} }
  exact ⟨(h _ hinside).map fun _ hvalue => hvalue, hstate.aliases,
    hstate.mappings.trans hmappings.symm⟩

end AikenForge.Lowering
