/-
# Runs of lowering

A computation that lowers source takes a state to a result and a further state. This module names
that function, and what it means for a computation to succeed, and gives the rules by which a run of
a composed computation splits into runs of its parts. Proofs about lowering use these rules and
never open the monad.
-/

import AikenForge.Lowering.Basic

namespace AikenForge.Lowering

variable {α β : Type}

/-- What a computation gives from a state: a value or a failure, and the state it reaches. -/
def outcome (action : Lowering α) (state : LoweringState) : Except Failure α × LoweringState :=
  action.run state

theorem outcome_pure (value : α) (state : LoweringState) :
    outcome (pure value) state = (.ok value, state) :=
  rfl

/-- Running one thing after another: a failure ends the run. -/
theorem outcome_bind (action : Lowering α) (next : α → Lowering β) (state : LoweringState) :
    outcome (action >>= next) state =
      match outcome action state with
      | (.ok value, after) => outcome (next value) after
      | (.error failure, after) => (.error failure, after) := by
  change ExceptT.bindCont next (outcome action state).1 (outcome action state).2 = _
  rcases outcome action state with ⟨_ | _, _⟩ <;> rfl

/-- Looking at the state gives the state. -/
theorem outcome_get_bind (next : LoweringState → Lowering β) (state : LoweringState) :
    outcome (get >>= next) state = outcome (next state) state :=
  rfl

/-- A computation succeeds from a state with a value and reaches a further state. -/
def Yields (action : Lowering α) (before : LoweringState) (value : α) (after : LoweringState) :
    Prop :=
  outcome action before = (.ok value, after)

/-- A value is given without a change. -/
@[simp]
theorem yields_pure {value result : α} {before after : LoweringState} :
    Yields (pure value) before result after ↔ value = result ∧ before = after := by
  change ((Except.ok value : Except Failure α), before) = (.ok result, after) ↔ _
  simp

/-- A sequence succeeds exactly if its first part does and its second does from there. -/
theorem yields_bind {action : Lowering α} {next : α → Lowering β} {before after : LoweringState}
    {result : β} :
    Yields (action >>= next) before result after ↔
      ∃ value between, Yields action before value between ∧
        Yields (next value) between result after := by
  unfold Yields
  rw [outcome_bind]
  rcases outcome action before with ⟨_ | value, between⟩
  · simp
  · constructor
    · intro h
      exact ⟨value, between, rfl, h⟩
    · rintro ⟨_, _, heq, h⟩
      cases heq
      exact h

theorem Yields.pure {value : α} {state : LoweringState} :
    Yields (Pure.pure value) state value state :=
  rfl

/-- Runs one after the other. -/
theorem Yields.bind {action : Lowering α} {next : α → Lowering β}
    {before between after : LoweringState} {value : α} {result : β}
    (h : Yields action before value between) (hnext : Yields (next value) between result after) :
    Yields (action >>= next) before result after :=
  yields_bind.mpr ⟨value, between, h, hnext⟩

/-- A value put together afterwards. -/
theorem yields_map {action : Lowering α} {f : α → β} {before after : LoweringState} {result : β} :
    Yields (f <$> action) before result after ↔
      ∃ value, Yields action before value after ∧ f value = result := by
  rw [map_eq_pure_bind, yields_bind]
  constructor
  · rintro ⟨value, between, h, hpure⟩
    obtain ⟨rfl, rfl⟩ := yields_pure.mp hpure
    exact ⟨value, h, rfl⟩
  · rintro ⟨value, h, rfl⟩
    exact ⟨value, after, h, yields_pure.mpr ⟨rfl, rfl⟩⟩

@[simp]
theorem yields_get {before after result : LoweringState} :
    Yields get before result after ↔ before = result ∧ before = after := by
  change ((Except.ok before : Except Failure _), before) = (.ok result, after) ↔ _
  simp

/-- A change of the state. -/
@[simp]
theorem yields_modify {change : LoweringState → LoweringState} {before after : LoweringState} :
    Yields (modify change) before () after ↔ change before = after := by
  change ((Except.ok () : Except Failure Unit), change before) = (.ok (), after) ↔ _
  simp

/-- A failure yields nothing. -/
@[simp]
theorem not_yields_throw {failure : Failure} {before after : LoweringState} {result : α} :
    ¬ Yields (throw failure) before result after := by
  intro h
  have hrun : ((Except.error failure : Except Failure α), before) = (.ok result, after) := h
  simp at hrun

/-- Work with changed aliases succeeds exactly if the work does from the changed state, and the
aliases are put back. -/
theorem yields_withAliases {change : Table String → Table String} {action : Lowering α}
    {before after : LoweringState} {result : α} :
    Yields (withAliases change action) before result after ↔
      ∃ inside, Yields action { before with aliases := change before.aliases } result inside ∧
        { inside with aliases := before.aliases } = after := by
  have hrun : outcome (withAliases change action) before =
      ((outcome action { before with aliases := change before.aliases }).1,
        { (outcome action { before with aliases := change before.aliases }).2 with
          aliases := before.aliases }) := rfl
  unfold Yields
  rw [hrun]
  rcases outcome action { before with aliases := change before.aliases } with ⟨_ | value, inside⟩
  · simp
  · constructor
    · intro h
      cases h
      exact ⟨inside, rfl, rfl⟩
    · rintro ⟨_, heq, rfl⟩
      cases heq
      rfl

/-- A computation gives a value from some state. -/
def Reaches (action : Lowering α) (value : α) : Prop :=
  ∃ before after, Yields action before value after

/-- What a block reaches, its body reaches. -/
theorem reaches_inBlock {action : Lowering α} {before after : LoweringState} {value : α}
    (h : Yields (inBlock action) before value after) : Reaches action value := by
  obtain ⟨inside, hrun, -⟩ := yields_withAliases.mp h
  exact ⟨_, inside, hrun⟩

end AikenForge.Lowering
