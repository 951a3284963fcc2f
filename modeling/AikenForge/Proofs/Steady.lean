/-
# What the lowering of an expression depends on

An expression is lowered by looking at the aliases in force and at the mappings of the registry, and
at nothing else in the state. It leaves both as they were, whether it gives a text or fails, and the
records it makes come after those that were there. Which builtins were used before, what was
recorded and what was reported have no influence on the result.

A computation with this property is called *steady*. All of lowering has the weaker property that it
takes alike states to alike states, which passes through sequences; together with the aliases that
an expression, or a block in its own scope, leaves alone this makes them steady. What passes through
sequences is stated for two computations that agree, of which a computation and itself are a case.
-/

import AikenForge.Proofs.Frame

namespace AikenForge

namespace Lowering

variable {α β : Type}

/-- Two states agree on what the lowering of an expression looks at. -/
structure Alike (s t : LoweringState) : Prop where
  aliases : s.aliases = t.aliases
  mappings : s.registry.map Registry.mappings = t.registry.map Registry.mappings

theorem Alike.refl (s : LoweringState) : Alike s s :=
  ⟨rfl, rfl⟩

theorem Alike.symm {s t : LoweringState} (h : Alike s t) : Alike t s :=
  ⟨h.aliases.symm, h.mappings.symm⟩

theorem Alike.trans {s t u : LoweringState} (h : Alike s t) (h' : Alike t u) : Alike s u :=
  ⟨h.aliases.trans h'.aliases, h.mappings.trans h'.mappings⟩

/-- From alike states a computation gives the same result and adds the same records, and it leaves
each state alike to what it was. -/
def Steady (action : Lowering α) : Prop :=
  ∀ s t, Alike s t → ∃ result added s' t',
    outcome action s = (result, s') ∧ outcome action t = (result, t') ∧
    Alike s s' ∧ Alike t t' ∧ s'.records = s.records ++ added ∧ t'.records = t.records ++ added

/-! ## Two computations -/

variable {builtins : Option (Table String)}

/-- Two computations agree where these are the builtins: from alike states they give the same
result, add the same records and reach alike states. They may change the aliases, but not the
mappings. -/
def Agrees (builtins : Option (Table String)) (action other : Lowering α) : Prop :=
  ∀ s t, Alike s t → s.registry.map Registry.mappings = builtins → ∃ result added s' t',
    outcome action s = (result, s') ∧ outcome other t = (result, t') ∧ Alike s' t' ∧
    s'.registry.map Registry.mappings = builtins ∧
    s'.records = s.records ++ added ∧ t'.records = t.records ++ added

theorem agrees_pure (value : α) : Agrees builtins (pure value) (pure value) := by
  intro s t hst hbuiltins
  exact ⟨.ok value, {}, s, t, rfl, rfl, hst, hbuiltins, by simp, by simp⟩

/-- The same failure agrees with itself. -/
theorem agrees_throw (failure : Failure) :
    Agrees builtins (throw failure : Lowering α) (throw failure) := by
  intro s t hst hbuiltins
  exact ⟨.error failure, {}, s, t, rfl, rfl, hst, hbuiltins, by simp, by simp⟩

/-- A sequence agrees with another if the first parts do, and what follows on a value that is
reached. -/
theorem Agrees.bind {action other : Lowering α} {next further : α → Lowering β}
    (h : Agrees builtins action other)
    (hnext : ∀ value, Reaches action value → Agrees builtins (next value) (further value)) :
    Agrees builtins (action >>= next) (other >>= further) := by
  intro s t hst hbuiltins
  obtain ⟨result, added, s', t', hs, ht, hst', hbuiltins', hrs, hrt⟩ := h s t hst hbuiltins
  cases result with
  | error failure =>
      refine ⟨.error failure, added, s', t', ?_, ?_, hst', hbuiltins', hrs, hrt⟩
      · rw [outcome_bind, hs]
      · rw [outcome_bind, ht]
  | ok value =>
      obtain ⟨result, added', s'', t'', hs2, ht2, hst'', hbuiltins'', hrs2, hrt2⟩ :=
        hnext value ⟨s, s', hs⟩ s' t' hst' hbuiltins'
      refine ⟨result, added ++ added', s'', t'', ?_, ?_, hst'', hbuiltins'', ?_, ?_⟩
      · rw [outcome_bind, hs]
        exact hs2
      · rw [outcome_bind, ht]
        exact ht2
      · rw [hrs2, hrs, Records.append_assoc]
      · rw [hrt2, hrt, Records.append_assoc]

/-- One thing after another, with the same value in between. -/
theorem Agrees.then {action other : Lowering α} {next further : α → Lowering β}
    (h : Agrees builtins action other)
    (hnext : ∀ value, Agrees builtins (next value) (further value)) :
    Agrees builtins (action >>= next) (other >>= further) :=
  h.bind fun value _ => hnext value

/-- A last step that only puts the result together. -/
theorem Agrees.thenPure {action other : Lowering α} (h : Agrees builtins action other)
    (make : α → β) :
    Agrees builtins (action >>= fun value => pure (make value))
      (other >>= fun value => pure (make value)) :=
  h.then fun value => agrees_pure (make value)

/-- Looking up aliases agrees, as they are the same on both sides. -/
theorem agrees_aliases (next further : Table String → Lowering α)
    (h : ∀ aliases, Agrees builtins (next aliases) (further aliases)) :
    Agrees builtins (get >>= fun state => next state.aliases)
      (get >>= fun state => further state.aliases) := by
  intro s t hst hbuiltins
  obtain ⟨result, added, s', t', hs, ht, hrest⟩ := h s.aliases s t hst hbuiltins
  rw [hst.aliases] at ht
  exact ⟨result, added, s', t', hs, ht, hrest⟩

/-- A scope changes the aliases of both sides alike. -/
theorem Agrees.withAliases {action other : Lowering α} (change : Table String → Table String)
    (h : Agrees builtins action other) :
    Agrees builtins (withAliases change action) (withAliases change other) := by
  intro s t hst hbuiltins
  obtain ⟨result, added, s', t', hs, ht, hst', hbuiltins', hrs, hrt⟩ :=
    h { s with aliases := change s.aliases } { t with aliases := change t.aliases }
      ⟨congrArg change hst.aliases, hst.mappings⟩ hbuiltins
  refine ⟨result, added, { s' with aliases := s.aliases }, { t' with aliases := t.aliases }, ?_, ?_,
    ⟨hst.aliases, hst'.mappings⟩, hbuiltins', hrs, hrt⟩
  · change ((outcome action _).1, { (outcome action _).2 with aliases := s.aliases }) = _
    rw [hs]
  · change ((outcome other _).1, { (outcome other _).2 with aliases := t.aliases }) = _
    rw [ht]

/-- What agrees gives the same result from the same state. -/
theorem Agrees.result_eq {action other : Lowering α} (h : Agrees builtins action other)
    {state : LoweringState} (hstate : state.registry.map Registry.mappings = builtins) :
    (outcome action state).1 = (outcome other state).1 := by
  obtain ⟨result, added, s', t', hs, ht, -⟩ := h state state (.refl state) hstate
  rw [hs, ht]

/-! ## Composition -/

/-- From alike states a computation gives the same result, adds the same records and reaches alike
states. It may change the aliases, but not the mappings. -/
def Uniform (action : Lowering α) : Prop :=
  ∀ s t, Alike s t → ∃ result added s' t',
    outcome action s = (result, s') ∧ outcome action t = (result, t') ∧ Alike s' t' ∧
    s'.registry.map Registry.mappings = s.registry.map Registry.mappings ∧
    s'.records = s.records ++ added ∧ t'.records = t.records ++ added

/-- A uniform computation is one that agrees with itself, whatever the builtins are. -/
theorem uniform_iff {action : Lowering α} :
    Uniform action ↔ ∀ builtins, Agrees builtins action action := by
  constructor
  · intro h builtins s t hst hbuiltins
    obtain ⟨result, added, s', t', hs, ht, hst', hmappings, hrs, hrt⟩ := h s t hst
    exact ⟨result, added, s', t', hs, ht, hst', hmappings.trans hbuiltins, hrs, hrt⟩
  · intro h s t hst
    exact h _ s t hst rfl

/-- A uniform computation agrees with itself. -/
theorem Uniform.agrees {action : Lowering α} (h : Uniform action) : Agrees builtins action action :=
  uniform_iff.mp h builtins

theorem uniform_pure (value : α) : Uniform (pure value) :=
  uniform_iff.mpr fun _ => agrees_pure value

theorem uniform_throw (failure : Failure) : Uniform (throw failure : Lowering α) :=
  uniform_iff.mpr fun _ => agrees_throw failure

/-- Uniform computations one after the other. -/
theorem Uniform.bind {action : Lowering α} {next : α → Lowering β} (h : Uniform action)
    (hnext : ∀ value, Uniform (next value)) : Uniform (action >>= next) :=
  uniform_iff.mpr fun _ => h.agrees.then fun value => (hnext value).agrees

/-- A change of the aliases that looks at nothing else. -/
theorem uniform_modifyAliases (change : Table String → Table String) :
    Uniform (modify fun state => { state with aliases := change state.aliases }) := by
  intro s t hst
  refine ⟨.ok (), {}, _, _, rfl, rfl, ⟨?_, hst.mappings⟩, rfl, by simp, by simp⟩
  exact congrArg change hst.aliases

/-- Looking for a builtin turns on its names alone. -/
theorem uniform_builtinTarget? (ctx : Context) (callee : Source.Expr) :
    Uniform (builtinTarget? ctx callee) := by
  intro s t hst
  have hfound : foundTarget? ctx t callee = foundTarget? ctx s callee := by
    simp only [foundTarget?, hst.aliases, hst.mappings]
  have hs := outcome_builtinTarget? ctx callee s
  have ht := outcome_builtinTarget? ctx callee t
  rw [hfound] at ht
  refine ⟨_, {}, _, _, hs, ht, ⟨hst.aliases, ?_⟩, mappings_useTarget _ _, by simp, by simp⟩
  rw [mappings_useTarget, mappings_useTarget]
  exact hst.mappings

/-- A scope is as uniform as what is in it. -/
theorem Uniform.withAliases {action : Lowering α} (change : Table String → Table String)
    (h : Uniform action) : Uniform (withAliases change action) :=
  uniform_iff.mpr fun _ => h.agrees.withAliases change

/-- Starting afresh forgets even the aliases. -/
theorem Uniform.separately {action : Lowering α} (h : Uniform action) :
    Uniform (separately action) := by
  intro s t hst
  obtain ⟨result, added, s', t', hs, ht, hst', hmappings, hrs, hrt⟩ :=
    h { s with aliases := [], records := {} } { t with aliases := [], records := {} }
      ⟨rfl, hst.mappings⟩
  have hsame : t'.records = s'.records := hrt.trans hrs.symm
  refine ⟨result.map fun value => (value, s'.records), {},
    { s' with aliases := s.aliases, records := s.records },
    { t' with aliases := t.aliases, records := t.records }, ?_, ?_, ⟨hst.aliases, hst'.mappings⟩,
    hmappings, by simp, by simp⟩
  · exact congrArg (fun reached => (reached.1.map fun value => (value, reached.2.records),
      { reached.2 with aliases := s.aliases, records := s.records })) hs
  · rw [← hsame]
    exact congrArg (fun reached => (reached.1.map fun value => (value, reached.2.records),
      { reached.2 with aliases := t.aliases, records := t.records })) ht

/-- Whatever lowering is composed of is uniform. -/
theorem Composed.uniform {extent : Extent} {action : Lowering α} (h : Composed extent action) :
    Uniform action := by
  induction h with
  | pure value => exact uniform_pure value
  | throw failure => exact uniform_throw failure
  | bind _ _ ih ihnext => exact ih.bind ihnext
  | aliases next _ ih =>
      exact uniform_iff.mpr fun _ => agrees_aliases next next fun aliases => (ih aliases).agrees
  | builtin ctx callee => exact uniform_builtinTarget? ctx callee
  | report change =>
      intro s t hst
      exact ⟨.ok (), {}, _, _, rfl, rfl, ⟨hst.aliases, hst.mappings⟩, rfl, by simp, by simp⟩
  | record added =>
      intro s t hst
      exact ⟨.ok (), added, _, _, rfl, rfl, ⟨hst.aliases, hst.mappings⟩, rfl, rfl, rfl⟩
  | withAliases change _ ih => exact ih.withAliases change
  | @ofReporting _ _ action hsteady =>
      intro s t hst
      refine ⟨(action.run s.journal).1, {}, { s with journal := (action.run s.journal).2 },
        { t with journal := (action.run t.journal).2 }, rfl, ?_, ⟨hst.aliases, hst.mappings⟩, rfl,
        by simp, by simp⟩
      rw [hsteady s.journal t.journal]
      rfl
  | setAlias name text => exact uniform_modifyAliases fun aliases => aliases.insert name text
  | dropAliases names => exact uniform_modifyAliases fun aliases => names.foldl Table.erase aliases
  | separately _ ih => exact ih.separately

/-- What is composed of the operations of lowering agrees with itself. -/
theorem Composed.agrees {action : Lowering α} (h : Composed .block action) :
    Agrees builtins action action :=
  h.uniform.agrees

/-- Computations agree as their parts do. -/
theorem agrees_congruence : BlockCongruence (Agrees builtins) where
  pure value := agrees_pure value
  throw failure := agrees_throw failure
  bind haction hnext := haction.then hnext
  note level channel message := (composed_note level channel message).agrees
  record added := (Composed.record added).agrees
  withAliases change haction := haction.withAliases change
  setAlias name text := (Composed.setAlias name text).agrees
  dropAliases names := (Composed.dropAliases names).agrees
  ofReporting hsteady := (Composed.ofReporting hsteady).agrees

/-- A uniform computation that leaves the aliases alone is steady. -/
theorem Uniform.steady {action : Lowering α} (h : Uniform action)
    (hkeeps : ∀ state, (Frame.reachedState action state).aliases = state.aliases) :
    Steady action := by
  intro s t hst
  obtain ⟨result, added, s', t', hs, ht, hst', hmappings, hrs, hrt⟩ := h s t hst
  have hs' : Alike s s' := by
    refine ⟨?_, hmappings.symm⟩
    rw [← hkeeps s, Frame.reachedState, hs]
  exact ⟨result, added, s', t', hs, ht, hs', (hst.symm.trans hs').trans hst', hrs, hrt⟩

/-- What is steady is uniform. -/
theorem Steady.uniform {action : Lowering α} (h : Steady action) : Uniform action := by
  intro s t hst
  obtain ⟨result, added, s', t', hs, ht, hs', ht', hrs, hrt⟩ := h s t hst
  exact ⟨result, added, s', t', hs, ht, (hs'.symm.trans hst).trans ht', hs'.mappings.symm, hrs, hrt⟩

/-- What is steady leaves the aliases as they were. -/
theorem Steady.keeps {action : Lowering α} (h : Steady action) (state : LoweringState) :
    (Frame.reachedState action state).aliases = state.aliases := by
  obtain ⟨_, _, _, _, hrun, -, halike, -, -, -⟩ := h state state (.refl state)
  rw [Frame.reachedState, hrun]
  exact halike.aliases.symm

/-- Steady computations one after the other. -/
theorem Steady.bind {action : Lowering α} {next : α → Lowering β} (h : Steady action)
    (hnext : ∀ value, Steady (next value)) : Steady (action >>= next) := by
  refine (h.uniform.bind fun value => (hnext value).uniform).steady fun state => ?_
  obtain hreached | ⟨value, hreached⟩ := Frame.reachedState_bind action next state
  · rw [hreached]
    exact h.keeps state
  · rw [hreached]
    exact ((hnext value).keeps _).trans (h.keeps state)

/-- Whatever an expression is composed of is steady. -/
theorem Composed.steady {action : Lowering α} (h : Composed .expression action) : Steady action :=
  h.uniform.steady (Frame.aliases_reachedState h)

/-- A block in a scope of its own is steady, although its lines may change the aliases. -/
theorem steady_blockText {extent : Extent} {lines : Lowering (List String)}
    (h : Composed extent lines) : Steady (blockText lines) :=
  (h.map Text.joinLines).uniform.withAliases id |>.steady fun _ => rfl

section Expressions

open AikenForge.Source

variable (ctx : Context)

/-- Lowering an expression is steady. -/
theorem steady_lower (e : Expr) : Steady (lower ctx e) :=
  (composed_lower ctx e).steady

theorem steady_subjectText (text : String) : Steady (subjectText ctx text) :=
  (composed_subjectText ctx text).steady

theorem steady_lowerPattern (pattern : Pattern) : Steady (lowerPattern ctx pattern) :=
  (composed_lowerPattern ctx pattern).steady

/-- Annotations are resolved without a look at the state. -/
theorem steady_ofReporting {action : Reporting α} (h : action.Steady) :
    Steady (ofReporting action) :=
  (Composed.ofReporting h).steady

end Expressions

/-! ## Results from alike states -/

variable {base : LoweringState}

/-- From every state alike to `base` a computation gives a value and leaves the state alike. -/
def Gives (base : LoweringState) (action : Lowering α) (value : α) : Prop :=
  ∀ state, Alike base state → ∃ after, Yields action state value after ∧ Alike base after

theorem gives_pure (value : α) : Gives base (pure value) value :=
  fun state h => ⟨state, yields_pure.mpr ⟨rfl, rfl⟩, h⟩

/-- What is given first may be used by what is given second. -/
theorem Gives.bind {action : Lowering α} {next : α → Lowering β} {value : α} {result : β}
    (h : Gives base action value) (hnext : Gives base (next value) result) :
    Gives base (action >>= next) result := by
  intro state hstate
  obtain ⟨between, hrun, hbetween⟩ := h state hstate
  obtain ⟨after, hrun', hafter⟩ := hnext between hbetween
  exact ⟨after, yields_bind.mpr ⟨value, between, hrun, hrun'⟩, hafter⟩

theorem Gives.map {action : Lowering α} {value : α} (f : α → β) (h : Gives base action value) :
    Gives base (f <$> action) (f value) := by
  intro state hstate
  obtain ⟨after, hrun, hafter⟩ := h state hstate
  exact ⟨after, yields_map.mpr ⟨value, hrun, rfl⟩, hafter⟩

/-- What a computation gives depends on no more than what alike states agree on. -/
theorem Gives.of_alike {other : LoweringState} {action : Lowering α} {value : α}
    (h : Gives other action value) (halike : Alike base other) : Gives base action value := by
  intro state hstate
  obtain ⟨after, hrun, hafter⟩ := h state (halike.symm.trans hstate)
  exact ⟨after, hrun, halike.trans hafter⟩

/-- A steady computation that succeeds from one state gives the same from all states alike. -/
theorem Steady.gives {action : Lowering α} (h : Steady action) {value : α} {after : LoweringState}
    (hrun : Yields action base value after) : Gives base action value := by
  intro state hstate
  obtain ⟨result, added, s', t', hs, ht, -, ht', -, -⟩ := h base state hstate
  obtain ⟨rfl, rfl⟩ := Prod.mk.inj (hs.symm.trans hrun)
  exact ⟨t', ht, hstate.trans ht'⟩

/-- A run of a steady computation from an alike state, and the next state, which is alike too. -/
theorem Steady.gives_next {action : Lowering α} (h : Steady action) {state after : LoweringState}
    {value : α} (halike : Alike base state) (hrun : Yields action state value after) :
    Gives base action value ∧ Alike base after := by
  have hgives : Gives base action value := (h.gives hrun).of_alike halike
  refine ⟨hgives, ?_⟩
  obtain ⟨reached, hrun', hreached⟩ := hgives state halike
  rwa [(Prod.mk.inj (hrun'.symm.trans hrun)).2] at hreached

/-- Where no alias is in force there is none to end. -/
theorem gives_dropAliases (hbase : base.aliases = []) (names : List String) :
    Gives base (dropAliases names) () := by
  intro state hstate
  have hempty : names.foldl Table.erase state.aliases = [] := by
    rw [← hstate.aliases, hbase]
    induction names with
    | nil => rfl
    | cons name names ih => exact ih
  refine ⟨_, yields_modify.mpr rfl, ?_⟩
  exact ⟨hbase.trans hempty.symm, hstate.mappings⟩

/-- A block gives what is in it. -/
theorem Gives.inBlock {action : Lowering α} {value : α} (h : Gives base action value) :
    Gives base (inBlock action) value := by
  intro state hstate
  obtain ⟨inside, hrun, hinside⟩ := h state hstate
  refine ⟨{ inside with aliases := state.aliases }, ?_, ⟨hstate.aliases, hinside.mappings⟩⟩
  exact yields_withAliases.mpr ⟨inside, hrun, rfl⟩

end Lowering

end AikenForge
