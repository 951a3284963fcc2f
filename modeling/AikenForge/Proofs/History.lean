/-
# What was used before has no influence

A pipeline owns one registry for all that it does. Reading and transforming a module look up
builtins in the registry's table and record their use, but never ask which ones are recorded
already. So the result does not depend on the history of the pipeline, and the builtins recorded are
those recorded before, followed by those that a run from an empty registry records and that were not
there.

A whole run starts by forgetting what was used. Hence its text after any sequence of steps, failed
ones included, is the text of a new pipeline.
-/

import AikenForge.Proofs.Composition

namespace AikenForge.History

open AikenForge.Source AikenForge.Lowering

variable {α β : Type}

/-! ## Recording uses -/

/-- The targets used after further uses, one after the other. -/
def addUses (used targets : List String) : List String :=
  targets.foldl addOnce used

/-- Uses are added one after the other. -/
theorem addUses_append (used first second : List String) :
    addUses used (first ++ second) = addUses (addUses used first) second :=
  List.foldl_append

/-- Uses add to what was used those targets that a record from the beginning would hold and that
were not there yet. -/
theorem addUses_eq_append_filter (used targets : List String) :
    addUses used targets = used ++ (addUses [] targets).filter fun target =>
      !used.contains target := by
  induction targets generalizing used with
  | nil => simp [addUses]
  | cons target targets ih =>
      have hlater : addUses used (target :: targets) = addUses (addOnce used target) targets := rfl
      have hfirst : addUses [] (target :: targets) = addUses [target] targets := rfl
      rw [hlater, hfirst, ih (addOnce used target), ih [target]]
      -- The first target counts if it is new, and is left out on both sides if it is not.
      by_cases hused : target ∈ used
      · have hkept : addOnce used target = used := by simp [addOnce, hused]
        have hsame : (addUses [] targets).filter (fun other => !used.contains other) =
            ((addUses [] targets).filter fun other => !List.contains [target] other).filter
              fun other => !used.contains other := by
          rw [List.filter_filter]
          refine List.filter_congr fun other _ => ?_
          by_cases hother : other = target
          · simp [hother, hused]
          · simp [hother]
        rw [hkept, hsame]
        simp [hused]
      · simp [addOnce, hused, List.filter_filter]

/-- Adding a name once makes no name occur twice. -/
theorem nodup_addOnce {used : List String} (h : used.Nodup) (target : String) :
    (addOnce used target).Nodup := by
  unfold addOnce
  split
  · exact h
  · rename_i hnew
    rw [List.contains_iff_mem] at hnew
    refine List.nodup_append.mpr ⟨h, by simp, ?_⟩
    rintro other hother _ hmem rfl
    rw [List.mem_singleton.mp hmem] at hother
    exact hnew hother

theorem nodup_addUses {used : List String} (h : used.Nodup) (targets : List String) :
    (addUses used targets).Nodup := by
  induction targets generalizing used with
  | nil => exact h
  | cons target targets ih => exact ih (nodup_addOnce h target)

/-- A registry records every target once, and the line that imports the builtins lists each of them
once in ascending order; without any there is no such line. -/
structure ListsOnce (registry : Registry) : Prop where
  nodup : registry.used.Nodup
  unused : registry.used = [] → registry.importLine? = none
  used : registry.used ≠ [] → ∃ names : List String, names.Perm registry.used ∧
    names.Pairwise (· < ·) ∧
    registry.importLine? =
      some ("use aiken/builtin.\x7b" ++ ", ".intercalate names ++ "\x7d")

/-- A history without repetition is imported name by name, in ascending order. -/
theorem listsOnce_of_nodup {registry : Registry} (h : registry.used.Nodup) :
    ListsOnce registry := by
  refine ⟨h, ?_, ?_⟩
  · intro hnone
    simp [Registry.importLine?, hnone]
  · intro hsome
    let names := registry.used.mergeSort fun a b => decide (a ≤ b)
    have hperm : names.Perm registry.used := List.mergeSort_perm _ _
    have hsorted : names.Pairwise (· ≤ ·) := by
      have hpairs := @List.pairwise_mergeSort _ (fun a b : String => decide (a ≤ b))
        (by simpa using fun a b c => String.le_trans) (by simpa using String.le_total) registry.used
      simpa using hpairs
    refine ⟨names, hperm, ?_, ?_⟩
    · have hdistinct : names.Pairwise (· ≠ ·) := (hperm.nodup_iff).mpr h
      exact (hsorted.and hdistinct).imp fun h => Std.lt_of_le_of_ne h.1 h.2
    · simp [Registry.importLine?, hsome, names, builtinModule]

/-! ## Lowering -/

/-- A state with another list of used builtins and another journal. -/
def having (used : List String) (journal : Journal) (state : LoweringState) : LoweringState :=
  { state with registry := state.registry.map fun registry => { registry with used }, journal }

/-- A computation gives the same result, reaches the same state and uses the same targets, whatever
was used and reported before. It keeps the table of builtins. -/
def Regardless (action : Lowering α) : Prop :=
  ∀ state, ∃ result after targets,
    after.registry.map Registry.mappings = state.registry.map Registry.mappings ∧
    ∀ used journal, ∃ journal',
      outcome action (having used journal state) =
        (result, having (addUses used targets) journal' after)

/-- One thing after another: the uses of both are added up. -/
theorem Regardless.bind {action : Lowering α} {next : α → Lowering β} (h : Regardless action)
    (hnext : ∀ value, Regardless (next value)) : Regardless (action >>= next) := by
  intro state
  obtain ⟨result, between, targets, hmappings, hrun⟩ := h state
  cases result with
  | error failure =>
      refine ⟨.error failure, between, targets, hmappings, fun used journal => ?_⟩
      obtain ⟨journal', hfirst⟩ := hrun used journal
      exact ⟨journal', by rw [outcome_bind, hfirst]⟩
  | ok value =>
      obtain ⟨result, after, further, hmappings', hrun'⟩ := hnext value between
      refine ⟨result, after, targets ++ further, hmappings'.trans hmappings, fun used journal => ?_⟩
      obtain ⟨journal', hfirst⟩ := hrun used journal
      obtain ⟨journal'', hsecond⟩ := hrun' (addUses used targets) journal'
      refine ⟨journal'', ?_⟩
      rw [outcome_bind, hfirst, addUses_append]
      exact hsecond

/-- A scope uses what its body uses. -/
theorem Regardless.withAliases {action : Lowering α} (change : Table String → Table String)
    (h : Regardless action) : Regardless (withAliases change action) := by
  intro state
  obtain ⟨result, after, targets, hmappings, hrun⟩ :=
    h { state with aliases := change state.aliases }
  refine ⟨result, { after with aliases := state.aliases }, targets, hmappings, ?_⟩
  intro used journal
  obtain ⟨journal', hinside⟩ := hrun used journal
  refine ⟨journal', ?_⟩
  change ((outcome action _).1, { (outcome action _).2 with aliases := state.aliases }) = _
  exact congrArg (fun reached => (reached.1, { reached.2 with aliases := state.aliases })) hinside

/-- Starting afresh forgets no use. -/
theorem Regardless.separately {action : Lowering α} (h : Regardless action) :
    Regardless (separately action) := by
  intro state
  obtain ⟨result, after, targets, hmappings, hrun⟩ := h { state with aliases := [], records := {} }
  refine ⟨result.map fun value => (value, after.records),
    { after with aliases := state.aliases, records := state.records }, targets, hmappings, ?_⟩
  intro used journal
  obtain ⟨journal', hinside⟩ := hrun used journal
  exact ⟨journal', congrArg (fun reached => (reached.1.map fun value => (value, reached.2.records),
    { reached.2 with aliases := state.aliases, records := state.records })) hinside⟩

/-- Looking for a builtin uses its target, if there is one. -/
theorem regardless_builtinTarget? (ctx : Context) (callee : Expr) :
    Regardless (builtinTarget? ctx callee) := by
  intro state
  refine ⟨.ok (foundTarget? ctx state callee), state,
    (foundTarget? ctx state callee).toList, rfl, ?_⟩
  intro used journal
  have hfound : foundTarget? ctx (having used journal state) callee =
      foundTarget? ctx state callee := by
    cases hregistry : state.registry <;> simp [foundTarget?, having, hregistry]
  refine ⟨journal, ?_⟩
  rw [outcome_builtinTarget?, hfound]
  cases hregistry : state.registry with
  | none => simp [having, hregistry]
  | some registry =>
      cases foundTarget? ctx state callee with
      | none => simp [having, hregistry, useTarget, addUses]
      | some target => simp [having, hregistry, useTarget, addUses, Registry.use]

/-- What is composed of the operations of lowering works regardless of what was used before. -/
theorem regardless_of_composed {extent : Extent} {action : Lowering α}
    (h : Composed extent action) : Regardless action := by
  induction h with
  | pure value => exact fun state => ⟨.ok value, state, [], rfl, fun _ journal => ⟨journal, rfl⟩⟩
  | throw failure =>
      exact fun state => ⟨.error failure, state, [], rfl, fun _ journal => ⟨journal, rfl⟩⟩
  | bind _ _ ih ihnext => exact ih.bind ihnext
  | aliases next _ ih => exact fun state => ih state.aliases state
  | builtin ctx callee => exact regardless_builtinTarget? ctx callee
  | report change =>
      exact fun state => ⟨.ok (), state, [], rfl, fun _ journal => ⟨change journal, rfl⟩⟩
  | record added =>
      exact fun state => ⟨.ok (), { state with records := state.records ++ added }, [], rfl,
        fun _ journal => ⟨journal, rfl⟩⟩
  | withAliases change _ ih => exact ih.withAliases change
  | @ofReporting _ _ action hsteady =>
      intro state
      refine ⟨(action.run state.journal).1, state, [], rfl, fun used journal => ?_⟩
      refine ⟨(action.run journal).2, ?_⟩
      rw [hsteady state.journal journal]
      rfl
  | setAlias name text =>
      exact fun state => ⟨.ok (), { state with aliases := state.aliases.insert name text }, [], rfl,
        fun _ journal => ⟨journal, rfl⟩⟩
  | dropAliases names =>
      exact fun state => ⟨.ok (),
        { state with aliases := names.foldl Table.erase state.aliases }, [],
        rfl, fun _ journal => ⟨journal, rfl⟩⟩
  | separately _ ih => exact ih.separately

/-! ## Pipelines -/

/-- A pipeline with another list of used builtins and another journal. -/
def pipelineHaving (used : List String) (journal : Journal) (p : Pipeline) : Pipeline :=
  { p with registry := { p.registry with used }, journal }

/-- A stage of a pipeline gives the same result and uses the same targets, whatever was used and
reported before, and changes nothing else. -/
def StageRegardless (stage : Pipeline → Except Failure α × Pipeline) : Prop :=
  ∀ p, ∃ result targets, ∀ used journal, ∃ journal',
    stage (pipelineHaving used journal p) =
      (result, pipelineHaving (addUses used targets) journal' p)

/-- A stage of the pipeline turns on the history no more than what it runs. -/
theorem stageRegardless_run {action : Options → Lowering α}
    (h : ∀ options, Composed .block (action options)) : StageRegardless (Pipeline.run action) := by
  intro p
  obtain ⟨result, after, targets, hmappings, hrun⟩ := regardless_of_composed (h p.options)
    { registry := some p.registry, journal := p.journal }
  obtain ⟨registry, hregistry, hsame⟩ := Option.map_eq_some_iff.mp hmappings
  refine ⟨result, targets, fun used journal => ?_⟩
  obtain ⟨journal', hinside⟩ := hrun used journal
  refine ⟨journal', ?_⟩
  change (let reached := outcome (action p.options) (having used journal
      { registry := some p.registry, journal := p.journal });
    (reached.1, { pipelineHaving used journal p with
      registry := reached.2.registry.getD { p.registry with used }, journal :=
        reached.2.journal })) = _
  rw [hinside]
  simp [having, hregistry, pipelineHaving, hsame]

/-- Two stages one after the other. -/
theorem stageRegardless_andThen {first : Pipeline → Except Failure α × Pipeline}
    {next : α → Pipeline → Except Failure β × Pipeline} (h : StageRegardless first)
    (hnext : ∀ value, StageRegardless (next value)) :
    StageRegardless fun p => Pipeline.andThen (first p) next := by
  intro p
  obtain ⟨result, targets, hrun⟩ := h p
  cases result with
  | error failure =>
      refine ⟨.error failure, targets, fun used journal => ?_⟩
      obtain ⟨journal', hfirst⟩ := hrun used journal
      refine ⟨journal', ?_⟩
      change Pipeline.andThen (first _) next = _
      rw [hfirst]
      rfl
  | ok value =>
      obtain ⟨result, further, hrun'⟩ := hnext value p
      refine ⟨result, targets ++ further, fun used journal => ?_⟩
      obtain ⟨journal', hfirst⟩ := hrun used journal
      obtain ⟨journal'', hsecond⟩ := hrun' (addUses used targets) journal'
      refine ⟨journal'', ?_⟩
      change Pipeline.andThen (first _) next = _
      rw [hfirst, addUses_append]
      exact hsecond

theorem stageRegardless_read (source : String) (name : Option String) (file : String) :
    StageRegardless (Pipeline.read source name file) :=
  stageRegardless_run fun options => DeclaredModule.composed_ofSource options _ file source

theorem stageRegardless_transform (m : DeclaredModule) : StageRegardless (Pipeline.transform m) :=
  stageRegardless_run fun options => m.composed_canonicalize options

/-- Read a module and bring its handlers to canonical form. -/
def prepare (source : String) (name : Option String) (file : String) (p : Pipeline) :
    Except Failure DeclaredModule × Pipeline :=
  Pipeline.andThen (p.read source name file) Pipeline.transform

/-- Reading a module and bringing it to canonical form. -/
theorem stageRegardless_prepare (source : String) (name : Option String) (file : String) :
    StageRegardless (prepare source name file) :=
  stageRegardless_andThen (stageRegardless_read source name file) stageRegardless_transform

/-- A whole run forgets what was used before: its result and the builtins that it leaves recorded
are the same for every history. -/
theorem transpile_forgets (source : String) (name : Option String) (file : String) (p : Pipeline) :
    ∃ result recorded, recorded.Nodup ∧ ∀ used journal, ∃ journal',
      (pipelineHaving used journal p).transpile source name file =
        (result, pipelineHaving recorded journal' p) := by
  obtain ⟨result, targets, hrun⟩ := stageRegardless_prepare source name file p
  have hsplit (used : List String) (journal : Journal) :
      (pipelineHaving used journal p).transpile source name file =
        Pipeline.andThen (prepare source name file (pipelineHaving [] journal p)) fun m p =>
          let p := { p with journal := p.journal.add .debug .pipeline (Pipeline.summary m) }
          (p.write m, p) := by
    change Pipeline.andThen (Pipeline.read source name file (pipelineHaving [] journal p)) _ = _
    unfold prepare
    rcases Pipeline.read source name file (pipelineHaving [] journal p) with ⟨_ | _, _⟩ <;> rfl
  have hrecorded : (addUses [] targets).Nodup := nodup_addUses .nil targets
  cases result with
  | error failure =>
      refine ⟨.error failure, addUses [] targets, hrecorded, fun used journal => ?_⟩
      obtain ⟨journal', hprepare⟩ := hrun [] journal
      refine ⟨journal', ?_⟩
      rw [hsplit, hprepare]
      rfl
  | ok m =>
      refine ⟨(pipelineHaving (addUses [] targets) [] p).write m, addUses [] targets, hrecorded,
        fun used journal => ?_⟩
      obtain ⟨journal', hprepare⟩ := hrun [] journal
      refine ⟨journal'.add .debug .pipeline (Pipeline.summary m), ?_⟩
      rw [hsplit, hprepare]
      rfl

/-! ## Sessions -/

/-- One thing to do with a pipeline. -/
inductive Step
  | transpile (source : String) (name : Option String) (file : String)
  | read (source : String) (name : Option String) (file : String)
  | transform (m : DeclaredModule)
  | write (m : DeclaredModule)
  | reset

/-- The pipeline after a step, whether the step succeeds or fails. Writing does not change it. -/
def Step.apply (p : Pipeline) : Step → Pipeline
  | .transpile source name file => (p.transpile source name file).2
  | .read source name file => (p.read source name file).2
  | .transform m => (p.transform m).2
  | .write _ => p
  | .reset => p.reset

/-- The pipeline after a sequence of steps. -/
def session (p : Pipeline) (steps : List Step) : Pipeline :=
  steps.foldl Step.apply p

/-- A stage leaves a pipeline that differs in its history and its journal only. -/
theorem StageRegardless.exists_eq {stage : Pipeline → Except Failure α × Pipeline}
    (h : StageRegardless stage) (p : Pipeline) :
    ∃ used journal, (stage p).2 = pipelineHaving used journal p ∧
      (p.registry.used.Nodup → used.Nodup) := by
  obtain ⟨result, targets, hrun⟩ := h p
  obtain ⟨journal, heq⟩ := hrun p.registry.used p.journal
  exact ⟨addUses p.registry.used targets, journal, congrArg Prod.snd heq,
    fun hnodup => nodup_addUses hnodup targets⟩

/-- A step changes the builtins used and the journal only, and records no builtin twice. -/
theorem Step.exists_apply_eq (p : Pipeline) (step : Step) :
    ∃ used journal, step.apply p = pipelineHaving used journal p ∧
      (p.registry.used.Nodup → used.Nodup) := by
  cases step with
  | transpile source name file =>
      obtain ⟨result, recorded, hnodup, hrun⟩ := transpile_forgets source name file p
      obtain ⟨journal, heq⟩ := hrun p.registry.used p.journal
      exact ⟨recorded, journal, congrArg Prod.snd heq, fun _ => hnodup⟩
  | read source name file => exact (stageRegardless_read source name file).exists_eq p
  | transform m => exact (stageRegardless_transform m).exists_eq p
  | write m => exact ⟨p.registry.used, p.journal, rfl, id⟩
  | reset => exact ⟨[], p.journal, rfl, fun _ => .nil⟩

/-- A session changes the builtins used and the journal only, and records no builtin twice. -/
theorem exists_session_eq (p : Pipeline) (steps : List Step) :
    ∃ used journal, session p steps = pipelineHaving used journal p ∧
      (p.registry.used.Nodup → used.Nodup) := by
  induction steps generalizing p with
  | nil => exact ⟨p.registry.used, p.journal, rfl, id⟩
  | cons step steps ih =>
      obtain ⟨used, journal, hstep, hnodup⟩ := step.exists_apply_eq p
      obtain ⟨used', journal', hrest, hnodup'⟩ := ih (step.apply p)
      refine ⟨used', journal', ?_, fun h => hnodup' ?_⟩
      · change session (step.apply p) steps = _
        rw [hrest, hstep]
        rfl
      · rw [hstep]
        exact hnodup h

/-- Reading a module and bringing it to canonical form gives the same module or the same failure,
whatever builtins are recorded as used, and records after these the ones that a run from an empty
registry records and that are not among them. So no builtin is recorded twice, and the import line
lists each one once in ascending order. After any sequence of steps the same holds of the registry,
and a whole run gives the text that a new pipeline gives. -/
theorem history_without_influence (options : Options) (mappings : Table String) (source : String)
    (name : Option String) (file : String) :
    (∀ (used : List String) (journal journal₀ : Journal), used.Nodup →
      let run := prepare source name file ⟨options, ⟨mappings, used⟩, journal⟩
      let fresh := prepare source name file ⟨options, ⟨mappings, []⟩, journal₀⟩
      run.1 = fresh.1 ∧ run.2.registry.mappings = mappings ∧
        run.2.registry.used =
          used ++ fresh.2.registry.used.filter (fun target => !used.contains target) ∧
        ListsOnce run.2.registry) ∧
    (∀ steps : List Step,
      let p : Pipeline := { options, registry := { mappings } }
      ListsOnce (session p steps).registry ∧
        ((session p steps).transpile source name file).1 = (p.transpile source name file).1) := by
  constructor
  · intro used journal journal₀ hnodup run fresh
    let p : Pipeline := ⟨options, ⟨mappings, []⟩, []⟩
    obtain ⟨result, targets, hrun⟩ := stageRegardless_prepare source name file p
    obtain ⟨journal', hused⟩ := hrun used journal
    obtain ⟨journal₀', hfresh⟩ := hrun [] journal₀
    have hrun' : run = (result, pipelineHaving (addUses used targets) journal' p) := hused
    have hfresh' : fresh = (result, pipelineHaving (addUses [] targets) journal₀' p) := hfresh
    rw [hrun', hfresh']
    refine ⟨rfl, rfl, addUses_eq_append_filter used targets, ?_⟩
    exact listsOnce_of_nodup (nodup_addUses hnodup targets)
  · intro steps p
    obtain ⟨used, journal, hsession, hnodup⟩ := exists_session_eq p steps
    obtain ⟨result, recorded, -, hrun⟩ := transpile_forgets source name file p
    obtain ⟨journal', hafter⟩ := hrun used journal
    obtain ⟨journal'', hnew⟩ := hrun [] []
    have hp : p = pipelineHaving [] [] p := rfl
    rw [hsession]
    refine ⟨listsOnce_of_nodup (hnodup .nil), ?_⟩
    rw [hafter, hp, hnew]

/-- A function that uses two builtins, one of which was used before. -/
def twoBuiltins : String :=
  "def f(x):\n    return trace(sha256(x))\n"

/-- A builtin that is recorded already keeps its place, and the other one comes after it. -/
theorem history_without_influence_debug :
    ["fst_pair", "debug"].Nodup ∧
      (prepare twoBuiltins none "m.py" ⟨{}, ⟨standardBuiltins, ["fst_pair", "debug"]⟩, []⟩).1 =
        (prepare twoBuiltins none "m.py" ⟨{}, ⟨standardBuiltins, []⟩, []⟩).1 ∧
      (prepare twoBuiltins none "m.py" ⟨{}, ⟨standardBuiltins, []⟩, []⟩).2.registry.used =
        ["debug", "sha2_256"] ∧
      (prepare twoBuiltins none "m.py"
        ⟨{}, ⟨standardBuiltins, ["fst_pair", "debug"]⟩, []⟩).2.registry.used =
        ["fst_pair", "debug", "sha2_256"] := by
  have hnodup : ["fst_pair", "debug"].Nodup := by decide
  have hfresh : (prepare twoBuiltins none "m.py" ⟨{}, ⟨standardBuiltins, []⟩, []⟩).2.registry.used =
      ["debug", "sha2_256"] := by decide +kernel
  obtain ⟨hsame, -, hused, -⟩ :=
    (history_without_influence {} standardBuiltins twoBuiltins none "m.py").1
      ["fst_pair", "debug"] [] [] hnodup
  exact ⟨hnodup, hsame, hfresh, by rw [hused, hfresh]; decide⟩

end AikenForge.History
