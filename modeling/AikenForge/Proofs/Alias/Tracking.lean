/-
# Lowering with aliases and lowering inlined source

Two runs side by side: one lowers source with aliases in force, the other lowers what inlining makes
of that source, and never has an alias. The names in force stand for the same texts on both sides,
and the records and the registry are the same, so the two runs give the same answers. The rules by
which this passes through sequences are stated once; then it is shown for expressions, patterns and
directives.
-/

import AikenForge.Proofs.Alias.Shape
import AikenForge.Proofs.Composition
import AikenForge.Proofs.Relocated

namespace AikenForge

namespace Inlining

open AikenForge.Source AikenForge.Lowering AikenForge.Text AikenForge.Expectation

variable {α β : Type}

/-! ## States side by side -/

/-- The text of what an alias stands for. -/
def Standing.text (ctx : Context) : Standing → String
  | .root name =>
    match enumMember? ctx (.name name) transactionLabel with
    | some constructor => constructor
    | none =>
      if name == "self" then transactionLabel
      else plainName ctx name ++ "." ++ transactionLabel
  | .through _ standing => standing.text ctx ++ "." ++ transactionLabel

/-- Two states have collected the same. -/
structure Abreast (s t : LoweringState) : Prop where
  records : s.records = t.records
  registry : s.registry = t.registry

/-- The aliases of one state are what names stand for, and all of them are among the given names;
the other state has no aliases and has collected the same. -/
structure Tracks (ctx : Context) (names : List String) (env : Env) (s t : LoweringState) : Prop
    extends Abreast s t where
  aliases : ∀ name, s.aliases.find? name = (env name).map (Standing.text ctx)
  bare : t.aliases = []
  within : ∀ name, (env name).isSome → name ∈ names

/-- Two runs have ended in the same way. -/
inductive Matches (reached : LoweringState → LoweringState → Prop) :
    Except Failure α × LoweringState → Except Failure α × LoweringState → Prop
  | ok (value : α) {s t : LoweringState} : reached s t →
      Matches reached (.ok value, s) (.ok value, t)
  | error (failure : Failure) {s t : LoweringState} :
      Abreast s t → Matches reached (.error failure, s) (.error failure, t)

variable (ctx : Context) (names : List String)

/-- A run with what names stand for in force is followed by a run without aliases. -/
def Follows (env : Env) (reached : LoweringState → LoweringState → Prop)
    (action bare : Lowering α) : Prop :=
  ∀ ⦃s t⦄, Tracks ctx names env s t → Matches reached (outcome action s) (outcome bare t)

/-- A run is followed by another, and names stand for the same before and after. -/
abbrev Keeps (env : Env) (action bare : Lowering α) : Prop :=
  Follows ctx names env (Tracks ctx names env) action bare

variable {ctx names} {env env' : Env} {reached reached' : LoweringState → LoweringState → Prop}

/-! ## Composition -/

/-- Runs that match still do so for a wider relation of states. -/
theorem Matches.mono {run run' : Except Failure α × LoweringState} (h : Matches reached run run')
    (hreached : ∀ s t, reached s t → reached' s t) : Matches reached' run run' := by
  cases h with
  | ok value h => exact .ok value (hreached _ _ h)
  | error failure h => exact .error failure h

/-- Runs that follow still do so for a wider relation of states. -/
theorem Follows.mono {action bare : Lowering α} (h : Follows ctx names env reached action bare)
    (hreached : ∀ s t, reached s t → reached' s t) :
    Follows ctx names env reached' action bare :=
  fun _ _ hst => (h hst).mono hreached

/-- Where the names in force no longer matter, it is enough that the runs are abreast. -/
theorem Follows.abreast {action bare : Lowering α}
    (h : Follows ctx names env (Tracks ctx names env') action bare) :
    Follows ctx names env Abreast action bare :=
  h.mono fun _ _ hst => hst.toAbreast

theorem keeps_pure (value : α) : Keeps ctx names env (pure value) (pure value) :=
  fun _ _ hst => .ok value hst

/-- A failure is the same on both sides. -/
theorem follows_throw (failure : Failure) :
    Follows ctx names env reached (throw failure : Lowering α) (throw failure) :=
  fun _ _ hst => .error failure hst.toAbreast

/-- One thing after another: the first says what names stand for when the second starts. -/
theorem Follows.bind {action bare : Lowering α} {next bareNext : α → Lowering β}
    (h : Follows ctx names env (Tracks ctx names env') action bare)
    (hnext : ∀ value, Reaches action value →
      Follows ctx names env' reached (next value) (bareNext value)) :
    Follows ctx names env reached (action >>= next) (bare >>= bareNext) := by
  intro s t hst
  have hmatches := h hst
  rw [outcome_bind, outcome_bind]
  generalize hrun : outcome action s = run at hmatches ⊢
  generalize outcome bare t = bareRun at hmatches ⊢
  cases hmatches with
  | ok value hst' => exact hnext value ⟨s, _, hrun⟩ hst'
  | error failure habreast => exact .error failure habreast

/-- After a part that every value may leave. -/
theorem Follows.then {action bare : Lowering α} {next bareNext : α → Lowering β}
    (h : Follows ctx names env (Tracks ctx names env') action bare)
    (hnext : ∀ value, Follows ctx names env' reached (next value) (bareNext value)) :
    Follows ctx names env reached (action >>= next) (bare >>= bareNext) :=
  h.bind fun value _ => hnext value

/-- A last step that only puts the value together. -/
theorem Follows.thenPure {action bare : Lowering α} (make : α → β)
    (h : Follows ctx names env reached action bare) :
    Follows ctx names env reached (action >>= fun value => pure (make value))
      (bare >>= fun value => pure (make value)) := by
  intro s t hst
  have hmatches := h hst
  rw [outcome_bind, outcome_bind]
  generalize outcome action s = run at hmatches ⊢
  generalize outcome bare t = bareRun at hmatches ⊢
  cases hmatches with
  | ok value hreached => exact .ok (make value) hreached
  | error failure habreast => exact .error failure habreast

/-- A value put together afterwards. -/
theorem Follows.map {action bare : Lowering α} (f : α → β)
    (h : Follows ctx names env reached action bare) :
    Follows ctx names env reached (f <$> action) (f <$> bare) := by
  rw [map_eq_pure_bind, map_eq_pure_bind]
  exact h.thenPure f

/-- Looking at the state on both sides. -/
theorem follows_get {next bareNext : LoweringState → Lowering α}
    (h : ∀ s t, Tracks ctx names env s t → Matches reached (outcome (next s) s)
      (outcome (bareNext t) t)) :
    Follows ctx names env reached (get >>= next) (get >>= bareNext) := by
  intro s t hst
  rw [outcome_get_bind, outcome_get_bind]
  exact h s t hst

/-- A step of the first run alone. -/
theorem follows_left {action : Lowering α} {next : α → Lowering β} {bare : Lowering β}
    (h : ∀ s t, Tracks ctx names env s t →
      ∃ value s', outcome action s = (.ok value, s') ∧ Tracks ctx names env' s' t ∧
        Follows ctx names env' reached (next value) bare) :
    Follows ctx names env reached (action >>= next) bare := by
  intro s t hst
  obtain ⟨value, s', hrun, hst', hnext⟩ := h s t hst
  rw [outcome_bind, hrun]
  exact hnext hst'

/-! ## Operations on the state -/

/-- Reports may differ. -/
theorem keeps_note (level level' : Level) (channel channel' : Channel) (message message' : String) :
    Keeps ctx names env (note level channel message) (note level' channel' message') :=
  fun _ _ hst => .ok () ⟨⟨hst.records, hst.registry⟩, hst.aliases, hst.bare, hst.within⟩

/-- What a warning says may differ, as the journals are not compared. -/
theorem keeps_warn (channel channel' : Channel) (message message' : String) :
    Keeps ctx names env (warn channel message) (warn channel' message') :=
  keeps_note ..

/-- A note on one side alone does no harm. -/
theorem keeps_note_pure (level : Level) (channel : Channel) (message : String) :
    Keeps ctx names env (note level channel message) (pure ()) :=
  fun _ _ hst => .ok () ⟨⟨hst.records, hst.registry⟩, hst.aliases, hst.bare, hst.within⟩

/-- What is recorded is recorded on both sides. -/
theorem keeps_modifyRecords (change : Records → Records) :
    Keeps ctx names env (modifyRecords change) (modifyRecords change) := by
  intro s t hst
  refine .ok () ⟨⟨?_, hst.registry⟩, hst.aliases, hst.bare, hst.within⟩
  exact congrArg change hst.records

/-- Annotations are resolved without a look at the state. -/
theorem keeps_ofReporting {action : Reporting α} (h : action.Steady) :
    Keeps ctx names env (ofReporting action) (ofReporting action) := by
  intro s t hst
  have hrun (state : LoweringState) : outcome (ofReporting action) state =
      ((action.run state.journal).1, { state with journal := (action.run state.journal).2 }) := rfl
  rw [hrun, hrun, h s.journal t.journal]
  have habreast : Abreast { s with journal := (action.run s.journal).2 }
      { t with journal := (action.run t.journal).2 } := ⟨hst.records, hst.registry⟩
  cases (action.run t.journal).1 with
  | ok value => exact .ok value ⟨habreast, hst.aliases, hst.bare, hst.within⟩
  | error failure => exact .error failure habreast

/-- Ending aliases ends what names stand for; the second run has nothing to end. -/
theorem Tracks.ended {s t : LoweringState} (h : Tracks ctx names env s t) (taken : List String) :
    Tracks ctx names (Inlining.ended heeded taken env)
      { s with aliases := taken.foldl Table.erase s.aliases } t := by
  refine ⟨⟨h.records, h.registry⟩, fun name => ?_, h.bare, fun name hname => ?_⟩
  · rw [Table.find?_foldl_erase, ended_heeded]
    split
    · rfl
    · exact h.aliases name
  · rw [ended_heeded] at hname
    split at hname
    · simp at hname
    · exact h.within name hname

theorem foldl_erase_nil (taken : List String) :
    taken.foldl Table.erase ([] : Table String) = [] := by
  induction taken with
  | nil => rfl
  | cons _ _ ih => exact ih

/-- Dropping names ends what they stand for; the other side has nothing to drop. -/
theorem follows_dropAliases (taken bareTaken : List String) :
    Follows ctx names env (Tracks ctx names (ended heeded taken env)) (dropAliases taken)
      (dropAliases bareTaken) := by
  intro s t hst
  obtain ⟨habreast, haliases, hbare, hwithin⟩ := hst.ended taken
  refine .ok () ⟨⟨habreast.records, habreast.registry⟩, haliases, ?_, hwithin⟩
  change bareTaken.foldl Table.erase t.aliases = []
  rw [hbare, foldl_erase_nil]

/-- A scope restores the aliases that were there before. -/
theorem outcome_withAliases (change : Table String → Table String) (action : Lowering α)
    (state : LoweringState) :
    outcome (withAliases change action) state =
      ((outcome action { state with aliases := change state.aliases }).1,
        { (outcome action { state with aliases := change state.aliases }).2 with
          aliases := state.aliases }) :=
  rfl

/-- Work with changed aliases on both sides, from states that correspond; the aliases are put back
after it. -/
theorem follows_withAliases {action bare : Lowering α}
    {change bareChange : Table String → Table String}
    (hchange : ∀ s t, Tracks ctx names env s t →
      Tracks ctx names env' { s with aliases := change s.aliases }
        { t with aliases := bareChange t.aliases })
    (h : Follows ctx names env' Abreast action bare) :
    Keeps ctx names env (withAliases change action) (withAliases bareChange bare) := by
  intro s t hst
  have hmatches := h (hchange s t hst)
  rw [outcome_withAliases, outcome_withAliases]
  generalize outcome action { s with aliases := change s.aliases } = run at hmatches ⊢
  generalize outcome bare { t with aliases := bareChange t.aliases } = bareRun at hmatches ⊢
  cases hmatches with
  | ok value habreast =>
      exact .ok value ⟨⟨habreast.records, habreast.registry⟩, hst.aliases, hst.bare, hst.within⟩
  | error failure habreast => exact .error failure ⟨habreast.records, habreast.registry⟩

/-- A scope in which names are hidden leaves what names stand for as it was. -/
theorem follows_without (taken : List String) {action bare : Lowering α}
    (h : Follows ctx names (ended heeded taken env) Abreast action bare) :
    Keeps ctx names env (withAliases (fun aliases => taken.foldl Table.erase aliases) action)
      (withAliases (fun aliases => taken.foldl Table.erase aliases) bare) := by
  refine follows_withAliases (fun s t hst => ?_) h
  obtain ⟨habreast, haliases, hbare, hwithin⟩ := hst.ended taken
  refine ⟨⟨habreast.records, habreast.registry⟩, haliases, ?_, hwithin⟩
  change taken.foldl Table.erase t.aliases = []
  rw [hbare, foldl_erase_nil]

/-- A block restores the aliases, so what it binds ends with it. -/
theorem follows_inBlock {action bare : Lowering α} (h : Follows ctx names env Abreast action bare) :
    Keeps ctx names env (inBlock action) (inBlock bare) :=
  follows_withAliases (fun _ _ hst => hst) h

/-- Keeping what names stand for passes through everything that leaves the aliases alone. -/
theorem keeps_congruence : Congruence (Keeps ctx names env) where
  pure value := keeps_pure value
  throw failure := follows_throw failure
  bind haction hnext := haction.then hnext
  note level channel message := keeps_note level level channel channel message message
  record added := keeps_modifyRecords (· ++ added)

/-! ## Names and builtins -/

section Expressions

variable (ctx names)

/-- What an alias stands for has its text where there are no aliases. -/
theorem outcome_lower_standing (standing : Standing) {state : LoweringState}
    (h : state.aliases = []) :
    outcome (lower ctx standing.expr) state = (.ok (standing.text ctx), state) := by
  have hcontains : state.aliases.contains "self" = false := by
    rw [h]
    rfl
  induction standing with
  | root name =>
      rw [Standing.expr, lower, Standing.text]
      cases enumMember? ctx (.name name) transactionLabel with
      | some constructor => rfl
      | none =>
          dsimp only
          rw [outcome_get_bind, hcontains]
          by_cases hself : name = "self"
          · subst hself
            rfl
          · have hname : ((Expr.name name).name? == some "self") = false := by simpa [Expr.name?]
            have hbeq : (name == "self") = false := by simpa using hself
            rw [hname, hbeq, Bool.false_and, if_neg Bool.false_ne_true, if_neg Bool.false_ne_true,
              outcome_bind, lower, outcome_nameText, h]
            rfl
  | through name standing ih =>
      have hmember : enumMember? ctx standing.expr transactionLabel = none := by
        simp [enumMember?]
      rw [Standing.expr, lower, hmember, Standing.text]
      dsimp only
      rw [outcome_get_bind, name?_standing, hcontains]
      rw [show ((none : Option String) == some "self") = false from rfl, Bool.false_and,
        if_neg Bool.false_ne_true, outcome_bind, ih, precedence_standing]
      rfl

/-- A name is written as its alias on one side, and stands inlined on the other. -/
theorem keeps_name (id : String) :
    Keeps ctx names env (lower ctx (.name id)) (lower ctx (inline heeded ctx env (.name id))) := by
  intro s t hst
  rw [lower, outcome_nameText, hst.aliases id]
  cases h : env id with
  | none =>
      rw [inline_name_none _ _ _ h, lower, outcome_nameText, hst.bare]
      exact .ok _ hst
  | some standing =>
      rw [inline_name_some _ _ _ h, outcome_lower_standing ctx standing hst.bare]
      exact .ok _ hst

/-- A name has an alias exactly if it stands for something. -/
theorem Tracks.contains {s t : LoweringState} (hst : Tracks ctx names env s t) (id : String) :
    s.aliases.contains id = (env id).isSome := by
  rw [Table.contains, hst.aliases id, Option.isSome_map]

/-- The same target is found for a function and for what it is after inlining. -/
theorem Tracks.foundTarget? {s t : LoweringState} (hst : Tracks ctx names env s t) (callee : Expr) :
    Lowering.foundTarget? ctx s callee =
      Lowering.foundTarget? ctx t (inline heeded ctx env callee) := by
  unfold Lowering.foundTarget?
  rw [name?_inline, hst.registry, hst.bare]
  cases callee.name? with
  | none => rfl
  | some id =>
      have hcontains := hst.contains ctx names id
      have hnone : Table.contains ([] : Table String) id = false := rfl
      cases henv : env id with
      | none =>
          cases t.registry.map Registry.mappings <;> simp [Option.filter, henv, hcontains, hnone]
      | some standing =>
          cases t.registry.map Registry.mappings <;> simp [Option.filter, henv, hcontains]

/-- An alias is no builtin, and what it stands for is no name. -/
theorem keeps_builtinTarget? (callee : Expr) :
    Keeps ctx names env (builtinTarget? ctx callee)
      (builtinTarget? ctx (inline heeded ctx env callee)) := by
  intro s t hst
  rw [outcome_builtinTarget?, outcome_builtinTarget?, hst.foundTarget? ctx names callee,
    hst.registry]
  exact .ok _ ⟨⟨hst.records, rfl⟩, hst.aliases, hst.bare, hst.within⟩

/-- A callee is a builtin on both sides or on neither. -/
theorem keeps_calleeText (callee : Expr) {lowered bareLowered : Lowering String}
    (h : Keeps ctx names env lowered bareLowered) :
    Keeps ctx names env (calleeText ctx callee lowered)
      (calleeText ctx (inline heeded ctx env callee) bareLowered) :=
  keeps_congruence.callee (precedence_inline ..) (keeps_builtinTarget? ctx names callee) h

/-- An alias hides an enumeration of its name, and what it stands for is none. -/
theorem keeps_attribute {value : Expr} (label : String)
    (h : Keeps ctx names env (lower ctx value) (lower ctx (inline heeded ctx env value))) :
    Keeps ctx names env (lower ctx (.attribute value label))
      (lower ctx (inline heeded ctx env (.attribute value label))) := by
  rw [inline]
  cases hmember : enumMember? ctx value label with
  | some constructor =>
      rw [Option.isSome_some, if_pos rfl, lower, hmember]
      exact keeps_pure _
  | none =>
      rw [if_neg (by simp), lower, lower, hmember, enumMember?_inline ctx hmember]
      refine follows_get fun s t hst => ?_
      -- A plain `self` is left out where it stands for nothing, and then it is a name on both
      -- sides.
      have hself : ((inline heeded ctx env value).name? == some "self" &&
          !t.aliases.contains "self") =
          (value.name? == some "self" && !s.aliases.contains "self") := by
        rw [name?_inline, hst.bare, hst.contains ctx names "self"]
        cases hname : value.name? with
        | none => rfl
        | some id =>
            by_cases hid : id = "self"
            · subst hid
              cases henv : env "self" <;> simp [Option.filter, henv, Table.contains, Table.find?]
            · have hbeq : (id == "self") = false := beq_false_of_ne hid
              cases henv : env id <;> simp [Option.filter, henv, hbeq]
      rw [hself, precedence_inline]
      split
      · exact .ok _ hst
      · exact h.thenPure _ hst

/-! ## Expressions -/

/-- A call stays the special form that it is, or stays none. -/
theorem keeps_call (callee : Expr) (args : List Expr) (keywords : List Keyword)
    (hcallee : Keeps ctx names env (lower ctx callee) (lower ctx (inline heeded ctx env callee)))
    (hpipe : Keeps ctx names env (lowerPipe ctx args)
      (lowerPipe ctx (inlinePipe heeded ctx env args)))
    (hexpect : Keeps ctx names env (lowerExpect ctx args)
      (lowerExpect ctx (inlineAll heeded ctx env args)))
    (hargs : Keeps ctx names env (lowerAll ctx args) (lowerAll ctx (inlineAll heeded ctx env args)))
    (hfields : Keeps ctx names env (lowerFields ctx keywords)
      (lowerFields ctx (inlineKeywords heeded ctx env keywords)))
    (hlabelled : Keeps ctx names env (lowerLabelled ctx true keywords)
      (lowerLabelled ctx true (inlineKeywords heeded ctx env keywords))) :
    Keeps ctx names env (lower ctx (.call callee args keywords))
      (lower ctx (inline heeded ctx env (.call callee args keywords))) := by
  rw [inline]
  cases hspecial : specialCall? ctx callee args with
  | none =>
      dsimp only
      rw [lower, lower, hspecial, specialCall?_inline ctx hspecial, isEmpty_inlineAll,
        isEmpty_inlineKeywords]
      refine (keeps_calleeText ctx names callee hcallee).then fun name => ?_
      split
      · exact hfields.thenPure _
      · exact hargs.then fun _ => hlabelled.thenPure _
  | some special =>
      cases special with
      | pipe =>
          dsimp only
          rw [lower, lower, hspecial,
            specialCall?_congr ctx callee (isEmpty_inlinePipe heeded ctx env args), hspecial]
          exact hpipe
      | expect =>
          dsimp only
          rw [lower, lower, hspecial,
            specialCall?_congr ctx callee (isEmpty_inlineAll heeded ctx env args), hspecial]
          exact hexpect

mutual

/-- An expression and what inlining makes of it, by induction on the expression. -/
theorem keeps_lower : ∀ (e : Expr) (env : Env),
    Keeps ctx names env (lower ctx e) (lower ctx (inline heeded ctx env e))
  | .name id, _ => keeps_name ctx names id
  | .constant value, _ => keeps_congruence.constant value
  | .attribute value label, env => keeps_attribute ctx names label (keeps_lower value env)
  | .subscript value index, env =>
      keeps_congruence.subscript (precedence_inline ..)
        (kind_beq_inline _ _ _ _ (by decide) (by decide)) (fun _ => keeps_lower value env)
        fun _ => keeps_lower index env
  | .list items, env => keeps_congruence.list (keeps_lowerAll items env)
  | .tuple items, env => keeps_congruence.tuple (keeps_lowerAll items env)
  | .starred value, env => keeps_congruence.starred (keeps_lower value env)
  | .dict entries, env => keeps_congruence.dict (keeps_lowerEntries entries env)
  | .unary op operand, env =>
      keeps_congruence.unary op (precedence_inline ..) (keeps_lower operand env)
  | .binary op left right, env =>
      keeps_congruence.binary op (precedence_inline ..) (precedence_inline ..)
        (keeps_lower left env)
        (keeps_lower right env)
  | .boolean op values, env => keeps_congruence.boolean op (keeps_lowerOperands _ values env)
  | .compare left links, env =>
      keeps_congruence.compare (precedence_inline ..)
        (keeps_lowerLinks _ links env (keeps_lower left env))
  | .conditional test body orelse, env =>
      keeps_congruence.conditional (keeps_lower test env) (keeps_lower body env)
        (keeps_lower orelse env)
  | .call callee args keywords, env =>
      keeps_call ctx names callee args keywords (keeps_lower callee env) (keeps_lowerPipe args env)
        (keeps_lowerExpect args env) (keeps_lowerAll args env) (keeps_lowerFields keywords env)
        (keeps_lowerLabelled true keywords env)
  | .lambda parameters body, env =>
      keeps_congruence.lambda parameters (follows_without _ (keeps_lower body _).abreast)
  | .comprehension .list element [.mk target iterable conditions isAsync], env => by
      have hiterable := keeps_lower iterable env
      have hconditions := fun env => keeps_lowerAll conditions env
      have helement := fun env => keeps_lower element env
      cases target
      case name target =>
        exact keeps_congruence.comprehension keeps_congruence
          (fun hinside => follows_without [target] hinside.abreast)
            (name?_inline_bound ..) hiterable
          (hconditions _) fun _ => helement _
      all_goals exact keeps_congruence.reported _ _ _
  | .comprehension .list _ [], _ => keeps_congruence.reported _ _ _
  | .comprehension .list _ (.mk target _ _ _ :: _ :: _), _ => by
      cases target <;> exact keeps_congruence.reported _ _ _
  | .comprehension .set _ _, _ | .comprehension .generator _ _, _ | .slice .., _ | .set _, _
  | .dictComprehension .., _ | .named .., _ | .await _, _ | .yield _, _ | .yieldFrom _, _
  | .joined _, _ | .formatted .., _ => keeps_congruence.unsupported _ _

theorem keeps_lowerPipe : ∀ (args : List Expr) (env : Env),
    Keeps ctx names env (lowerPipe ctx args) (lowerPipe ctx (inlinePipe heeded ctx env args))
  | [], _ => keeps_pure _
  | value :: rest, env =>
      keeps_congruence.pipe_cons (keeps_lower value env) (keeps_lowerSteps rest env)

theorem keeps_lowerExpect : ∀ (args : List Expr) (env : Env),
    Keeps ctx names env (lowerExpect ctx args) (lowerExpect ctx (inlineAll heeded ctx env args))
  | [], _ => keeps_pure _
  | value :: further, env =>
      keeps_congruence.expect_cons rfl (expectMessage_inlineAll ctx further) (keeps_lower value env)

theorem keeps_lowerAll : ∀ (items : List Expr) (env : Env),
    Keeps ctx names env (lowerAll ctx items) (lowerAll ctx (inlineAll heeded ctx env items))
  | [], _ => keeps_pure _
  | e :: rest, env => keeps_congruence.all_cons (keeps_lower e env) (keeps_lowerAll rest env)

theorem keeps_lowerOperands (place : Precedence) : ∀ (items : List Expr) (env : Env),
    Keeps ctx names env (lowerOperands ctx place items)
      (lowerOperands ctx place (inlineAll heeded ctx env items))
  | [], _ => keeps_pure _
  | e :: rest, env =>
      keeps_congruence.operands_cons place (precedence_inline ..) (keeps_lower e env)
        (keeps_lowerOperands place rest env)

theorem keeps_lowerEntries : ∀ (entries : List Entry) (env : Env),
    Keeps ctx names env (lowerEntries ctx entries)
      (lowerEntries ctx (inlineEntries heeded ctx env entries))
  | [], _ => keeps_pure _
  | .spread value :: rest, env =>
      keeps_congruence.entries_spread (keeps_lower value env) (keeps_lowerEntries rest env)
  | .pair key value :: rest, env =>
      keeps_congruence.entries_pair (text?_inline ..) (keeps_lower key env) (keeps_lower value env)
        (keeps_lowerEntries rest env)

theorem keeps_lowerLinks (leftOwn : Precedence) : ∀ (links : List Link) (env : Env)
    {left bareLeft : Lowering String}, Keeps ctx names env left bareLeft →
    Keeps ctx names env (lowerLinks ctx leftOwn left links)
      (lowerLinks ctx leftOwn bareLeft (inlineLinks heeded ctx env links))
  | [], _, _, _, _ => keeps_pure _
  | .mk op right :: rest, env, _, _, hleft => by
      have hright := keeps_lower right env
      exact keeps_congruence.links_cons op leftOwn (precedence_inline ..) hleft hright
        (keeps_lowerLinks _ rest env hright)

theorem keeps_lowerFields : ∀ (keywords : List Keyword) (env : Env),
    Keeps ctx names env (lowerFields ctx keywords)
      (lowerFields ctx (inlineKeywords heeded ctx env keywords))
  | [], _ => keeps_pure _
  | .labelled label value :: rest, env =>
      keeps_congruence.fields_labelled label (keeps_lower value env) (keeps_lowerFields rest env)
  | .spread value :: rest, env =>
      keeps_congruence.fields_spread (keeps_lower value env) (keeps_lowerFields rest env)

theorem keeps_lowerLabelled (warnSpread : Bool) : ∀ (keywords : List Keyword) (env : Env),
    Keeps ctx names env (lowerLabelled ctx warnSpread keywords)
      (lowerLabelled ctx warnSpread (inlineKeywords heeded ctx env keywords))
  | [], _ => keeps_pure _
  | .labelled label value :: rest, env =>
      keeps_congruence.labelled_labelled warnSpread label (keeps_lower value env)
        (keeps_lowerLabelled warnSpread rest env)
  | .spread value :: rest, env =>
      keeps_congruence.labelled_spread warnSpread value _ (keeps_lowerLabelled warnSpread rest env)

theorem keeps_lowerSteps : ∀ (steps : List Expr) (env : Env),
    Keeps ctx names env (lowerSteps ctx steps) (lowerSteps ctx (inlineSteps heeded ctx env steps))
  | [], _ => keeps_pure _
  | e :: rest, env => by
      have he := keeps_lower e env
      have hrest := keeps_lowerSteps rest env
      cases hcall : e.kind == "Call" with
      | false =>
          have hinlined : ((inline heeded ctx env e).kind == "Call") = false := by
            rw [kind_beq_inline _ _ _ _ (by decide) (by decide), hcall]
          rw [inlineSteps_cons ctx hcall]
          exact keeps_congruence.steps_cons hcall hinlined (keeps_calleeText ctx names e he) hrest
      | true =>
          cases e with
          | call callee args keywords =>
              exact keeps_congruence.steps_call (keeps_lowerAll args env)
                (keeps_lowerLabelled false keywords env)
                (keeps_calleeText ctx names callee (keeps_lower callee env)) hrest
          | _ => first | contradiction | (rename_i kind _ _; cases kind <;> contradiction)

end

/-! ## Patterns -/

/-- Expressions are lowered without a look at the roots. -/
@[simp]
theorem lower_rootless : lower (rootless ctx) = lower ctx :=
  lower_relocate ctx _ _

theorem options_rootless : (rootless ctx).options = ctx.options :=
  rfl

theorem knowsSource_rootless : (rootless ctx).knowsSource = ctx.knowsSource :=
  rfl

/-- On the side without aliases, roots do not matter either. -/
theorem keeps_lower_rootless (e : Expr) (env : Env) :
    Keeps ctx names env (lower ctx e) (lower (rootless ctx) (inline heeded ctx env e)) := by
  rw [lower_rootless]
  exact keeps_lower ctx names e env

mutual

/-- A pattern and what inlining makes of it. -/
theorem keeps_lowerPattern : ∀ (pattern : Pattern) (env : Env),
    Keeps ctx names env (lowerPattern ctx pattern)
      (lowerPattern (rootless ctx) (inlinePattern heeded ctx env pattern))
  | .value expression, env =>
      keeps_congruence.pattern_value (keeps_lower_rootless ctx names expression env)
  | .singleton _, _ | .capture none, _ | .capture (some _), _ | .star _, _ => keeps_pure _
  | .binding pattern name, env =>
      keeps_congruence.pattern_binding name (keeps_lowerPattern pattern env)
  | .class callee args labels fields, env =>
      keeps_congruence.pattern_class labels (keeps_lower_rootless ctx names callee env)
        (keeps_lowerPatterns args env) (keeps_lowerPatterns fields env)
  | .sequence opensRound items, env =>
      keeps_congruence.pattern_sequence (knowsSource_rootless ctx) opensRound
        (keeps_lowerPatterns items env)
  | .alternatives items, env =>
      keeps_congruence.pattern_alternatives (keeps_lowerPatterns items env)
  | .mapping .., _ => keeps_congruence.reported _ _ _

theorem keeps_lowerPatterns : ∀ (patterns : List Pattern) (env : Env),
    Keeps ctx names env (lowerPatterns ctx patterns)
      (lowerPatterns (rootless ctx) (inlinePatterns heeded ctx env patterns))
  | [], _ => keeps_pure _
  | pattern :: rest, env =>
      keeps_congruence.patterns_cons (keeps_lowerPattern pattern env) (keeps_lowerPatterns rest env)

end

end Expressions

end Inlining

end AikenForge
