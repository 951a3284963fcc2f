/-
# Canonical form is reached in one step

Bringing a module to canonical form changes nothing but the parameters, the return type, the body
and the records of its handlers. The body is lowered again from its source each time, with alias
roots taken from the parameters at hand and a registry that has been used before. It comes out the
same: the canonical parameters of a list that has its leading ones are a fixed point, they keep all
the names of the list, so that the same names are roots, and what was used before has no influence.
-/

import Mathlib.Data.List.Forall2
import AikenForge.Proofs.Handler.Consulted

namespace AikenForge.Canonical

open AikenForge.Source AikenForge.Lowering

/-! ## Parameters -/

section Parameters

open ParameterDeclaration Purpose

/-- A type that is optional already is not wrapped again. -/
theorem wrapInOption_wrapInOption (type : String) :
    Hint.wrapInOption (Hint.wrapInOption type) = Hint.wrapInOption type := by
  by_cases h : Hint.shouldWrapInOption type = true
  · have hwrapped : Hint.wrapInOption type = "Option<" ++ type ++ ">" := if_pos h
    have hplain : Hint.shouldWrapInOption ("Option<" ++ type ++ ">") = false := by
      simp [Hint.shouldWrapInOption]
    rw [hwrapped]
    exact if_neg (by simp [hplain])
  · have hplain : Hint.wrapInOption type = type := if_neg h
    rw [hplain, hplain]

theorem wrapInOption_ne_empty {type : String} (h : type ≠ "") : Hint.wrapInOption type ≠ "" := by
  unfold Hint.wrapInOption
  split
  · simp
  · exact h

/-- A datum is wrapped once. -/
@[simp]
theorem wrapDatum_wrapDatum (p : ParameterDeclaration) : p.wrapDatum.wrapDatum = p.wrapDatum := by
  by_cases hname : p.name = "datum"
  · let type := (p.type.bind nonEmpty?).getD "Void"
    have htype : type ≠ "" := by
      cases hgiven : p.type.bind nonEmpty? with
      | none => simp [type, hgiven]
      | some given =>
          obtain ⟨text, -, htext⟩ := Option.bind_eq_some_iff.mp hgiven
          simp only [nonEmpty?, Option.ite_none_left_eq_some, Option.some.injEq] at htext
          obtain ⟨hfull, rfl⟩ := htext
          simpa [type, hgiven] using hfull
    have hkept : (nonEmpty? (Hint.wrapInOption type)).getD "Void" = Hint.wrapInOption type := by
      simp [nonEmpty?, wrapInOption_ne_empty htype]
    have hwrapped : p.wrapDatum = { p with type := some (Hint.wrapInOption type) } := by
      simp [wrapDatum, hname, type]
    rw [hwrapped, wrapDatum]
    simp [hname, hkept, wrapInOption_wrapInOption]
  · simp [wrapDatum, hname]

/-- A redeemer is typed once. -/
@[simp]
theorem typeRedeemer_typeRedeemer (p : ParameterDeclaration) :
    p.typeRedeemer.typeRedeemer = p.typeRedeemer := by
  by_cases h : (p.name == "redeemer" && p.isUntyped) = true
  · have htyped : p.typeRedeemer = { p with type := some "Data" } := if_pos h
    rw [htyped]
    exact if_neg (by simp [isUntyped])
  · have hkept : p.typeRedeemer = p := if_neg h
    rw [hkept, hkept]

/-- A wrapped datum keeps its name. -/
@[simp]
theorem name_wrapDatum (p : ParameterDeclaration) : p.wrapDatum.name = p.name := by
  unfold wrapDatum
  split <;> rfl

/-- A typed redeemer keeps its name. -/
@[simp]
theorem name_typeRedeemer (p : ParameterDeclaration) : p.typeRedeemer.name = p.name := by
  unfold typeRedeemer
  split <;> rfl

/-- A handler has the parameters that lead the list of its purpose: two to spend, one to mint or to
withdraw. Publishing, which takes no parameters, never counts. -/
def HasLeading (purpose : Purpose) (parameters : List ParameterDeclaration) : Prop :=
  match purpose with
  | .publish => False
  | .spend => 2 ≤ parameters.length
  | .mint | .withdraw => 1 ≤ parameters.length
  | .vote | .propose | .other => True

/-- The leading parameters are typed once. -/
theorem typeLeading_typeLeading (purpose : Purpose) (parameters : List ParameterDeclaration) :
    purpose.typeLeading (purpose.typeLeading parameters) = purpose.typeLeading parameters := by
  rcases parameters with _ | ⟨first, _ | ⟨second, rest⟩⟩ <;> cases purpose <;> simp [typeLeading]

/-- Typing parameters renames none. -/
theorem map_name_typeLeading (purpose : Purpose) (parameters : List ParameterDeclaration) :
    (purpose.typeLeading parameters).map ParameterDeclaration.name =
      parameters.map ParameterDeclaration.name := by
  rcases parameters with _ | ⟨first, _ | ⟨second, rest⟩⟩ <;> cases purpose <;> simp [typeLeading]

/-- Typing parameters adds none. -/
@[simp]
theorem length_typeLeading (purpose : Purpose) (parameters : List ParameterDeclaration) :
    (purpose.typeLeading parameters).length = parameters.length := by
  simpa using congrArg List.length (map_name_typeLeading purpose parameters)

/-- Trailing parameters come after what is there. -/
theorem exists_addTrailing_eq (position : Nat) (parameters trailing : List ParameterDeclaration) :
    ∃ added, addTrailing position parameters trailing = parameters ++ added := by
  induction trailing generalizing position parameters with
  | nil => exact ⟨[], by simp [addTrailing]⟩
  | cons p rest ih =>
      rw [addTrailing]
      split
      · obtain ⟨added, hadded⟩ := ih (position + 1) (parameters ++ [p])
        exact ⟨p :: added, by simp [hadded]⟩
      · exact ih (position + 1) parameters

/-- There are enough parameters once the trailing ones were added. -/
theorem length_addTrailing {position : Nat} {parameters : List ParameterDeclaration}
    (h : position ≤ parameters.length) (trailing : List ParameterDeclaration) :
    position + trailing.length ≤ (addTrailing position parameters trailing).length := by
  induction trailing generalizing position parameters with
  | nil => simpa [addTrailing] using h
  | cons p rest ih =>
      rw [addTrailing, List.length_cons, ← Nat.add_assoc, Nat.add_right_comm]
      split
      · exact ih (by simpa using h)
      · exact ih (by omega)

/-- Nothing is added to a list that is long enough. -/
theorem addTrailing_eq_self {position : Nat} {parameters trailing : List ParameterDeclaration}
    (h : position + trailing.length ≤ parameters.length) :
    addTrailing position parameters trailing = parameters := by
  induction trailing generalizing position with
  | nil => rfl
  | cons p rest ih =>
      rw [List.length_cons] at h
      rw [addTrailing, if_neg (by omega)]
      exact ih (by omega)

/-- With its leading parameters in place, a list is typed at its head whatever follows. -/
theorem typeLeading_append {purpose : Purpose} {leading : Nat}
    {trailing parameters : List ParameterDeclaration}
    (htrailing : purpose.trailing? = some (leading, trailing)) (h : leading ≤ parameters.length)
    (added : List ParameterDeclaration) :
    purpose.typeLeading (parameters ++ added) = purpose.typeLeading parameters ++ added := by
  rcases parameters with _ | ⟨first, _ | ⟨second, rest⟩⟩ <;> cases purpose <;>
    simp_all [typeLeading, trailing?]
  omega

/-- The canonical parameters of a list with its leading parameters are a fixed point. -/
theorem canonicalParameters_idem {purpose : Purpose} {parameters : List ParameterDeclaration}
    (h : HasLeading purpose parameters) :
    purpose.canonicalParameters (purpose.canonicalParameters parameters) =
      purpose.canonicalParameters parameters := by
  have hpublish : purpose ≠ .publish := by
    rintro rfl
    exact h
  cases htrailing : purpose.trailing? with
  | none =>
      have hcanonical (parameters : List ParameterDeclaration) :
          purpose.canonicalParameters parameters = purpose.typeLeading parameters := by
        simp [canonicalParameters, hpublish, htrailing]
      rw [hcanonical, hcanonical, typeLeading_typeLeading]
  | some entry =>
      obtain ⟨leading, trailing⟩ := entry
      have hcanonical (parameters : List ParameterDeclaration) :
          purpose.canonicalParameters parameters =
            addTrailing leading (purpose.typeLeading parameters) trailing := by
        simp [canonicalParameters, hpublish, htrailing]
      have hleading : leading ≤ (purpose.typeLeading parameters).length := by
        cases purpose <;> simp_all [trailing?, HasLeading]
      have hlong := length_addTrailing hleading trailing
      obtain ⟨added, hadded⟩ :=
        exists_addTrailing_eq leading (purpose.typeLeading parameters) trailing
      rw [hcanonical, hcanonical, hadded, typeLeading_append htrailing hleading,
        typeLeading_typeLeading, ← hadded]
      exact addTrailing_eq_self hlong

/-- Except for publishing, the canonical parameters begin with the names of the list. -/
theorem map_name_subset_canonicalParameters {purpose : Purpose} (h : purpose ≠ .publish)
    (parameters : List ParameterDeclaration) :
    parameters.map ParameterDeclaration.name ⊆
      (purpose.canonicalParameters parameters).map ParameterDeclaration.name := by
  unfold canonicalParameters
  rw [if_neg h, ← map_name_typeLeading purpose parameters]
  split
  · obtain ⟨added, hadded⟩ := exists_addTrailing_eq _ (purpose.typeLeading parameters) _
    rw [hadded, List.map_append]
    exact List.subset_append_left _ _
  · exact List.Subset.refl _

end Parameters

/-! ## Handlers -/

/-- Of the alias roots, lowering asks only which names are among them. -/
theorem functionText_congr_roots (ctx : Context) {roots : List String}
    (h : ∀ root, root ∈ roots ↔ root ∈ ctx.aliasRoots) (f : FunctionSource) :
    functionText { ctx with aliasRoots := roots } f = functionText ctx f := by
  have hroots (root : String) : roots.contains root = ctx.aliasRoots.contains root := by
    rw [Bool.eq_iff_iff, List.contains_iff_mem, List.contains_iff_mem, h root]
  have hagrees (statement : Stmt) : AgreesAt ctx ctx.directives roots statement := by
    refine ⟨rfl, fun _ _ _ value _ => ?_⟩
    unfold isTransactionAlias
    split
    · exact congrArg (_ && ·) (hroots _)
    · rfl
  exact functionText_relocate (fun _ _ => rfl) fun statement _ => hagrees statement

/-- What canonical form keeps of a function: all of one that is no handler, and of a handler all but
its parameters, its return type, its body and its records. -/
structure KeepsFunction (f g : FunctionDeclaration) : Prop where
  plain : f.isHandler = false → g = f
  name : g.name = f.name
  purpose : g.purpose = f.purpose
  purposeName : g.purposeName = f.purposeName
  contract : g.contract = f.contract
  docs : g.docs = f.docs
  isPublic : g.isPublic = f.isPublic
  typeParameters : g.typeParameters = f.typeParameters

/-- A computation gives a value back, from every state with a certain table of builtins. -/
def GivesBack {α : Type} (table : Option (Table String)) (action : α → Lowering α) (value : α) :
    Prop :=
  ∀ state, builtins? state = table → ∃ after, Yields (action value) state value after

/-- The settled return type is given and not empty, so it is settled. -/
theorem settled_returnType (given : Option String) :
    ((some ((given.bind nonEmpty?).getD "Bool")).bind nonEmpty?).getD "Bool" =
      (given.bind nonEmpty?).getD "Bool" := by
  cases given with
  | none => rfl
  | some text => by_cases htext : text = "" <;> simp [nonEmpty?, htext]

section Handlers

variable {options : Options} {scope : Scope} {f g : FunctionDeclaration}
  {before after : LoweringState}

/-- Canonical form keeps what makes a function what it is. -/
theorem keepsFunction_of_yields (hhandler : f.isHandler = true)
    (h : Yields (f.canonicalize options scope) before g after) : KeepsFunction f g := by
  have hplain : f.isHandler = false → g = f := by simp [hhandler]
  unfold FunctionDeclaration.canonicalize at h
  dsimp only at h
  split at h
  · obtain ⟨_, _, -, hpure⟩ := yields_bind.mp h
    obtain ⟨rfl, -⟩ := yields_pure.mp hpure
    exact ⟨hplain, rfl, rfl, rfl, rfl, rfl, rfl, rfl⟩
  · obtain ⟨_, _, -, hpure⟩ := yields_bind.mp h
    obtain ⟨rfl, -⟩ := yields_pure.mp hpure
    exact ⟨hplain, rfl, rfl, rfl, rfl, rfl, rfl, rfl⟩

/-- A handler with its leading parameters is in canonical form once it has been brought there. -/
theorem givesBack_canonicalize {purpose : Purpose} (hpurpose : f.purpose = some purpose)
    (hleading : HasLeading purpose f.parameters)
    (h : Yields (f.canonicalize options scope) before g after) :
    GivesBack (builtins? before) (FunctionDeclaration.canonicalize options scope) g := by
  have hpublish : purpose ≠ .publish := by
    rintro rfl
    exact hleading
  intro state hstate
  unfold FunctionDeclaration.canonicalize at h ⊢
  simp only [hpurpose, Option.getD_some] at h
  split at h
  · rename_i hsource
    obtain ⟨_, _, -, hpure⟩ := yields_bind.mp h
    obtain ⟨rfl, -⟩ := yields_pure.mp hpure
    simp only [hsource, Option.getD_some, canonicalParameters_idem hleading, settled_returnType]
    exact ⟨_, .bind rfl .pure⟩
  · rename_i source hsource
    obtain ⟨⟨body, records⟩, between, hbody, hpure⟩ := yields_bind.mp h
    obtain ⟨rfl, -⟩ := yields_pure.mp hpure
    simp only [hsource, Option.getD_some, canonicalParameters_idem hleading, settled_returnType]
    let canonical := purpose.canonicalParameters f.parameters
    let first : Context := ⟨scope, options, f.directives, true,
      (f.parameters ++ canonical).map ParameterDeclaration.name⟩
    -- The names of the old parameters are among the new ones, so the same names are roots.
    have htext : functionText
        { first with aliasRoots := (canonical ++ canonical).map ParameterDeclaration.name } source =
          functionText first source := by
      refine functionText_congr_roots first (fun root => ?_) source
      have hsubset := @map_name_subset_canonicalParameters _ hpublish f.parameters root
      simp only [first, List.map_append, List.mem_append, or_self]
      exact ⟨.inr, fun hroot => hroot.elim (fun hold => hsubset hold) id⟩
    have hgives : (outcome (separately (functionText first source)) before).1 =
        .ok (body, records) := congrArg Prod.fst hbody
    have hsame := separately_congr (composed_functionText first source) hstate
    have hagain : Yields (separately (functionText
        { first with aliasRoots := (canonical ++ canonical).map ParameterDeclaration.name } source))
        state (body, records) (Frame.reachedState (separately (functionText first source))
          state) := by
      rw [htext]
      exact Prod.ext (hsame.trans hgives) rfl
    exact ⟨_, .bind hagain .pure⟩

end Handlers

/-! ## Modules -/

/-- What canonical form keeps of a module: all but its functions, and these in their order, each
with what canonical form keeps of it. -/
structure KeepsModule (m m' : DeclaredModule) : Prop where
  name : m'.name = m.name
  docs : m'.docs = m.docs
  imports : m'.imports = m.imports
  types : m'.types = m.types
  constants : m'.constants = m.constants
  tests : m'.tests = m.tests
  scope : m'.scope = m.scope
  functions : List.Forall₂ KeepsFunction m.functions m'.functions

section Lists

variable {α β : Type} {table : Option (Table String)}

/-- What a step does from states with a table of builtins relates the values before and after a run
over a list, one by one. -/
theorem forall₂_of_yields_mapM {step : α → Lowering β} {related : α → β → Prop}
    (hcomposed : ∀ value, Composed .block (step value))
    (h : ∀ value before result after, builtins? before = table →
      Yields (step value) before result after → related value result) :
    ∀ (values : List α) (before : LoweringState) (results : List β) (after : LoweringState),
      builtins? before = table → Yields (values.mapM step) before results after →
      List.Forall₂ related values results
  | [], _, _, _, _, hrun => by
      obtain ⟨rfl, -⟩ := yields_pure.mp hrun
      exact .nil
  | value :: values, before, results, after, hbefore, hrun => by
      rw [List.mapM_cons] at hrun
      obtain ⟨result, between, hfirst, hrun⟩ := yields_bind.mp hrun
      obtain ⟨others, _, hrest, hpure⟩ := yields_bind.mp hrun
      obtain ⟨rfl, -⟩ := yields_pure.mp hpure
      have hbetween := (builtins?_of_yields (hcomposed value) hfirst).trans hbefore
      exact .cons (h value before result between hbefore hfirst)
        (forall₂_of_yields_mapM hcomposed h values between others _ hbetween hrest)

/-- Values that a step gives back are given back by a run over their list. -/
theorem givesBack_mapM {step : β → Lowering β} {values : List α} {results : List β}
    (hcomposed : ∀ result, Composed .block (step result))
    (h : List.Forall₂ (fun _ => GivesBack table step) values results) :
    GivesBack table (List.mapM step) results := by
  intro state hstate
  induction h generalizing state with
  | nil => exact ⟨state, .pure⟩
  | @cons _ result _ _ hfirst _ ih =>
      obtain ⟨between, hrun⟩ := hfirst state hstate
      have hbetween := (builtins?_of_yields (hcomposed result) hrun).trans hstate
      obtain ⟨after, hrest⟩ := ih between hbetween
      rw [List.mapM_cons]
      exact ⟨after, .bind hrun (.bind hrest .pure)⟩

end Lists

/-- Bring one function of a module to canonical form; one that is no handler is left alone. -/
def step (options : Options) (scope : Scope) (f : FunctionDeclaration) :
    Lowering FunctionDeclaration := do
  if f.isHandler then
    note .debug .transform ("Canonicalizing " ++ DeclaredModule.shownName f.contract ++ "." ++
      DeclaredModule.shownName f.purposeName)
    f.canonicalize options scope
  else return f

/-- A module is brought to canonical form handler by handler. -/
theorem canonicalize_eq (options : Options) (m : DeclaredModule) :
    m.canonicalize options = do
      let functions ← m.functions.mapM (step options m.scope)
      return { m with functions } :=
  rfl

theorem composed_step (options : Options) (scope : Scope) (f : FunctionDeclaration) :
    Composed .block (step options scope f) := by
  unfold step
  split
  · exact (composed_note _ _ _).bind fun _ => f.composed_canonicalize options scope
  · exact .pure _

/-- A handler serves its purpose with the parameters that lead its list. -/
def IsReady (f : FunctionDeclaration) : Prop :=
  ∀ purpose, f.purpose = some purpose → HasLeading purpose f.parameters

section Steps

variable {options : Options} {scope : Scope} {f g : FunctionDeclaration}
  {before after : LoweringState}

/-- So does one step over the functions of a module. -/
theorem keepsFunction_of_yields_step (h : Yields (step options scope f) before g after) :
    KeepsFunction f g := by
  unfold step at h
  split at h
  · rename_i hhandler
    obtain ⟨_, _, -, hrun⟩ := yields_bind.mp h
    exact keepsFunction_of_yields hhandler hrun
  · obtain ⟨rfl, -⟩ := yields_pure.mp h
    exact ⟨fun _ => rfl, rfl, rfl, rfl, rfl, rfl, rfl, rfl⟩

/-- What one step has brought to canonical form, a further step gives back. -/
theorem givesBack_step (hready : IsReady f) (h : Yields (step options scope f) before g after) :
    GivesBack (builtins? before) (step options scope) g := by
  intro state hstate
  have hkept := keepsFunction_of_yields_step h
  unfold step at h ⊢
  by_cases hhandler : f.isHandler = true
  · have hhandler' : g.isHandler = true := by
      rw [FunctionDeclaration.isHandler, hkept.purpose]
      exact hhandler
    obtain ⟨purpose, hpurpose⟩ := Option.isSome_iff_exists.mp hhandler
    rw [if_pos hhandler] at h
    obtain ⟨_, between, hnote, hrun⟩ := yields_bind.mp h
    have hbetween := builtins?_of_yields (composed_note .debug .transform _) hnote
    have hcanonical := givesBack_canonicalize hpurpose (hready purpose hpurpose) hrun
    rw [if_pos hhandler']
    -- The report changes the journal alone, so the table is still that of the first run.
    obtain ⟨after, hagain⟩ := hcanonical
      { state with journal := state.journal.add .debug .transform ("Canonicalizing " ++
          DeclaredModule.shownName g.contract ++ "." ++ DeclaredModule.shownName g.purposeName) }
      (hstate.trans hbetween.symm)
    exact ⟨after, .bind rfl hagain⟩
  · obtain rfl := hkept.plain (by simpa using hhandler)
    rw [if_neg hhandler]
    exact ⟨state, .pure⟩

end Steps

/-! ## Equality

Modules are compared by all that is written of them. A module is the same as itself, so modules that
are equal outright are the same by this comparison.
-/

mutual

/-- Every pattern is the same as itself, by induction on the pattern. -/
theorem same_self : ∀ pattern : ClausePattern, pattern.same pattern = true
  | .wildcard => rfl
  | .literal _ | .variable _ => by simp [ClausePattern.same]
  | .constructor _ args fields => by
      simp [ClausePattern.same, sameAll_self args, sameFields_self fields]
  | .tuple items | .list items => by simp [ClausePattern.same, sameAll_self items]

theorem sameAll_self : ∀ patterns : List ClausePattern,
    ClausePattern.sameAll patterns patterns = true
  | [] => rfl
  | pattern :: rest => by simp [ClausePattern.sameAll, same_self pattern, sameAll_self rest]

theorem sameFields_self : ∀ fields : List FieldPattern,
    ClausePattern.sameFields fields fields = true
  | [] => rfl
  | .mk _ pattern :: rest => by
      simp [ClausePattern.sameFields, same_self pattern, sameFields_self rest]

end

instance : ReflBEq ClausePattern := ⟨fun {pattern} => same_self pattern⟩

deriving instance ReflBEq for WhenClause
deriving instance ReflBEq for WhenExpression
deriving instance ReflBEq for PipeOperation
deriving instance ReflBEq for PipeExpression
deriving instance ReflBEq for ExpectExpression
deriving instance ReflBEq for Records
deriving instance ReflBEq for Import
deriving instance ReflBEq for ConstantDeclaration
deriving instance ReflBEq for TestDeclaration

instance : ReflBEq TypeDeclaration where
  rfl {d} := by
    change (d.name == d.name && d.definition == d.definition &&
      d.typeParameters == d.typeParameters && d.isOpaque == d.isOpaque &&
      d.isPublic == d.isPublic && d.docs == d.docs) = true
    simp

instance : ReflBEq FunctionDeclaration where
  rfl {f} := by
    change (f.name == f.name && f.parameters == f.parameters && f.body == f.body &&
      f.returnType == f.returnType && f.typeParameters == f.typeParameters &&
      f.isPublic == f.isPublic && f.docs == f.docs && f.records == f.records &&
      f.purpose == f.purpose && f.purposeName == f.purposeName && f.contract == f.contract) = true
    simp

instance : ReflBEq DeclaredModule where
  rfl {m} := by
    change (m.name == m.name && m.imports == m.imports && m.types == m.types &&
      m.constants == m.constants && m.functions == m.functions && m.tests == m.tests &&
      m.docs == m.docs) = true
    simp

/-! ## Pipelines -/

section Pipelines

variable {p : Pipeline} {m m' : DeclaredModule}

/-- The table of builtins is the same after the transformation. -/
theorem builtins?_transform (p : Pipeline) (m : DeclaredModule) :
    (p.transform m).2.registry.mappings = p.registry.mappings := by
  let start : LoweringState := { registry := some p.registry, journal := p.journal }
  have hreached := builtins?_reachedState (m.composed_canonicalize p.options) start
  obtain ⟨registry, hregistry, hmappings⟩ := Option.map_eq_some_iff.mp hreached
  have hafter : (p.transform m).2.registry = registry := congrArg (·.getD p.registry) hregistry
  rw [hafter, hmappings]

/-- A transformation that succeeds has changed the functions alone. -/
theorem exists_yields_of_transform (h : (p.transform m).1 = .ok m') :
    ∃ functions after, m' = { m with functions } ∧
      Yields (m.functions.mapM (step p.options m.scope))
        { registry := some p.registry, journal := p.journal } functions after := by
  have hrun : Yields (m.canonicalize p.options)
      { registry := some p.registry, journal := p.journal } m' _ := Prod.ext h rfl
  rw [canonicalize_eq] at hrun
  obtain ⟨functions, between, hfunctions, hpure⟩ := yields_bind.mp hrun
  obtain ⟨rfl, -⟩ := yields_pure.mp hpure
  exact ⟨functions, between, rfl, hfunctions⟩

end Pipelines

/-- Bringing a module to canonical form, if it succeeds, keeps all of it but the parameters, return
types, bodies and records of its handlers. If no handler publishes, and every handler has the
parameters that lead the list of its purpose, doing it again with the same pipeline gives the module
back. -/
theorem transform_idempotent (p : Pipeline) {m m' : DeclaredModule}
    (h : (p.transform m).1 = .ok m') :
    KeepsModule m m' ∧
      ((∀ f ∈ m.functions, IsReady f) →
        ∃ again, ((p.transform m).2.transform m').1 = .ok again ∧ again = m' ∧
          (again == m') = true) := by
  obtain ⟨functions, after, rfl, hrun⟩ := exists_yields_of_transform h
  constructor
  · refine ⟨rfl, rfl, rfl, rfl, rfl, rfl, rfl, ?_⟩
    exact forall₂_of_yields_mapM (composed_step p.options m.scope)
      (fun _ _ _ _ _ hstep => keepsFunction_of_yields_step hstep) m.functions _ _ _ rfl hrun
  · intro hready
    let table := some p.registry.mappings
    -- Every function of the result is given back by a further step.
    have hpairs : List.Forall₂ (fun f g => IsReady f → GivesBack table (step p.options m.scope) g)
        m.functions functions :=
      forall₂_of_yields_mapM (composed_step p.options m.scope)
        (fun _ before _ _ (hbefore : builtins? before = table) hstep hf =>
          hbefore ▸ givesBack_step hf hstep) _ _ _ _ rfl hrun
    have hfixed : List.Forall₂ (fun _ => GivesBack table (step p.options m.scope))
        m.functions functions :=
      ((List.forall₂_and_left _ _).mpr ⟨hready, hpairs⟩).imp fun _ _ h => h.2 h.1
    let next : LoweringState :=
      { registry := some (p.transform m).2.registry, journal := (p.transform m).2.journal }
    have hnext : builtins? next = table := congrArg some (builtins?_transform p m)
    obtain ⟨final, hagain⟩ :=
      givesBack_mapM (composed_step p.options m.scope) hfixed next hnext
    have htransform : Yields (DeclaredModule.canonicalize p.options { m with functions }) next
        { m with functions } final := Yields.bind hagain .pure
    exact ⟨_, congrArg Prod.fst htransform, rfl, beq_self_eq_true _⟩

/-- A handler that spends, whose body names the transaction of its second parameter. -/
def spending : FunctionDeclaration where
  name := "spend"
  parameters := [⟨"datum", some "Owner"⟩, ⟨"redeemer", none⟩]
  purpose := some .spend
  source := some
    { line := 3
      header := ⟨"spend", false,
        .mk [] [.mk "self" none none, .mk "datum" (some (.name "Owner")) none,
        .mk "redeemer" none none] none [] none, none, [], 5⟩
      body := [.simple 4 (.assigns [.name "tx"] (.attribute (.name "redeemer") "transaction")),
        .simple 5 (.returns (some (.attribute (.name "tx") "fee")))] }

/-- The same handler with the parameters of its purpose and its body. -/
def spendingCanonical : FunctionDeclaration :=
  { spending with
    parameters := [⟨"datum", some "Option<Owner>"⟩, ⟨"redeemer", some "Data"⟩,
      ⟨"output_reference", some "OutputReference"⟩, ⟨"transaction", some "Transaction"⟩]
    returnType := some "Bool"
    body := "redeemer.transaction.fee" }

theorem transform_idempotent_spending :
    ∃ again, (({} : Pipeline).transform { name := "vault", functions := [spending] }).1 =
        .ok { name := "vault", functions := [spendingCanonical] } ∧
      ((({} : Pipeline).transform { name := "vault", functions := [spending] }).2.transform
        { name := "vault", functions := [spendingCanonical] }).1 = .ok again ∧
      again = { name := "vault", functions := [spendingCanonical] } := by
  have hfirst : (({} : Pipeline).transform { name := "vault", functions := [spending] }).1 =
      .ok { name := "vault", functions := [spendingCanonical] } := by rfl
  have hready : ∀ f ∈ [spending], IsReady f := by
    simp [IsReady, spending, HasLeading]
  obtain ⟨again, hagain, hsame, -⟩ := (transform_idempotent {} hfirst).2 hready
  exact ⟨again, hfirst, hagain, hsame⟩

end AikenForge.Canonical
