/-
# Harmless uses of local names

Lowering knows of no local names, so a use of one is written as the name only as far as the module
declares nothing else under it. A scope in which names are taken as local is what a use is measured
against: there they are functions that hide the builtins, and neither constants nor enumerations.

If every use of the local names in an expression is harmless, the expression is lowered as in the
scope that takes them as local.
-/

import AikenForge.Proofs.Steady

namespace AikenForge

/-- The scope in which names stand for nothing that the module declares, and hide the builtins. -/
def Scope.withLocals (names : List String) (scope : Scope) : Scope where
  knownFunctions := names ++ scope.knownFunctions
  constants := scope.constants.filter fun name => !names.contains name
  enums := names.foldl Table.erase scope.enums

/-- A context with a scope in which names are local. -/
def Context.withLocals (names : List String) (ctx : Context) : Context :=
  { ctx with scope := ctx.scope.withLocals names }

namespace Locals

open AikenForge.Source AikenForge.Lowering

variable (ctx : Context)

/-! ## What names are written as -/

/-- What a called name without an alias is written as. -/
def called (builtins : Option (Table String)) (id : String) : String :=
  if ctx.scope.knownFunctions.contains id then plainName ctx id
  else (builtins.bind fun table => table.find? id).getD (plainName ctx id)

variable (builtins : Option (Table String))

/-- A use writes the name that is used. The receiver `self` is not written. -/
def Use.Harmless : Use → Prop
  | .load id => plainName ctx id = id
  | .call id hasArguments =>
    called ctx builtins id = id ∧
      (hasArguments = true → ctx.scope.knownFunctions.contains id = false →
        id ≠ "pipe" ∧ id ≠ "expect")
  | .field id label => enumMember? ctx (.name id) label = none ∧ plainName ctx id = id

instance : (use : Use) → Decidable (use.Harmless ctx builtins)
  | .load id => inferInstanceAs (Decidable (plainName ctx id = id))
  | .call id hasArguments => inferInstanceAs (Decidable (called ctx builtins id = id ∧
      (hasArguments = true → ctx.scope.knownFunctions.contains id = false →
        id ≠ "pipe" ∧ id ≠ "expect")))
  | .field id label =>
    inferInstanceAs (Decidable (enumMember? ctx (.name id) label = none ∧ plainName ctx id = id))

/-- All uses of some names are harmless. -/
def Clear (names : List String) (found : List Use) : Prop :=
  ∀ use ∈ found, use.name ∈ names → use.Harmless ctx builtins

variable {ctx builtins} {names : List String} {extent : Extent}

@[simp]
theorem clear_nil : Clear ctx builtins names [] := by
  simp [Clear]

/-- Uses are clear one by one. -/
@[simp]
theorem clear_append {first rest : List Use} :
    Clear ctx builtins names (first ++ rest) ↔
      Clear ctx builtins names first ∧ Clear ctx builtins names rest :=
  List.forall_mem_append

theorem clear_singleton {use : Use} :
    Clear ctx builtins names [use] ↔ (use.name ∈ names → use.Harmless ctx builtins) := by
  simp [Clear]

/-! ## Names in a scope with locals -/

/-- A local name counts as a function that is known. -/
theorem contains_knownFunctions_withLocals (id : String) :
    (ctx.withLocals names).scope.knownFunctions.contains id =
      (names.contains id || ctx.scope.knownFunctions.contains id) := by
  simp [Context.withLocals, Scope.withLocals]

/-- A local name is written as it is. -/
theorem plainName_withLocals (id : String) :
    plainName (ctx.withLocals names) id = if id ∈ names then id else plainName ctx id := by
  unfold plainName
  by_cases h : id ∈ names
  · simp [h, Context.withLocals, Scope.withLocals]
  · simp [h, Context.withLocals, Scope.withLocals]

/-- A local name is called as it is. -/
theorem called_withLocals (id : String) :
    called (ctx.withLocals names) builtins id = if id ∈ names then id
      else called ctx builtins id := by
  unfold called
  rw [contains_knownFunctions_withLocals, plainName_withLocals]
  by_cases h : id ∈ names <;> simp [h]

/-- A name whose spelling is harmless is written alike with and without locals. -/
theorem plainName_eq {id : String} (h : id ∈ names → plainName ctx id = id) :
    plainName ctx id = plainName (ctx.withLocals names) id := by
  rw [plainName_withLocals]
  split
  · rename_i hmem
    exact h hmem
  · rfl

/-- A name that is called harmlessly is called alike with and without locals. -/
theorem called_eq {id : String} (h : id ∈ names → called ctx builtins id = id) :
    called ctx builtins id = called (ctx.withLocals names) builtins id := by
  rw [called_withLocals]
  split
  · rename_i hmem
    exact h hmem
  · rfl

/-- A local name is no enumeration. -/
theorem enumMember?_of_mem {id : String} (h : id ∈ names) (label : String) :
    enumMember? (ctx.withLocals names) (.name id) label = none := by
  have hfind : (ctx.withLocals names).scope.enums.find? id = none :=
    (Table.find?_foldl_erase names ctx.scope.enums id).trans (if_pos h)
  simp [enumMember?, Expr.name?, hfind]

theorem enumMember?_eq {id label : String}
    (h : id ∈ names → enumMember? ctx (.name id) label = none) :
    enumMember? ctx (.name id) label = enumMember? (ctx.withLocals names) (.name id) label := by
  by_cases hmem : id ∈ names
  · rw [h hmem, enumMember?_of_mem hmem]
  · have hfind : (ctx.withLocals names).scope.enums.find? id = ctx.scope.enums.find? id :=
      (Table.find?_foldl_erase names ctx.scope.enums id).trans (if_neg hmem)
    simp only [enumMember?, Expr.name?, Option.bind_some, hfind]

/-- A local name is neither a pipe nor an expectation. -/
theorem specialCall?_of_mem {id : String} (h : id ∈ names) (args : List Expr) :
    specialCall? (ctx.withLocals names) (.name id) args = none := by
  unfold specialCall?
  rw [Expr.name?]
  dsimp only
  rw [contains_knownFunctions_withLocals]
  simp [h]

theorem specialCall?_eq {id : String} {args : List Expr}
    (h : id ∈ names → (!args.isEmpty) = true →
      ctx.scope.knownFunctions.contains id = false → id ≠ "pipe" ∧ id ≠ "expect") :
    specialCall? ctx (.name id) args = specialCall? (ctx.withLocals names) (.name id) args := by
  by_cases hmem : id ∈ names
  · rw [specialCall?_of_mem hmem]
    unfold specialCall?
    rw [Expr.name?]
    dsimp only
    cases args with
    | nil => rfl
    | cons first rest =>
        cases hknown : ctx.scope.knownFunctions.contains id with
        | true => rfl
        | false => simp [h hmem rfl hknown]
  · unfold specialCall?
    rw [Expr.name?]
    dsimp only
    rw [contains_knownFunctions_withLocals]
    simp [hmem]

/-! ## Single uses -/

theorem nameText_eq {id : String} (h : id ∈ names → plainName ctx id = id) :
    nameText ctx id = nameText (ctx.withLocals names) id := by
  have hrun (state : LoweringState) :
      outcome (nameText ctx id) state = outcome (nameText (ctx.withLocals names) id) state := by
    rw [outcome_nameText, outcome_nameText, plainName_eq h]
  exact funext hrun

/-- A name is a builtin if it is no function and no alias, and the table has it. -/
theorem foundTarget?_name (id : String) (state : LoweringState) :
    foundTarget? ctx state (.name id) =
      if ctx.scope.knownFunctions.contains id || state.aliases.contains id then none
      else (state.registry.map Registry.mappings).bind fun table => table.find? id := by
  unfold foundTarget?
  rw [Expr.name?]
  cases state.registry <;> simp

/-- A called name is written as what it is called; what it is an alias for comes first. -/
theorem outcome_calleeText (ctx : Context) (id : String) (state : LoweringState) :
    ∃ registry, outcome (calleeText ctx (.name id) (lower ctx (.name id))) state =
      (.ok ((state.aliases.find? id).getD
        (called ctx (state.registry.map Registry.mappings) id)), { state with registry }) ∧
      registry.map Registry.mappings = state.registry.map Registry.mappings := by
  refine ⟨_, ?_, mappings_useTarget (foundTarget? ctx state (.name id)) state.registry⟩
  have hrun : outcome (calleeText ctx (.name id) (lower ctx (.name id))) state =
      (.ok ((foundTarget? ctx state (.name id)).getD
        ((state.aliases.find? id).getD (plainName ctx id))),
        { state with
          registry := state.registry.map (useTarget (foundTarget? ctx state (.name id))) }) := by
    unfold calleeText
    rw [outcome_bind, outcome_builtinTarget?]
    cases foundTarget? ctx state (.name id) with
    | some target => rfl
    | none =>
        dsimp only
        rw [outcome_bind, lower, outcome_nameText]
        rfl
  have htext : (foundTarget? ctx state (.name id)).getD
      ((state.aliases.find? id).getD (plainName ctx id)) =
        (state.aliases.find? id).getD (called ctx (state.registry.map Registry.mappings) id) := by
    rw [foundTarget?_name]
    unfold called Table.contains
    cases ctx.scope.knownFunctions.contains id <;> cases state.aliases.find? id <;> simp
  rw [hrun, htext]

/-- A callee is written alike where its use is harmless. -/
theorem agrees_calleeText_name {id : String} (h : id ∈ names → called ctx builtins id = id) :
    Agrees builtins (calleeText ctx (.name id) (lower ctx (.name id)))
      (calleeText (ctx.withLocals names) (.name id) (lower (ctx.withLocals names) (.name id))) := by
  intro s t hst hbuiltins
  obtain ⟨registry, hs, hregistry⟩ := outcome_calleeText ctx id s
  obtain ⟨other, ht, hother⟩ := outcome_calleeText (ctx.withLocals names) id t
  have htext : (t.aliases.find? id).getD
      (called (ctx.withLocals names) (t.registry.map Registry.mappings) id) =
        (s.aliases.find? id).getD (called ctx (s.registry.map Registry.mappings) id) := by
    rw [hst.aliases, ← hst.mappings, hbuiltins, called_eq h]
  rw [htext] at ht
  refine ⟨_, {}, _, _, hs, ht, ⟨hst.aliases, ?_⟩, hregistry.trans hbuiltins, by simp, by simp⟩
  exact hregistry.trans (hst.mappings.trans hother.symm)

/-- A field of a name is written the same, if the name has no members and is written the same. -/
theorem lower_field_eq {id label : String}
    (h : id ∈ names → enumMember? ctx (.name id) label = none ∧ plainName ctx id = id) :
    lower ctx (.attribute (.name id) label) =
      lower (ctx.withLocals names) (.attribute (.name id) label) := by
  have hmember := enumMember?_eq fun hmem => (h hmem).1
  have hname := nameText_eq fun hmem => (h hmem).2
  simp only [lower, ← hmember, ← hname]

/-- Uses that are harmless are written the same where the names are local. -/
theorem Clear.usesRelated {found : List Use} (h : Clear ctx builtins names found) :
    UsesRelated (Agrees builtins) ctx (ctx.withLocals names) found := by
  intro use huse
  cases use with
  | load id =>
      have hname : nameText ctx id = nameText (ctx.withLocals names) id := nameText_eq (h _ huse)
      change Agrees builtins (nameText ctx id) (nameText (ctx.withLocals names) id)
      rw [← hname]
      exact (composed_nameText ctx id).agrees
  | call id hasArguments =>
      refine ⟨agrees_calleeText_name fun hmem => (h _ huse hmem).1, fun args hargs => ?_⟩
      exact (specialCall?_eq fun hmem hsome => (h _ huse hmem).2 (hargs.symm.trans hsome)).symm
  | field id label =>
      have hfield : id ∈ names → enumMember? ctx (.name id) label = none ∧ plainName ctx id = id :=
        h _ huse
      change Agrees builtins (lower ctx _) (lower (ctx.withLocals names) _)
      rw [← lower_field_eq hfield]
      exact (composed_field ctx id label).agrees

/-! ## Expressions -/

theorem options_withLocals : (ctx.withLocals names).options = ctx.options :=
  rfl

/-- An expression in which all uses of the names are harmless is lowered as where they are local. -/
theorem agrees_lower (e : Expr) (h : Clear ctx builtins names (uses ctx e)) :
    Agrees builtins (lower ctx e) (lower (ctx.withLocals names) e) :=
  agrees_congruence.expression options_withLocals e h.usesRelated

theorem agrees_lowerAll (items : List Expr) (h : Clear ctx builtins names (usesAll ctx items)) :
    Agrees builtins (lowerAll ctx items) (lowerAll (ctx.withLocals names) items) :=
  agrees_congruence.all options_withLocals items h.usesRelated

theorem agrees_lowerPipe (args : List Expr) (h : Clear ctx builtins names (usesPipe ctx args)) :
    Agrees builtins (lowerPipe ctx args) (lowerPipe (ctx.withLocals names) args) :=
  agrees_congruence.pipeArguments options_withLocals args h.usesRelated

end Locals

end AikenForge
