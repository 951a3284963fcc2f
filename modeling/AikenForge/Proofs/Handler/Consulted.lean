/-
# What the lowering of a function consults

Lowering reads little of its context. Expressions look at the scope and at the options only; of the
directives, statements look at those of their own lines; and the alias roots matter only where a
name is assigned a value. So two contexts that differ in their directives and alias roots alone
lower a function alike, provided they agree on the lines of the function and on the values that its
statements assign to names.

Of the state, a body that is lowered separately consults the table of builtins only.
-/

import AikenForge.Proofs.Expectation.Reached
import AikenForge.Proofs.Frame
import AikenForge.Proofs.History
import AikenForge.Proofs.Relocated

namespace AikenForge

namespace Lowering

open AikenForge.Source
open AikenForge.Expectation (nestedAll)

variable (ctx : Context) (directives : DirectiveTable) (roots : List String)

/-- A context agrees with other directives and roots at a statement: the line of the statement has
the same directives, and a value that the statement assigns to a name is an alias for both or for
neither. -/
structure AgreesAt (statement : Stmt) : Prop where
  onLine : directives.onLine statement.line = ctx.directives.onLine statement.line
  isAlias : ∀ line simple, statement = .simple line simple → ∀ value ∈ simple.namedValue?,
    isTransactionAlias (relocate ctx directives roots) value = isTransactionAlias ctx value

variable {ctx directives roots}

/-- Where two tables agree at a statement they do so kind by kind. -/
theorem AgreesAt.ofKind {statement : Stmt} (h : AgreesAt ctx directives roots statement)
    (kind : DirectiveKind) :
    directives.ofKind statement.line kind = ctx.directives.ofKind statement.line kind :=
  congrArg (List.filter _) h.onLine

/-- Where both contexts agree, whatever is lowered of a statement is lowered alike. -/
theorem AgreesAt.related {statement : Stmt} (h : AgreesAt ctx directives roots statement) :
    RelatedAt (fun {α} (action other : Lowering α) => other = action) ctx
      (relocate ctx directives roots) statement where
  heads e _ := congrFun (lower_relocate ctx directives roots) e
  pipe := pipeLine?_relocate roots (h.ofKind .pipe)
  checks := expectLines_relocate roots (h.ofKind .expect)
  dispatches := whenSubject?_relocate roots (h.ofKind .when)
  subject text _ := congrFun (subjectText_relocate ctx directives roots) text
  isAlias := h.isAlias

/-! ## Functions -/

/-- Leaving out documentation adds no statement. -/
theorem nestedAll_withoutDocumentation_subset (statements : List Stmt) :
    nestedAll (withoutDocumentation statements) ⊆ nestedAll statements := by
  cases statements with
  | nil => exact List.Subset.refl _
  | cons statement rest =>
      rw [withoutDocumentation]
      split
      · intro s hs
        simp [nestedAll, hs]
      · exact List.Subset.refl _

/-- A function is lowered alike with other directives and other alias roots, if both agree on the
lines of its header and at every statement of its body, at any depth. -/
theorem functionText_relocate {f : FunctionSource}
    (hheader : ∀ line ∈ f.header.decorators.map Decorator.line ++ [f.line],
      directives.onLine line = ctx.directives.onLine line)
    (hbody : ∀ statement ∈ nestedAll f.body, AgreesAt ctx directives roots statement) :
    functionText (relocate ctx directives roots) f = functionText ctx f := by
  refine eq_congruence.function (options_relocate ..) (knowsSource_relocate ..) hheader
    (fun d _ _ => ?_) fun statement hmem => ?_
  · rw [expectDirective_relocate]
  · exact (hbody statement (nestedAll_withoutDocumentation_subset f.body hmem)).related

/-! ## States -/

/-- The table of builtins of a state, if it has a registry. -/
def builtins? (state : LoweringState) : Option (Table String) :=
  state.registry.map Registry.mappings

theorem map_mappings_of_continues {before after : Option Registry}
    (h : Option.Rel Frame.Continues before after) :
    after.map Registry.mappings = before.map Registry.mappings := by
  cases h with
  | none => rfl
  | some hcontinues => exact congrArg some hcontinues.mappings

/-- Every run keeps the table of builtins. -/
theorem builtins?_reachedState {α : Type} {extent : Extent} {action : Lowering α}
    (h : Composed extent action) (state : LoweringState) :
    builtins? (Frame.reachedState action state) = builtins? state :=
  map_mappings_of_continues (Frame.grows_reachedState h state).registry

/-- A run leaves the names that the table of builtins maps. -/
theorem builtins?_of_yields {α : Type} {action : Lowering α} (h : Composed .block action)
    {before after : LoweringState} {value : α} (hrun : Yields action before value after) :
    builtins? after = builtins? before := by
  have hreached : Frame.reachedState action before = after := congrArg Prod.snd hrun
  rw [← hreached, builtins?_reachedState h before]

/-- What a separate run gives depends on the table of builtins only. -/
theorem separately_congr {α : Type} {extent : Extent} {action : Lowering α}
    (h : Composed extent action) {first second : LoweringState}
    (hsame : builtins? first = builtins? second) :
    (outcome (separately action) first).1 = (outcome (separately action) second).1 := by
  let cleared (state : LoweringState) : LoweringState := { state with aliases := [], records := {} }
  obtain ⟨result, after, targets, -, hrun⟩ := History.regardless_of_composed h (cleared first)
  -- Cleared states with one table differ in their uses and their journals alone.
  have hcleared (state : LoweringState) (hstate : builtins? first = builtins? state) :
      ∃ used, cleared state = History.having used state.journal (cleared first) := by
    obtain ⟨aliases, records, registry, journal⟩ := state
    obtain ⟨aliases', records', registry', journal'⟩ := first
    cases registry <;> cases registry' <;> simp [builtins?] at hstate
    · exact ⟨[], rfl⟩
    · rename_i registry registry'
      exact ⟨registry.used, by simp [cleared, History.having, hstate]⟩
  have hresult (state : LoweringState) (hstate : builtins? first = builtins? state) :
      (outcome (separately action) state).1 = result.map fun value => (value, after.records) := by
    obtain ⟨used, hused⟩ := hcleared state hstate
    obtain ⟨journal', hinside⟩ := hrun used state.journal
    rw [← hused] at hinside
    exact congrArg (fun reached => reached.1.map fun value => (value, reached.2.records)) hinside
  rw [hresult first rfl, hresult second hsame]

end Lowering

end AikenForge
