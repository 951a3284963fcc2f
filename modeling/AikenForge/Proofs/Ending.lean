/-
# How computations end

A computation that reports, or one that lowers source, ends with a value or with a failure. This
module states of its runs what the values and the failures are like, given that they start from a
state of one kind and leave it a state of that kind, and how that passes from the parts of a
computation to the whole.
-/

import Mathlib.Data.List.Forall2
import AikenForge.Proofs.Run

namespace AikenForge

variable {σ α β : Type}

/-- A result is a failure of one kind or a value of one kind. -/
def Meets (fails : Failure → Prop) (gives : α → Prop) : Except Failure α → Prop
  | .ok value => gives value
  | .error failure => fails failure

/-- From every state of a kind, a computation ends with a failure of one kind or with a value of one
kind, and in a state of the same kind. -/
def Ends (keeps : σ → Prop) (fails : Failure → Prop) (gives : α → Prop)
    (action : ExceptT Failure (StateM σ) α) : Prop :=
  ∀ state : σ, keeps state →
    Meets fails gives (action.run state).1 ∧ keeps (action.run state).2

section Rules

variable {keeps : σ → Prop} {fails : Failure → Prop} {gives gives' : α → Prop} {further : β → Prop}
  {action : ExceptT Failure (StateM σ) α}

/-- Less may be said of what is given. -/
theorem Meets.imp {result : Except Failure α} (h : Meets fails gives result)
    (himp : ∀ value, gives value → gives' value) : Meets fails gives' result := by
  cases result with
  | error failure => exact h
  | ok value => exact himp value h

theorem Meets.map {f : α → β} {result : Except Failure α} (h : Meets fails gives result)
    (hf : ∀ value, gives value → further (f value)) : Meets fails further (result.map f) := by
  cases result with
  | error failure => exact h
  | ok value => exact hf value h

theorem Ends.pure {value : α} (h : gives value) :
    Ends keeps fails gives (Pure.pure value : ExceptT Failure (StateM σ) α) :=
  fun _ hstate => ⟨h, hstate⟩

/-- A failure that is allowed. -/
theorem Ends.throw {failure : Failure} (h : fails failure) :
    Ends keeps fails gives (throw failure : ExceptT Failure (StateM σ) α) :=
  fun _ hstate => ⟨h, hstate⟩

/-- One thing after another: the second may use what is said of the first. -/
theorem Ends.bind {next : α → ExceptT Failure (StateM σ) β} (h : Ends keeps fails gives action)
    (hnext : ∀ value, gives value → Ends keeps fails further (next value)) :
    Ends keeps fails further (action >>= next) := by
  intro state hstate
  obtain ⟨hfirst, hkept⟩ := h state hstate
  change Meets fails further (ExceptT.bindCont next (action.run state).1 (action.run state).2).1 ∧
    keeps (ExceptT.bindCont next (action.run state).1 (action.run state).2).2
  cases hresult : (action.run state).1 with
  | error failure =>
      rw [hresult] at hfirst
      exact ⟨hfirst, hkept⟩
  | ok value =>
      rw [hresult] at hfirst
      exact hnext value hfirst _ hkept

/-- A computation ends well if it does so whatever the state is that it asks for. -/
theorem Ends.get {next : σ → ExceptT Failure (StateM σ) β}
    (h : ∀ state, keeps state → Ends keeps fails further (next state)) :
    Ends keeps fails further (MonadState.get >>= next) :=
  fun state hstate => h state hstate state hstate

/-- Less may be said of what is given. -/
theorem Ends.imp (h : Ends keeps fails gives action) (himp : ∀ value, gives value → gives' value) :
    Ends keeps fails gives' action :=
  fun state hstate => ⟨(h state hstate).1.imp himp, (h state hstate).2⟩

/-- Values that are of two kinds are of both. -/
theorem Ends.and {fails' : Failure → Prop} (h : Ends keeps fails gives action)
    (h' : Ends keeps fails' gives' action) :
    Ends keeps fails (fun value => gives value ∧ gives' value) action := by
  intro state hstate
  obtain ⟨hmeets, hkept⟩ := h state hstate
  obtain ⟨hmeets', -⟩ := h' state hstate
  rcases hresult : action.run state with ⟨failure | value, after⟩
  · rw [hresult] at hmeets hkept
    exact ⟨hmeets, hkept⟩
  · rw [hresult] at hmeets hmeets' hkept
    exact ⟨⟨hmeets, hmeets'⟩, hkept⟩

/-- A value put together afterwards. -/
theorem Ends.map {f : α → β} (h : Ends keeps fails gives action)
    (hf : ∀ value, gives value → further (f value)) : Ends keeps fails further (f <$> action) := by
  rw [map_eq_pure_bind]
  exact h.bind fun value hvalue => .pure (hf value hvalue)

/-- Changing the state, within what is kept. -/
theorem ends_modify {change : σ → σ} {gives : PUnit → Prop} (h : gives ⟨⟩)
    (hchange : ∀ state, keeps state → keeps (change state)) :
    Ends keeps fails gives (modify change : ExceptT Failure (StateM σ) PUnit) :=
  fun state hstate => ⟨h, hchange state hstate⟩

/-- A run over a list relates every value to its result, if each step does. -/
theorem Ends.mapM {step : α → ExceptT Failure (StateM σ) β} {related : α → β → Prop}
    {values : List α} (h : ∀ value ∈ values, Ends keeps fails (related value) (step value)) :
    Ends keeps fails (List.Forall₂ related values) (values.mapM step) := by
  induction values with
  | nil => exact .pure .nil
  | cons value values ih =>
      have hrest := ih fun other hother => h other (List.mem_cons_of_mem _ hother)
      rw [List.mapM_cons]
      exact (h value List.mem_cons_self).bind fun _ hresult =>
        hrest.bind fun _ hresults => .pure (.cons hresult hresults)

theorem exists_of_forall₂ {related : α → β → Prop} {xs : List α} {ys : List β}
    (h : List.Forall₂ related xs ys) {x : α} (hx : x ∈ xs) : ∃ y ∈ ys, related x y := by
  induction h with
  | nil => cases hx
  | cons hfirst _ ih =>
      rcases List.mem_cons.mp hx with rfl | hx
      · exact ⟨_, List.mem_cons_self, hfirst⟩
      · obtain ⟨y, hy, hrelated⟩ := ih hx
        exact ⟨y, List.mem_cons_of_mem _ hy, hrelated⟩

theorem of_forall₂ {p : β → Prop} {xs : List α} {ys : List β}
    (h : List.Forall₂ (fun _ y => p y) xs ys) : ∀ y ∈ ys, p y := by
  induction h with
  | nil => simp
  | cons hfirst _ ih => simpa using ⟨hfirst, ih⟩

theorem eq_map_of_forall₂ {f : α → β} {xs : List α} {ys : List β}
    (h : List.Forall₂ (fun x y => y = f x) xs ys) : ys = xs.map f := by
  induction h with
  | nil => rfl
  | cons heq _ ih => rw [List.map_cons, heq, ih]

/-- Nothing is known about an unknown computation. -/
theorem ends_somehow (action : ExceptT Failure (StateM σ) α) :
    Ends (fun _ => True) (fun _ => True) (fun _ => True) action := by
  intro state _
  refine ⟨?_, trivial⟩
  unfold Meets
  split <;> trivial

/-- What a run gave is what was said of it. -/
theorem Ends.of_ok (h : Ends keeps fails gives action) {state after : σ} (hstate : keeps state)
    {value : α} (hrun : action.run state = (.ok value, after)) : gives value := by
  have hend := (h state hstate).1
  rw [hrun] at hend
  exact hend

/-- A computation that never fails succeeds. -/
theorem Ends.exists_ok (h : Ends keeps (fun _ => False) gives action) (state : σ)
    (hstate : keeps state) : ∃ value after, action.run state = (.ok value, after) := by
  have hend := (h state hstate).1
  rcases hresult : action.run state with ⟨failure | value, after⟩
  · rw [hresult] at hend
    exact hend.elim
  · exact ⟨value, after, rfl⟩

end Rules

/-- A report ends well. -/
theorem Reporting.ends_warn {fails : Failure → Prop} (channel : Channel) (message : String) :
    Ends (fun _ => True) fails (fun _ => True) (Reporting.warn channel message) :=
  ends_modify trivial fun _ _ => trivial

namespace Lowering

variable {fails : Failure → Prop} {gives : α → Prop}

/-- Reports that are made along the way do not touch the state otherwise. -/
theorem ends_ofReporting {keeps : LoweringState → Prop} {action : Reporting α}
    (hkeeps : ∀ state journal, keeps state → keeps { state with journal })
    (h : Ends (fun _ => True) fails gives action) : Ends keeps fails gives (ofReporting action) :=
  fun state hstate => ⟨(h state.journal trivial).1, hkeeps state _ hstate⟩

end Lowering

end AikenForge
