/-
# The convention as a fixed point

Bringing a parameter list to the convention of its purpose types parameters at the head of the list
and adds, at its end, the trailing parameters for the places that it does not reach. A list without
its leading parameters is too short for that: the parameters added in the first round take the
places of the leading ones, and a second round adds more. Two rounds always suffice.
-/

import AikenForge.Proofs.Handler.Idempotent

namespace AikenForge.Convention

open ParameterDeclaration Purpose Canonical

/-! ## What is added -/

/-- How many parameters lead the list of a purpose. Without trailing parameters none have to. -/
def leadingCount : Purpose → Nat
  | .spend => 2
  | .mint | .withdraw => 1
  | .publish | .vote | .propose | .other => 0

/-- The trailing parameters of a purpose for the places that a list of some length does not
reach. -/
def missing (purpose : Purpose) (length : Nat) : List ParameterDeclaration :=
  ((purpose.trailing?.map Prod.snd).getD []).drop (length - leadingCount purpose)

/-- Each trailing parameter is added if and only if the list does not reach its place. -/
theorem addTrailing_eq_append (position : Nat) (parameters trailing : List ParameterDeclaration) :
    addTrailing position parameters trailing =
      parameters ++ trailing.drop (parameters.length - position) := by
  induction trailing generalizing position parameters with
  | nil => simp [addTrailing]
  | cons p rest ih =>
      rw [addTrailing]
      split
      · rename_i hreached
        have hnone : parameters.length - position = 0 := by omega
        have hnext : (parameters ++ [p]).length - (position + 1) = 0 := by
          rw [List.length_append, List.length_singleton]
          omega
        rw [ih, hnext, hnone]
        simp
      · have hskip : parameters.length - position = parameters.length - (position + 1) + 1 := by
          omega
        rw [ih, hskip, List.drop_succ_cons]

/-- The canonical parameters are the list with its head typed, and what it misses. -/
theorem canonicalParameters_eq {purpose : Purpose} (h : purpose ≠ .publish)
    (parameters : List ParameterDeclaration) :
    purpose.canonicalParameters parameters =
      purpose.typeLeading parameters ++ missing purpose parameters.length := by
  cases purpose <;>
    simp_all [canonicalParameters, trailing?, missing, leadingCount, addTrailing_eq_append]

/-- As many parameters are missing as the list is too short by. -/
theorem length_missing (purpose : Purpose) (length : Nat) :
    (missing purpose length).length =
      ((purpose.trailing?.map Prod.snd).getD []).length - (length - leadingCount purpose) :=
  List.length_drop

/-- There are always enough trailing parameters to fill the places of the leading ones. -/
theorem leadingCount_le_length_trailing (purpose : Purpose) :
    leadingCount purpose ≤ ((purpose.trailing?.map Prod.snd).getD []).length := by
  cases purpose <;> decide

/-- Every list has its leading parameters after one round. -/
theorem leadingCount_le_length_canonicalParameters {purpose : Purpose} (h : purpose ≠ .publish)
    (parameters : List ParameterDeclaration) :
    leadingCount purpose ≤ (purpose.canonicalParameters parameters).length := by
  have htrailing := leadingCount_le_length_trailing purpose
  rw [canonicalParameters_eq h, List.length_append, length_typeLeading, length_missing]
  omega

/-- A list that is long enough has the leading parameters of its purpose. -/
theorem hasLeading_of_le {purpose : Purpose} (h : purpose ≠ .publish)
    {parameters : List ParameterDeclaration} (hle : leadingCount purpose ≤ parameters.length) :
    HasLeading purpose parameters := by
  cases purpose <;> simp_all [HasLeading, leadingCount]

/-! ## What is typed -/

/-- The parameters whose type the convention of a purpose may change, by their place and name. -/
def MayRetype (purpose : Purpose) (place : Nat) (name : String) : Prop :=
  match purpose, place with
  | .mint, 0 | .withdraw, 0 => name = "redeemer"
  | .mint, _ | .withdraw, _ => False
  | _, 0 => name = "datum"
  | _, 1 => name = "redeemer"
  | _, _ => False

/-- A parameter keeps its name, and its type unless this may change. -/
def Keeps (mayRetype : Prop) (p q : ParameterDeclaration) : Prop :=
  q.name = p.name ∧ (q.type = p.type ∨ mayRetype)

theorem keeps_self (mayRetype : Prop) (p : ParameterDeclaration) : Keeps mayRetype p p :=
  ⟨rfl, .inl rfl⟩

/-- Wrapping a datum changes its type alone. -/
theorem keeps_wrapDatum (p : ParameterDeclaration) : Keeps (p.name = "datum") p p.wrapDatum := by
  refine ⟨name_wrapDatum p, ?_⟩
  by_cases hname : p.name = "datum"
  · exact .inr hname
  · exact .inl (by simp [wrapDatum, hname])

/-- Typing a redeemer changes its type alone. -/
theorem keeps_typeRedeemer (p : ParameterDeclaration) :
    Keeps (p.name = "redeemer") p p.typeRedeemer := by
  refine ⟨name_typeRedeemer p, ?_⟩
  by_cases hname : p.name = "redeemer"
  · exact .inr hname
  · exact .inl (by simp [typeRedeemer, hname])

/-- Typing the head of a list keeps every parameter in its place. -/
theorem exists_typeLeading_getElem? {purpose : Purpose} {parameters : List ParameterDeclaration}
    {place : Nat} {p : ParameterDeclaration} (h : parameters[place]? = some p) :
    ∃ q, (purpose.typeLeading parameters)[place]? = some q ∧
      Keeps (MayRetype purpose place p.name) p q := by
  match parameters, place with
  | [], _ => simp at h
  | [first], 0 =>
      obtain rfl : first = p := by simpa using h
      cases purpose with
      | mint | withdraw => exact ⟨_, rfl, keeps_typeRedeemer first⟩
      | _ => exact ⟨_, rfl, keeps_wrapDatum first⟩
  | [_], _ + 1 => simp at h
  | first :: _ :: _, 0 =>
      obtain rfl : first = p := by simpa using h
      cases purpose with
      | mint | withdraw => exact ⟨_, rfl, keeps_typeRedeemer first⟩
      | _ => exact ⟨_, rfl, keeps_wrapDatum first⟩
  | _ :: second :: _, 1 =>
      obtain rfl : second = p := by simpa using h
      cases purpose with
      | mint | withdraw => exact ⟨second, rfl, keeps_self _ second⟩
      | _ => exact ⟨_, rfl, keeps_typeRedeemer second⟩
  | _ :: _ :: rest, place + 2 =>
      have hrest : rest[place]? = some p := by simpa using h
      cases purpose <;> exact ⟨p, by simpa [typeLeading] using hrest, keeps_self _ p⟩

/-- A list begins with another one, whose parameters it keeps in their places, and goes on with the
trailing parameters that the other one misses. -/
structure Completes (purpose : Purpose) (parameters result : List ParameterDeclaration) : Prop where
  kept : ∀ place p, parameters[place]? = some p →
    ∃ q, result[place]? = some q ∧ Keeps (MayRetype purpose place p.name) p q
  added : result.drop parameters.length = missing purpose parameters.length

/-- The canonical parameters complete those that were given. -/
theorem completes_canonicalParameters {purpose : Purpose} (h : purpose ≠ .publish)
    (parameters : List ParameterDeclaration) :
    Completes purpose parameters (purpose.canonicalParameters parameters) := by
  rw [canonicalParameters_eq h]
  constructor
  · intro place p hp
    obtain ⟨q, hq, hkeeps⟩ := exists_typeLeading_getElem? hp
    have hplace := (List.getElem?_eq_some_iff.mp hq).1
    exact ⟨q, (List.getElem?_append_left hplace).trans hq, hkeeps⟩
  · exact List.drop_left' (length_typeLeading purpose parameters)

/-! ## Rounds -/

/-- A list without its leading parameters grows in the second round. -/
theorem length_canonicalParameters_lt {purpose : Purpose} (h : purpose ≠ .publish)
    {parameters : List ParameterDeclaration} (hshort : parameters.length < leadingCount purpose) :
    (purpose.canonicalParameters parameters).length <
      (purpose.canonicalParameters (purpose.canonicalParameters parameters)).length := by
  have htrailing := leadingCount_le_length_trailing purpose
  rw [canonicalParameters_eq h (purpose.canonicalParameters parameters), List.length_append,
    length_typeLeading, length_missing, canonicalParameters_eq h parameters, List.length_append,
    length_typeLeading, length_missing]
  omega

/-- Publishing takes no parameters. For any other purpose the canonical parameters are those of the
list, in order and with their names, and the trailing parameters that the list misses; only a datum
or a redeemer in its place may have another type. A second round changes nothing if and only if the
purpose prescribes no trailing parameters or the list has the leading ones, and a third never
does. -/
theorem canonicalParameters_settle (purpose : Purpose) (parameters : List ParameterDeclaration) :
    let canonical := purpose.canonicalParameters
    (if purpose = .publish then canonical parameters = []
      else Completes purpose parameters (canonical parameters)) ∧
    (canonical (canonical parameters) = canonical parameters ↔
      purpose.trailing? = none ∨ leadingCount purpose ≤ parameters.length) ∧
    canonical (canonical (canonical parameters)) = canonical (canonical parameters) := by
  intro canonical
  by_cases hpublish : purpose = .publish
  · have hnone (list : List ParameterDeclaration) : canonical list = [] := if_pos hpublish
    rw [if_pos hpublish]
    refine ⟨hnone _, ?_, (hnone _).trans (hnone _).symm⟩
    simp [hnone, hpublish, trailing?]
  have hagain {list : List ParameterDeclaration} (h : leadingCount purpose ≤ list.length) :
      canonical (canonical list) = canonical list :=
    canonicalParameters_idem (hasLeading_of_le hpublish h)
  rw [if_neg hpublish]
  refine ⟨completes_canonicalParameters hpublish parameters, ⟨fun hfixed => ?_, ?_⟩, ?_⟩
  · by_contra hneither
    have hshort := Nat.not_le.mp (not_or.mp hneither).2
    have hgrows := length_canonicalParameters_lt hpublish hshort
    exact absurd (congrArg List.length hfixed) (Nat.ne_of_gt hgrows)
  · rintro (hnone | hleading)
    · refine hagain ?_
      cases purpose <;> simp_all [trailing?, leadingCount]
    · exact hagain hleading
  · exact hagain (leadingCount_le_length_canonicalParameters hpublish parameters)

/-- A datum alone is too short a list to spend: the second round adds the transaction once more. -/
example :
    canonicalParameters .spend (canonicalParameters .spend [⟨"datum", some "Pool"⟩]) =
      canonicalParameters .spend [⟨"datum", some "Pool"⟩] ++
        [⟨"transaction", some "Transaction"⟩] := by
  decide

end AikenForge.Convention
