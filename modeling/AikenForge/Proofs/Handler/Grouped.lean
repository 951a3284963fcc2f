/-
# Handlers by contract

Putting handlers with the others of their contract, one after the other, parts them by contract: the
contracts stand in the order of their first handlers, each has its handlers in their own order, and
every handler is with one contract.
-/

import Mathlib.Data.List.Induction
import Mathlib.Data.List.Nodup
import AikenForge.Declaration.Function

namespace AikenForge

/-! ## Tables with computed values -/

namespace Table

variable {α : Type}

/-- The table of keys with their values. -/
def tabulate (keys : List String) (value : String → α) : Table α :=
  keys.map fun key => (key, value key)

theorem find?_tabulate (keys : List String) (value : String → α) (key : String) :
    (tabulate keys value).find? key = if key ∈ keys then some (value key) else none := by
  induction keys with
  | nil => rfl
  | cons k rest ih =>
      rw [tabulate, List.map_cons, find?_cons]
      by_cases hk : key = k
      · simp [hk]
      · rw [if_neg hk, ← tabulate, ih]
        simp [hk]

/-- A value put into such a table changes that of its key, or comes last with a new key. -/
theorem insert_tabulate {keys : List String} (hnodup : keys.Nodup) {value other : String → α}
    {key : String} (h : ∀ k ∈ keys, k ≠ key → other k = value k) :
    (tabulate keys value).insert key (other key) =
      tabulate (if key ∈ keys then keys else keys ++ [key]) other := by
  induction keys with
  | nil => rfl
  | cons k rest ih =>
      obtain ⟨hnotMem, hrest⟩ := List.nodup_cons.mp hnodup
      have hvalues (k' : String) (hmem : k' ∈ rest) (hne : k' ≠ key) : other k' = value k' :=
        h k' (List.mem_cons_of_mem k hmem) hne
      by_cases hk : k = key
      · subst hk
        have hsame : tabulate rest value = tabulate rest other := by
          refine List.map_congr_left fun k' hmem => ?_
          rw [hvalues k' hmem fun heq => hnotMem (heq ▸ hmem)]
        rw [if_pos List.mem_cons_self]
        simp only [tabulate, List.map_cons, insert, beq_self_eq_true, if_true] at hsame ⊢
        rw [hsame]
      · have hkey : (k == key) = false := by simpa using hk
        have hput := ih hrest hvalues
        have hfirst := h k List.mem_cons_self hk
        simp only [tabulate, List.map_cons, insert, hkey, Bool.false_eq_true, if_false,
          List.mem_cons, Ne.symm hk, false_or] at hput ⊢
        rw [hput, ← hfirst]
        split <;> rfl

end Table

/-! ## First occurrences -/

/-- A further key is added if it is new. -/
theorem eraseDups_concat (keys : List String) (key : String) :
    (keys ++ [key]).eraseDups =
      if key ∈ keys.eraseDups then keys.eraseDups else keys.eraseDups ++ [key] := by
  rw [List.eraseDups_append]
  by_cases h : key ∈ keys <;> simp [List.removeAll, h, List.eraseDups_cons]

theorem nodup_eraseDups (keys : List String) : keys.eraseDups.Nodup := by
  induction keys using List.reverseRecOn with
  | nil => exact List.nodup_nil
  | append_singleton keys key ih =>
      rw [eraseDups_concat]
      split
      · exact ih
      · rename_i hnew
        exact ih.append (List.nodup_singleton key) (List.disjoint_singleton.mpr hnew)

/-- The values with one of some keys, key after key, are those values in another order. -/
theorem perm_flatMap_filter {α : Type} (keyOf : α → String) (values : List α) {keys : List String}
    (hnodup : keys.Nodup) :
    (keys.flatMap fun key => values.filter fun value => keyOf value == key).Perm
      (values.filter fun value => keys.contains (keyOf value)) := by
  induction keys with
  | nil => simp
  | cons key rest ih =>
      obtain ⟨hnotMem, hrest⟩ := List.nodup_cons.mp hnodup
      have hparts := List.filter_append_perm (fun value => keyOf value == key)
        (values.filter fun value => (key :: rest).contains (keyOf value))
      have hfirst : (values.filter fun value => (key :: rest).contains (keyOf value)).filter
          (fun value => keyOf value == key) = values.filter fun value => keyOf value == key := by
        rw [List.filter_filter]
        refine List.filter_congr fun value _ => ?_
        by_cases hkey : keyOf value = key
        · simp [hkey]
        · simp [hkey]
      have hothers : (values.filter fun value => (key :: rest).contains (keyOf value)).filter
          (fun value => !(keyOf value == key)) =
            values.filter fun value => rest.contains (keyOf value) := by
        rw [List.filter_filter]
        refine List.filter_congr fun value _ => ?_
        by_cases hkey : keyOf value = key
        · simp [hkey, hnotMem]
        · simp [hkey]
      rw [hfirst, hothers] at hparts
      rw [List.flatMap_cons]
      exact ((ih hrest).append_left _).trans hparts

namespace FunctionDeclaration

/-- The handlers of a contract. -/
def members (handlers : List FunctionDeclaration) (contract : String) : List FunctionDeclaration :=
  handlers.filter fun f => f.contractName == contract

/-- Handlers by their contracts, each contract in the place of its first handler. -/
def groups (handlers : List FunctionDeclaration) : Table (List FunctionDeclaration) :=
  .tabulate (handlers.map contractName).eraseDups (members handlers)

/-- A further handler goes to the end of its contract. -/
theorem members_concat (handlers : List FunctionDeclaration) (f : FunctionDeclaration)
    (contract : String) :
    members (handlers ++ [f]) contract =
      members handlers contract ++ if f.contractName = contract then [f] else [] := by
  rw [members, List.filter_append]
  by_cases h : f.contractName = contract <;> simp [members, h]

/-- A contract without handlers has no group, and a group is that of its contract. -/
theorem find?_groups (handlers : List FunctionDeclaration) (contract : String) :
    ((groups handlers).find? contract).getD [] = members handlers contract := by
  rw [groups, Table.find?_tabulate]
  split
  · rfl
  · rename_i hnew
    refine (List.filter_eq_nil_iff.mpr fun f hf heq => hnew ?_).symm
    exact List.mem_eraseDups.mpr (List.mem_map.mpr ⟨f, hf, eq_of_beq heq⟩)

/-- One more handler joins its group, or opens one. -/
theorem addHandler_groups (handlers : List FunctionDeclaration) (f : FunctionDeclaration) :
    addHandler (groups handlers) f = groups (handlers ++ [f]) := by
  have hmembers : members handlers f.contractName ++ [f] =
      members (handlers ++ [f]) f.contractName := by
    rw [members_concat, if_pos rfl]
  rw [addHandler, find?_groups, hmembers, groups, groups, List.map_append, List.map_singleton,
    eraseDups_concat]
  refine Table.insert_tabulate (nodup_eraseDups _) fun contract _ hne => ?_
  rw [members_concat, if_neg hne.symm, List.append_nil]

/-- Handlers put in one after the other are grouped. -/
theorem foldl_addHandler (handlers : List FunctionDeclaration) :
    handlers.foldl addHandler [] = groups handlers := by
  induction handlers using List.reverseRecOn with
  | nil => rfl
  | append_singleton handlers f ih =>
      rw [List.foldl_append, ih, List.foldl_cons, List.foldl_nil, addHandler_groups]

/-- No handler is lost and none is in two groups. -/
theorem perm_groups (handlers : List FunctionDeclaration) :
    ((groups handlers).flatMap Prod.snd).Perm handlers := by
  have hparts := perm_flatMap_filter contractName handlers
    (nodup_eraseDups (handlers.map contractName))
  have hall : (handlers.filter fun f =>
    (handlers.map contractName).eraseDups.contains f.contractName) =
      handlers := by
    rw [List.filter_eq_self]
    intro f hf
    simpa using ⟨f, hf, rfl⟩
  rw [hall] at hparts
  rwa [groups, Table.tabulate, List.flatMap_map]

/-- A text is the block of a contract: the name of the contract and, in braces, the texts of its
handlers in order. -/
def IsBlock (options : Options) (group : String × List FunctionDeclaration)
    (text : String) : Prop :=
  ∃ texts, List.Forall₂ (fun f text => f.renderHandler options = .ok text) group.2 texts ∧
    text = bracedBlock options.indent ("validator " ++ group.1) ("\n\n".intercalate texts)

end FunctionDeclaration

end AikenForge
