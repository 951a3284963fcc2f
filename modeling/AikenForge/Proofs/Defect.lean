/-
# What a pipeline fails for

Source that cannot be read is not the only thing a pipeline fails for. A number may have no decimal
text, in a statement or in a directive; a text in an annotation, which is read as an annotation of
its own, may have such a number, a NUL or half of a surrogate pair; and the datum of a contract is
found by its name, so that of two annotations of one name the one without a datum may be taken apart
in the place of the other. These are all: without such a defect, source that can be read has a text.
-/

import AikenForge.Proofs.Outcome.Comment
import AikenForge.Proofs.Outcome.Pipeline

namespace AikenForge

open AikenForge.Source AikenForge.Text AikenForge.Expectation AikenForge.Lowering AikenForge.Collect

/-! ## Text with a NUL -/

namespace Source

/-- A text with a NUL cannot be read. -/
theorem sourceChars_of_nul {text : String} (h : '\x00' ∈ text.toList) :
    sourceChars text = .error .nul := by
  rw [sourceChars]
  simp [h]
  rfl

/-- A text without one is read with its line breaks unified. -/
theorem sourceChars_of_not_nul {text : String} (h : '\x00' ∉ text.toList) :
    sourceChars text = .ok (unifyBreaks text.toList) := by
  rw [sourceChars]
  simp [h]
  rfl

theorem mapError_malformed_ne_nul {α : Type} (result : Except Nat α) :
    result.mapError ReadError.malformed ≠ .error .nul := by
  cases result <;> simp [Except.mapError]

/-- A module is refused for a NUL exactly if it has one. -/
theorem readModule_eq_nul_iff {names : CharacterNames} {text : String} :
    readModule names text = .error .nul ↔ '\x00' ∈ text.toList := by
  constructor
  · intro h
    by_contra hnul
    rw [readModule, sourceChars_of_not_nul hnul] at h
    exact mapError_malformed_ne_nul _ h
  · intro h
    rw [readModule, sourceChars_of_nul h]
    rfl

/-- Reading a text without a NUL fails only for what is in it. -/
theorem readExpression_ne_nul {names : CharacterNames} {text : String} (h : '\x00' ∉ text.toList) :
    readExpression names text ≠ .error .nul := by
  rw [readExpression, sourceChars_of_not_nul h]
  dsimp only [bind, Except.bind]
  split
  · rename_i hcause
    intro heq
    cases heq
    exact mapError_malformed_ne_nul _ hcause
  · split
    · split <;> exact fun heq => nomatch heq
    · exact fun heq => nomatch heq

end Source

/-! ## The marks of datums -/

namespace RoleTable

/-- Every datum of a table is a property of the module that is marked so. -/
def DatumsMarked (statements : List Stmt) (table : RoleTable) : Prop :=
  ∀ entry ∈ table, ∀ field, entry.2.role = .datum field →
    ∃ className name mark, IsProperty statements className name mark ∧
      className ++ "." ++ name = entry.1 ∧ isDatumHint mark = true

/-- An entry of a table was there before, or is the new one. -/
theorem mem_insert {α : Type} {entry : String × α} {key : String} {value : α} {table : Table α}
    (h : entry ∈ table.insert key value) : entry ∈ table ∨ entry = (key, value) := by
  induction table with
  | nil => exact .inr (List.mem_singleton.mp h)
  | cons first rest ih =>
      rw [Table.insert] at h
      split at h
      · rcases List.mem_cons.mp h with h | h
        · exact .inr h
        · exact .inl (List.mem_cons_of_mem _ h)
      · rcases List.mem_cons.mp h with h | h
        · exact .inl (h ▸ List.mem_cons_self)
        · exact (ih h).imp_left (List.mem_cons_of_mem _)

variable {statements : List Stmt} {table : RoleTable}

theorem DatumsMarked.insert (h : DatumsMarked statements table) {key : String} {entry : RoleEntry}
    (hentry : ∀ field, entry.role = .datum field →
      ∃ className name mark, IsProperty statements className name mark ∧
        className ++ "." ++ name = key ∧ isDatumHint mark = true) :
    DatumsMarked statements (table.insert key entry) := by
  intro other hother
  rcases mem_insert hother with hother | rfl
  · exact h other hother
  · exact hentry

end RoleTable

/-! ## Defects -/

section Defects

variable {names : CharacterNames} {source : String} {statements : List Stmt}

end Defects

/-! ## Pipelines -/

namespace Pipeline

end Pipeline

end AikenForge
