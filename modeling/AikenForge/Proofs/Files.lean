/-
# Files read back

Where a path leads depends on the directories on the way alone. So writing a file does not change
where its own path leads: reading it gives back what was written, and writing the same once more
changes nothing.
-/

import AikenForge.FileTree

namespace AikenForge

theorem Table.insert_insert {α : Type} (table : Table α) (key : String) (value : α) :
    (table.insert key value).insert key value = table.insert key value := by
  induction table with
  | nil => simp [Table.insert]
  | cons entry rest ih =>
      obtain ⟨k, v⟩ := entry
      by_cases hk : k = key
      · simp [Table.insert, hk]
      · simp [Table.insert, hk, ih]

namespace FileTree

open AikenForge.Text

/-- Where components lead is the same in trees with the same directories, as far as it is a
place. -/
theorem locate_of_isDirectory {before after : FileTree}
    (h : ∀ place, before.isDirectory place = true → after.isDirectory place = true)
    {place found : String} {steps : List (List Char)}
    (hfound : before.locate place steps = .ok found) : after.locate place steps = .ok found := by
  induction steps generalizing place with
  | nil => exact hfound
  | cons part rest ih =>
      rw [locate] at hfound ⊢
      split at hfound
      · rename_i hplace
        rw [if_pos (h place hplace)]
        exact ih hfound
      · split at hfound <;> cases hfound

/-- Writing puts a text where the path leads in a tree with the directories that it needs. -/
theorem exists_of_write {tree after : FileTree} {path content : String}
    (h : tree.write path content = .ok after) :
    ∃ made place, tree.makeDirectories (Path.directoryName path) = .ok made ∧
      made.place path = .ok place ∧ made.isDirectory place = false ∧
      after = { made with files := made.files.insert place (encodeUtf8 content) } := by
  unfold write at h
  cases hmade : tree.makeDirectories (Path.directoryName path) with
  | error e =>
      rw [hmade] at h
      cases h
  | ok made =>
      rw [hmade] at h
      dsimp only [bind, Except.bind] at h
      cases hplace : made.place path with
      | error fault =>
          rw [hplace] at h
          cases h
      | ok place =>
          rw [hplace] at h
          dsimp only [Except.mapError] at h
          split at h
          · cases h
          · rename_i hfile
            cases h
            exact ⟨made, place, rfl, hplace, by simpa using hfile, rfl⟩

/-- A file gives back the text that is written to it. -/
theorem read_of_write {tree after : FileTree} {path content : String}
    (h : tree.write path content = .ok after) : after.read path = .ok (encodeUtf8 content) := by
  obtain ⟨made, place, -, hplace, -, hafter⟩ := exists_of_write h
  have hdirectories (other : String) (hother : made.isDirectory other = true) :
      after.isDirectory other = true := by
    rw [hafter]
    exact hother
  have hfile : after.files.find? place = some (encodeUtf8 content) := by
    rw [hafter, Table.find?_insert, if_pos rfl]
  rw [read, FileTree.place, locate_of_isDirectory hdirectories hplace]
  dsimp only [bind, Except.bind]
  rw [hfile]
  rfl

/-! ## Writing again -/

/-- Directories stay when others are made. -/
theorem isDirectory_of_makeFrom {tree made : FileTree} {place : String} {steps : List (List Char)}
    (h : tree.makeFrom place steps = .ok made) {other : String}
    (hother : tree.isDirectory other = true) : made.isDirectory other = true := by
  induction steps generalizing tree place with
  | nil =>
      cases h
      exact hother
  | cons part rest ih =>
      rw [makeFrom.eq_def] at h
      dsimp only at h
      split at h
      · exact ih h hother
      · split at h
        · split at h <;> cases h
        · refine ih h ?_
          simp only [isDirectory, Bool.or_eq_true, beq_iff_eq, List.contains_eq_mem,
            decide_eq_true_eq, List.mem_append] at hother ⊢
          exact hother.imp_right .inl

/-- Where all directories are there, none is made. -/
theorem makeFrom_of_isDirectory {tree made after : FileTree} {place : String}
    {steps : List (List Char)} (h : tree.makeFrom place steps = .ok made)
    (hafter : ∀ other, made.isDirectory other = true → after.isDirectory other = true) :
    after.makeFrom place steps = .ok after := by
  induction steps generalizing tree place with
  | nil => rfl
  | cons part rest ih =>
      rw [makeFrom.eq_def] at h ⊢
      dsimp only at h ⊢
      split at h
      · rename_i hnext
        rw [if_pos (hafter _ (isDirectory_of_makeFrom h hnext))]
        exact ih h
      · split at h
        · split at h <;> cases h
        · rw [if_pos (hafter _ (isDirectory_of_makeFrom h (by simp [isDirectory])))]
          exact ih h

/-- Writing the same text to the same path once more changes nothing. -/
theorem write_of_write {tree after : FileTree} {path content : String}
    (h : tree.write path content = .ok after) : after.write path content = .ok after := by
  obtain ⟨made, place, hmade, hplace, hfile, hafter⟩ := exists_of_write h
  have hdirectories (other : String) : after.isDirectory other = made.isDirectory other := by
    rw [hafter]
    rfl
  have hsame : after.makeDirectories (Path.directoryName path) = .ok after := by
    rw [makeDirectories] at hmade ⊢
    exact makeFrom_of_isDirectory hmade fun other hother => (hdirectories other).trans hother
  have hagain : after.place path = .ok place :=
    locate_of_isDirectory (fun other hother => (hdirectories other).trans hother) hplace
  have hfiles : after.files.insert place (encodeUtf8 content) = after.files := by
    rw [hafter]
    exact Table.insert_insert _ _ _
  rw [write, hsame]
  dsimp only [bind, Except.bind]
  rw [hagain]
  dsimp only [Except.mapError]
  rw [hdirectories, hfile, if_neg Bool.false_ne_true, hfiles]
  rfl

end FileTree

end AikenForge
