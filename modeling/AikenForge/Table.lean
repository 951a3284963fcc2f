/-
# Insertion-ordered tables

A list of keyed entries in which a new key goes to the end and a key assigned again keeps its place,
and its like without values, a list of names.
-/

namespace AikenForge

/-- Add a name at the end of a list of names, unless it is there. -/
def addOnce (names : List String) (name : String) : List String :=
  if names.contains name then names else names ++ [name]

/-- Entries by name in order of first insertion. -/
abbrev Table (α : Type) := List (String × α)

namespace Table

variable {α : Type}

/-- The value of a key. -/
def find? (table : Table α) (key : String) : Option α :=
  List.lookup key table

/-- Whether a key has a value. -/
def contains (table : Table α) (key : String) : Bool :=
  (table.find? key).isSome

/-- Give a key a value: in its place if it has one, else at the end. -/
def insert (key : String) (value : α) : Table α → Table α
  | [] => [(key, value)]
  | (k, v) :: rest => if k == key then (key, value) :: rest else (k, v) :: insert key value rest

/-- Remove a key. -/
def erase (table : Table α) (key : String) : Table α :=
  table.filter fun entry => entry.1 != key

/-- The table that assigns the entries of a list one after the other. -/
def ofList (entries : List (String × α)) : Table α :=
  entries.foldl (fun table (key, value) => table.insert key value) []

theorem find?_cons (key : String) (value : α) (rest : Table α) (name : String) :
    find? ((key, value) :: rest) name = if name = key then some value else rest.find? name := by
  unfold find?
  by_cases h : name = key
  · simp [h]
  · have hbeq : (name == key) = false := beq_false_of_ne h
    simp [List.lookup_cons, hbeq, h]

/-- A name that was erased is not found, and no other is touched. -/
theorem find?_erase (table : Table α) (key name : String) :
    (table.erase key).find? name = if name = key then none else table.find? name := by
  induction table with
  | nil => simp [erase, find?]
  | cons entry rest ih =>
      obtain ⟨k, v⟩ := entry
      have herase : erase ((k, v) :: rest) key =
          if k = key then erase rest key else (k, v) :: erase rest key := by
        by_cases hk : k = key <;> simp [erase, hk]
      rw [herase, find?_cons]
      by_cases hk : k = key
      · subst hk
        rw [if_pos rfl, ih]
        by_cases hn : name = k <;> simp [hn]
      · rw [if_neg hk, find?_cons, ih]
        by_cases hn : name = k <;> simp [hn, hk]

/-- So it is with several names. -/
theorem find?_foldl_erase (names : List String) (table : Table α) (name : String) :
    (names.foldl erase table).find? name = if name ∈ names then none else table.find? name := by
  induction names generalizing table with
  | nil => simp
  | cons key rest ih =>
      rw [List.foldl_cons, ih, find?_erase]
      by_cases hrest : name ∈ rest <;> by_cases hkey : name = key <;> simp [hrest, hkey]

/-- A name that was inserted is found, and no other is touched. -/
theorem find?_insert (table : Table α) (key name : String) (value : α) :
    (table.insert key value).find? name = if name = key then some value else table.find? name := by
  induction table with
  | nil => exact find?_cons key value [] name
  | cons entry rest ih =>
      obtain ⟨k, v⟩ := entry
      by_cases hk : k = key
      · subst hk
        simp only [insert, beq_self_eq_true, if_true, find?_cons]
        by_cases hn : name = k <;> simp [hn]
      · have hkey : (k == key) = false := by simpa using hk
        simp only [insert, hkey, Bool.false_eq_true, if_false, find?_cons, ih]
        by_cases hn : name = k
        · subst hn
          simp [hk]
        · simp [hn]

/-- The first table comes first. -/
theorem find?_append (table other : Table α) (name : String) :
    find? (table ++ other) name = (table.find? name).or (other.find? name) := by
  induction table with
  | nil => rfl
  | cons entry rest ih =>
      obtain ⟨key, value⟩ := entry
      rw [List.cons_append, find?_cons, find?_cons, ih]
      by_cases h : name = key <;> simp [h]

/-- The last entry of a name is the one that is found. -/
theorem find?_foldl_insert (entries : List (String × α)) (table : Table α) (name : String) :
    (entries.foldl (fun table entry => table.insert entry.1 entry.2) table).find? name =
      (find? entries.reverse name).or (table.find? name) := by
  induction entries generalizing table with
  | nil => rfl
  | cons entry rest ih =>
      obtain ⟨key, value⟩ := entry
      have hone : find? [(key, value)] name = if name = key then some value else none :=
        find?_cons key value [] name
      rw [List.foldl_cons, ih, find?_insert, List.reverse_cons, find?_append, hone, Option.or_assoc]
      by_cases h : name = key <;> simp [h]

/-- In a table that is assigned entry by entry, a name has the value that it was given last. -/
theorem find?_ofList (entries : List (String × α)) (name : String) :
    (ofList entries).find? name = find? entries.reverse name := by
  have h := find?_foldl_insert entries [] name
  rwa [show find? ([] : Table α) name = none from rfl, Option.or_none] at h

end Table

end AikenForge
