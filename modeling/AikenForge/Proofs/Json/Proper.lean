/-
# Values that are read

Whatever a text is read as can be written and read back: its integers have no more digits than the
text gave them, its texts come out of the reader of texts, and the last value of a key replaces the
one before. So no value that comes out of a file is lost by writing it again.
-/

import Mathlib.Algebra.Group.Nat.Defs
import Mathlib.Data.List.TakeWhile
import AikenForge.Proofs.Json.Readback

namespace AikenForge

open AikenForge.Number

/-- Two steps give a value if the second gives it for the value of the first. -/
theorem bind_eq_ok {ε α β : Type} {first : Except ε α} {next : α → Except ε β} {b : β} :
    first >>= next = .ok b ↔ ∃ a, first = .ok a ∧ next a = .ok b := by
  cases first <;> simp [bind, Except.bind]

/-- Renaming an error does not change what succeeds. -/
@[simp]
theorem mapError_eq_ok {ε ε' α : Type} {result : Except ε α} {f : ε → ε'} {a : α} :
    result.mapError f = .ok a ↔ result = .ok a := by
  cases result <;> simp [Except.mapError]

namespace JsonReader

open JsonValue

/-! ## Integers -/

theorem isDigit_of_mem_digitsOf {c : Char} {cs : List Char} (h : c ∈ digitsOf cs) :
    c.isDigit = true :=
  List.mem_takeWhile_imp h

theorem isDigit_of_mem_integerDigits {c : Char} {cs : List Char} (h : c ∈ integerDigits cs) :
    c.isDigit = true := by
  unfold integerDigits at h
  split at h
  · rw [List.mem_singleton.mp h]
    rfl
  · exact isDigit_of_mem_digitsOf h

/-- Digits write a number below the power of ten that has one digit more. -/
theorem ofDigits_lt {cs : List Char} (h : ∀ c ∈ cs, c.isDigit = true) :
    ofDigits cs < 10 ^ cs.length := by
  induction cs using List.reverseRecOn with
  | nil => exact Nat.one_pos
  | append_singleton cs c ih =>
      have hbounds : 48 ≤ c.toNat ∧ c.toNat ≤ 57 := Char.isDigit_iff_toNat.mp (h c (by simp))
      have hrest := ih fun d hd => h d (List.mem_append_left _ hd)
      have hsplit : ofDigits (cs ++ [c]) = ofDigits cs * 10 + (c.toNat - 48) := by
        simp [ofDigits, List.foldl_append]
      rw [hsplit, List.length_append, List.length_singleton, Nat.pow_succ]
      omega

/-- A number is not written with more digits than it was read from. -/
theorem length_toDigits_ofDigits {cs : List Char} (h : ∀ c ∈ cs, c.isDigit = true) (hne : cs ≠ []) :
    (Nat.toDigits 10 (ofDigits cs)).length ≤ cs.length :=
  (Nat.length_toDigits_le_iff (by omega) (List.length_pos_of_ne_nil hne)).mpr (ofDigits_lt h)

/-- What is read as a number is proper. -/
theorem proper_of_number {c after : Cursor} {v : JsonValue} (h : number c = .ok (v, after)) :
    v.Proper := by
  unfold number at h
  dsimp only at h
  generalize (if (c.rest.head? == some '-') = true then c.skip 1 else c) = start at h
  split at h
  · cases h
  rename_i hwhole
  split at h
  · cases h
    trivial
  split at h
  · split at h
    · cases h
    rename_i hlimit
    cases h
    have hdigits := length_toDigits_ofDigits
      (fun d hd => isDigit_of_mem_integerDigits hd) (by simpa using hwhole)
    have habs (n : Nat) :
        (if (c.rest.head? == some '-') = true then -(n : Int) else n).natAbs = n := by
      split <;> simp
    change (Nat.toDigits 10 (Int.natAbs _)).length ≤ digitLimit
    rw [habs]
    omega
  · cases h
    trivial

/-- What is read as a word is proper. -/
theorem proper_of_word? {c after : Cursor} {v : JsonValue} (h : word? c = some (v, after)) :
    v.Proper := by
  obtain ⟨entry, hentry, hresult⟩ := List.exists_of_findSome?_eq_some h
  have hproper : entry.2.Proper := by
    simp only [wordValues, List.mem_cons, List.not_mem_nil, or_false] at hentry
    rcases hentry with rfl | rfl | rfl | rfl | rfl | rfl <;> trivial
  dsimp only at hresult
  split at hresult
  · rw [← (Prod.mk.inj (Option.some.inj hresult)).1]
    exact hproper
  · cases hresult

/-! ## Objects -/

/-- Members of an object that can be read: each can, and no key stands twice. -/
def ProperObject (members : List JsonMember) : Prop :=
  (JsonValue.object members).Proper

theorem properObject_nil : ProperObject [] :=
  ⟨trivial, List.nodup_nil⟩

theorem mem_insert {key : CodePoints} {value : JsonValue} {members : List JsonMember}
    {m : JsonMember}
    (h : m ∈ JsonMember.insert key value members) : m = .mk key value ∨ m ∈ members := by
  induction members with
  | nil => exact .inl (List.mem_singleton.mp h)
  | cons other rest ih =>
      cases other with
      | mk k v =>
          rw [JsonMember.insert] at h
          split at h
          · rcases List.mem_cons.mp h with rfl | hrest
            · exact .inl rfl
            · exact .inr (List.mem_cons_of_mem _ hrest)
          · rcases List.mem_cons.mp h with rfl | hrest
            · exact .inr List.mem_cons_self
            · rcases ih hrest with hnew | hold
              · exact .inl hnew
              · exact .inr (List.mem_cons_of_mem _ hold)

/-- A key gets its value in place, so that keys stay apart. -/
theorem nodup_insert (key : CodePoints) (value : JsonValue) {members : List JsonMember}
    (h : (members.map JsonMember.key).Nodup) :
    ((JsonMember.insert key value members).map JsonMember.key).Nodup := by
  induction members with
  | nil => simp [JsonMember.insert]
  | cons other rest ih =>
      cases other with
      | mk k v =>
          obtain ⟨hk, hrest⟩ := List.nodup_cons.mp h
          rw [JsonMember.insert]
          split
          · rename_i heq
            rw [eq_of_beq heq] at hk
            exact List.nodup_cons.mpr ⟨hk, hrest⟩
          · rename_i hne
            refine List.nodup_cons.mpr ⟨fun hmem => ?_, ih hrest⟩
            obtain ⟨m, hm, hkey⟩ := List.mem_map.mp hmem
            rcases mem_insert hm with rfl | hold
            · exact hne (beq_iff_eq.mpr hkey.symm)
            · exact hk (List.mem_map.mpr ⟨m, hold, hkey⟩)

/-- A proper member may be inserted. -/
theorem ProperObject.insert {members : List JsonMember} (h : ProperObject members)
    {key : CodePoints}
    (hkey : key.Proper) {value : JsonValue} (hvalue : value.Proper) :
    ProperObject (JsonMember.insert key value members) := by
  refine ⟨properMembers_iff.mpr fun m hm => ?_, nodup_insert key value h.2⟩
  rcases mem_insert hm with rfl | hold
  · exact ⟨hkey, hvalue⟩
  · exact properMembers_iff.mp h.1 m hold

/-! ## Readers -/

mutual

/-- What is read as a value is proper, by induction on the fuel. -/
theorem proper_of_value : ∀ (fuel : Nat) {c after : Cursor} {v : JsonValue},
    value fuel c = .ok (v, after) → v.Proper
  | 0, _, _, _, h => by cases h
  | fuel + 1, c, after, v, h => by
      rw [value] at h
      split at h
      · obtain ⟨⟨points, next⟩, htext, hresult⟩ := bind_eq_ok.mp h
        cases hresult
        exact proper_of_text htext
      · dsimp only at h
        split at h
        · cases h
          exact properObject_nil
        · obtain ⟨⟨found, next⟩, hmembers, hresult⟩ := bind_eq_ok.mp h
          cases hresult
          exact proper_of_members fuel properObject_nil hmembers
      · dsimp only at h
        split at h
        · cases h
          trivial
        · obtain ⟨⟨found, next⟩, hitems, hresult⟩ := bind_eq_ok.mp h
          cases hresult
          exact proper_of_items fuel hitems
      · split at h
        · rename_i hword
          cases h
          exact proper_of_word? hword
        · exact proper_of_number h

theorem proper_of_members : ∀ (fuel : Nat) {found members : List JsonMember} {c after : Cursor},
    ProperObject found → JsonReader.members fuel found c = .ok (members, after) →
    ProperObject members
  | 0, _, _, _, _, _, h => by cases h
  | fuel + 1, found, members, c, after, hfound, h => by
      rw [JsonReader.members] at h
      split at h
      · cases h
      obtain ⟨⟨key, colon⟩, htext, h⟩ := bind_eq_ok.mp h
      dsimp only at h
      split at h
      · cases h
      obtain ⟨⟨member, next⟩, hvalue, h⟩ := bind_eq_ok.mp h
      have hmore := hfound.insert (proper_of_text htext) (proper_of_value fuel hvalue)
      dsimp only at h
      split at h
      · cases h
        exact hmore
      · exact proper_of_members fuel hmore h
      · cases h

theorem proper_of_items : ∀ (fuel : Nat) {found : List JsonValue} {c after : Cursor},
    JsonReader.items fuel c = .ok (found, after) → ProperItems found
  | 0, _, _, _, h => by cases h
  | fuel + 1, found, c, after, h => by
      rw [JsonReader.items] at h
      obtain ⟨⟨item, next⟩, hvalue, h⟩ := bind_eq_ok.mp h
      have hitem := proper_of_value fuel hvalue
      dsimp only at h
      split at h
      · cases h
        exact ⟨hitem, trivial⟩
      · obtain ⟨⟨others, last⟩, hitems, hresult⟩ := bind_eq_ok.mp h
        cases hresult
        exact ⟨hitem, proper_of_items fuel hitems⟩
      · cases h

end

/-- Whatever is read can be read back. -/
theorem proper_of_read {text : List Char} {v : JsonValue} (h : read text = .ok v) : v.Proper := by
  unfold read at h
  dsimp only at h
  split at h
  · cases h
  obtain ⟨⟨result, after⟩, hvalue, h⟩ := bind_eq_ok.mp h
  dsimp only at h
  split at h
  · cases h
    exact proper_of_value _ hvalue
  · cases h

end JsonReader

end AikenForge
