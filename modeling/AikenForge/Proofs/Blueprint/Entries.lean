/-
# Entries of a blueprint

Recording a contract changes the list of validators in one place: the contract's entry takes the
place of the first entry whose title contains its name, or goes to the end. Every other entry stays,
so that the entry of one contract is lost to another only where the name of the other occurs in its
title.
-/

import Mathlib.Data.List.Nodup
import AikenForge.Project.Blueprint
import AikenForge.Proofs.Json.Proper

namespace AikenForge

open AikenForge.Text

/-! ## Members and texts -/

namespace JsonMember

/-- Looking up a key, member by member. -/
theorem find?_cons (key name : CodePoints) (value : JsonValue) (rest : List JsonMember) :
    find? name (.mk key value :: rest) = if key = name then some value else find? name rest := by
  by_cases h : key = name
  · simp [find?, JsonMember.key, JsonMember.value, h]
  · simp [find?, JsonMember.key, h]

/-- A key that was inserted is found, and no other is touched. -/
theorem find?_insert (key name : CodePoints) (value : JsonValue) (members : List JsonMember) :
    find? name (insert key value members) = if key = name then some value
      else find? name members := by
  induction members with
  | nil => exact find?_cons key name value []
  | cons m rest ih =>
      cases m with
      | mk k v =>
          rw [insert]
          by_cases hk : k = key
          · rw [if_pos (beq_iff_eq.mpr hk), find?_cons, find?_cons, hk]
            split <;> rfl
          · rw [if_neg (fun h => hk (eq_of_beq h)), find?_cons, find?_cons, ih]
            by_cases hkey : key = name <;> by_cases hname : k = name <;> simp_all

/-- A value that is found in the object read back is the value read back. -/
theorem find?_rereadMembers (name : CodePoints) (members : List JsonMember) :
    find? name (JsonValue.rereadMembers members) = (find? name members).map JsonValue.reread := by
  induction members with
  | nil => rfl
  | cons m rest ih =>
      cases m with
      | mk k v =>
          rw [JsonValue.rereadMembers, find?_cons, find?_cons, ih]
          split <;> rfl

end JsonMember

/-- Texts are told apart by their code points. -/
theorem codePoints_injective : Function.Injective codePoints := by
  intro a b h
  exact String.toList_injective (List.map_injective_iff.mpr (fun _ _ => Char.toNat_inj.mp) h)

/-- Code points occur in a row where the characters do. -/
theorem codePoints_infix {a b : String} :
    codePoints a <:+: codePoints b ↔ a.toList <:+: b.toList := by
  constructor
  · rintro ⟨before, after, h⟩
    obtain ⟨first, last, hsplit, hfirst, -⟩ := List.map_eq_append_iff.mp h.symm
    obtain ⟨before', middle, rfl, -, hmiddle⟩ := List.map_eq_append_iff.mp hfirst
    have heq : middle = a.toList :=
      List.map_injective_iff.mpr (fun _ _ => Char.toNat_inj.mp) hmiddle
    exact ⟨before', last, by rw [hsplit, heq]⟩
  · exact fun h => h.map Char.toNat

namespace Blueprint

/-- A text occurs in another if it is a part without gaps. -/
theorem occursIn_iff {part whole : CodePoints} : occursIn part whole = true ↔ part <:+: whole := by
  induction whole with
  | nil => simp [occursIn]
  | cons n rest ih => simp [occursIn, ih, List.infix_cons_iff]

/-- A value is a given text or not. -/
theorem isText_iff {points : CodePoints} {v : JsonValue} :
    isText points v = true ↔ v = .text points := by
  cases v <;> simp [isText]

/-! ## Entries of contracts -/

/-- A contract that was compiled and the path of the text it was compiled to. -/
structure Compiled where
  contract : String
  path : String

namespace Compiled

/-- The title of a contract's entry. -/
def title (c : Compiled) : String :=
  c.contract ++ ".spend"

/-- The entry of a contract. -/
def entry (c : Compiled) : JsonValue :=
  contractEntry c.contract c.path

/-- Whether the name of a contract occurs in the title of another's entry. -/
def OccursIn (c other : Compiled) : Prop :=
  c.contract.toList <:+: other.title.toList

/-- The name of a contract occurs in the title of another. -/
theorem occursIn_title {c other : Compiled} :
    Blueprint.occursIn (codePoints c.contract) (codePoints other.title) = true ↔ c.OccursIn other :=
  occursIn_iff.trans codePoints_infix

instance (c other : Compiled) : Decidable (c.OccursIn other) :=
  decidable_of_iff _ occursIn_title

end Compiled

/-- The path that an entry gives for its compiled code. -/
def compiledCode : JsonValue → JsonValue
  | .object members => (JsonMember.find? (codePoints "compiledCode") members).getD .null
  | _ => .null

/-- Whether an entry has the title of a contract and the path it was compiled to. -/
def isEntryOf (c : Compiled) (entry : JsonValue) : Bool :=
  isText (codePoints c.title) (title entry) && isText (codePoints c.path) (compiledCode entry)

/-- Whether a contract has its entry among the validators of a blueprint. -/
def lists (blueprint : JsonValue) (c : Compiled) : Bool :=
  (validators blueprint).any (isEntryOf c)

/-- The entry of a contract has the contract's title. -/
theorem title_entry (c : Compiled) : title c.entry = .string c.title :=
  rfl

theorem compiledCode_entry (c : Compiled) : compiledCode c.entry = .string c.path :=
  rfl

/-- The entry of a contract is one of its entries. -/
theorem isEntryOf_entry (c : Compiled) : isEntryOf c c.entry = true := by
  rw [isEntryOf, title_entry, compiledCode_entry, Bool.and_eq_true, isText_iff, isText_iff]
  exact ⟨rfl, rfl⟩

/-- An entry of a contract has its title, whatever else it says. -/
theorem title_of_isEntryOf {c : Compiled} {entry : JsonValue} (h : isEntryOf c entry = true) :
    title entry = .string c.title := by
  rw [isEntryOf, Bool.and_eq_true, isText_iff] at h
  exact h.1

/-- A name is contained in a title that is a text where it occurs in the text. -/
theorem titleContains_string (name : CodePoints) {title : String} (hne : title ≠ "") :
    titleContains name (.string title) = .ok (occursIn name (codePoints title)) := by
  have hnonempty : (JsonValue.string title).isEmpty = false := by
    rw [Bool.eq_false_iff]
    intro hempty
    exact hne (codePoints_injective (List.isEmpty_iff.mp hempty))
  unfold titleContains
  rw [if_neg (by simp [hnonempty])]
  rfl

/-- No title is empty. -/
theorem Compiled.title_ne_empty (c : Compiled) : c.title ≠ "" := by
  intro h
  have hlength := congrArg String.length h
  simp [title] at hlength

/-! ## Putting an entry in -/

/-- An entry is put in for the first whose title contains a name, or at the end. -/
inductive Puts (name : CodePoints) (entry : JsonValue) : List JsonValue → List JsonValue → Prop
  | last : Puts name entry [] [entry]
  | here {old : JsonValue} (rest : List JsonValue) (h : titleContains name (title old) = .ok true) :
    Puts name entry (old :: rest) (entry :: rest)
  | next {other : JsonValue} {rest after : List JsonValue}
    (h : titleContains name (title other) = .ok false) (hrest : Puts name entry rest after) :
    Puts name entry (other :: rest) (other :: after)

/-- A replacement puts the entry in one place, or at the end. -/
theorem puts_of_replaceEntry {name : CodePoints} {entry : JsonValue} {items after : List JsonValue}
    (h : replaceEntry name entry items = .ok after) : Puts name entry items after := by
  induction items generalizing after with
  | nil =>
      cases h
      exact .last
  | cons item rest ih =>
      cases item with
      | object members =>
          rw [replaceEntry] at h
          obtain ⟨found, hfound, h⟩ := bind_eq_ok.mp h
          cases found with
          | true =>
              cases h
              exact .here rest hfound
          | false =>
              obtain ⟨others, hothers, h⟩ := bind_eq_ok.mp h
              cases h
              exact .next hfound (ih hothers)
      | _ => cases h

namespace Puts

variable {name : CodePoints} {entry : JsonValue} {items after : List JsonValue}

/-- The new entry is in the list. -/
theorem mem (h : Puts name entry items after) : entry ∈ after := by
  induction h with
  | last => exact List.mem_singleton_self entry
  | here => exact List.mem_cons_self
  | next _ _ ih => exact List.mem_cons_of_mem _ ih

/-- Only an entry whose title contains the name is replaced. -/
theorem keeps (h : Puts name entry items after) {other : JsonValue} (hother : other ∈ items)
    (htitle : titleContains name (title other) ≠ .ok true) : other ∈ after := by
  induction h with
  | last => cases hother
  | here rest hold =>
      rcases List.mem_cons.mp hother with rfl | hrest
      · exact absurd hold htitle
      · exact List.mem_cons_of_mem _ hrest
  | next _ _ ih =>
      rcases List.mem_cons.mp hother with rfl | hrest
      · exact List.mem_cons_self
      · exact List.mem_cons_of_mem _ (ih hrest)

/-- Every entry of the new list is the new one or was there before. -/
theorem mem_or (h : Puts name entry items after) {other : JsonValue} (hother : other ∈ after) :
    other = entry ∨ other ∈ items := by
  induction h with
  | last => exact .inl (List.mem_singleton.mp hother)
  | here rest hold => exact (List.mem_cons.mp hother).imp_right (List.mem_cons_of_mem _)
  | next _ _ ih =>
      rcases List.mem_cons.mp hother with rfl | hrest
      · exact .inr List.mem_cons_self
      · exact (ih hrest).imp_right (List.mem_cons_of_mem _)

end Puts

/-! ## Updates -/

/-- Validators that can be updated are a list, and the entry is put into it. -/
theorem exists_of_updateValidators {name : CodePoints} {entry before after : JsonValue}
    (h : updateValidators name entry before = .ok after) :
    ∃ items found, before = .list items ∧ Puts name entry items found ∧ after = .list found := by
  unfold updateValidators at h
  split at h
  · rename_i items
    obtain ⟨found, hfound, h⟩ := bind_eq_ok.mp h
    cases h
    exact ⟨items, found, rfl, puts_of_replaceEntry hfound, rfl⟩
  all_goals cases h

/-- An update puts the contract's entry in among the validators and leaves the other members. -/
theorem exists_of_update {c : Compiled} {before after : JsonValue}
    (h : update c.contract c.path before = .ok after) :
    ∃ members items, before = .object members ∧
      Puts (codePoints c.contract) c.entry (validators before) items ∧
      after = .object (JsonMember.insert (codePoints "validators") (.list items) members) := by
  cases before with
  | object members =>
      obtain ⟨listed, hlisted, h⟩ := bind_eq_ok.mp h
      cases h
      obtain ⟨items, found, hitems, hputs, rfl⟩ := exists_of_updateValidators hlisted
      have hvalidators : validators (.object members) = items := by
        rw [validators]
        cases hfound : JsonMember.find? (codePoints "validators") members with
        | none =>
            rw [hfound] at hitems
            cases hitems
            rfl
        | some listed =>
            rw [hfound] at hitems
            cases hitems
            rfl
      exact ⟨members, found, rfl, hvalidators ▸ hputs, rfl⟩
  | _ => cases h

theorem validators_insert (items : List JsonValue) (members : List JsonMember) :
    validators (.object (JsonMember.insert (codePoints "validators") (.list items) members)) =
      items := by
  rw [validators, JsonMember.find?_insert, if_pos rfl]

/-- A contract has its entry after its own update. -/
theorem lists_of_update {c : Compiled} {before after : JsonValue}
    (h : update c.contract c.path before = .ok after) : lists after c = true := by
  obtain ⟨members, items, -, hputs, rfl⟩ := exists_of_update h
  rw [lists, validators_insert]
  exact List.any_eq_true.mpr ⟨_, hputs.mem, isEntryOf_entry c⟩

/-- A contract keeps its entry in an update for a contract whose name does not occur in its
title. -/
theorem lists_of_update_of_not_occursIn {c other : Compiled} {before after : JsonValue}
    (h : update other.contract other.path before = .ok after) (hlists : lists before c = true)
    (hname : ¬ other.OccursIn c) : lists after c = true := by
  obtain ⟨members, items, rfl, hputs, rfl⟩ := exists_of_update h
  obtain ⟨entry, hentry, hits⟩ := List.any_eq_true.mp hlists
  rw [lists, validators_insert]
  refine List.any_eq_true.mpr ⟨entry, hputs.keeps hentry ?_, hits⟩
  rw [title_of_isEntryOf hits, titleContains_string _ c.title_ne_empty]
  intro hcontains
  exact hname (Compiled.occursIn_title.mp (Except.ok.inj hcontains))

/-! ## Updated blueprints in files -/

theorem proper_string (s : String) : (JsonValue.string s).Proper :=
  CodePoints.proper_codePoints s

/-- An object of proper values under different keys is proper. -/
theorem proper_ofFields {fields : List (String × JsonValue)} (hvalues : ∀ f ∈ fields, f.2.Proper)
    (hkeys : (fields.map Prod.fst).Nodup) : (JsonValue.ofFields fields).Proper := by
  constructor
  · refine JsonValue.properMembers_iff.mpr fun m hm => ?_
    obtain ⟨f, hf, rfl⟩ := List.mem_map.mp hm
    exact ⟨CodePoints.proper_codePoints f.1, hvalues f hf⟩
  · have hnodup := List.Nodup.map codePoints_injective hkeys
    rw [List.map_map] at hnodup ⊢
    exact hnodup

theorem proper_dataField (title : String) : (dataField title).Proper := by
  have hschema : (JsonValue.ofFields [("$ref", .string "#/definitions/Data")]).Proper :=
    proper_ofFields (by simpa using proper_string _) (by simp)
  exact proper_ofFields (by simpa using ⟨proper_string title, hschema⟩) (by simp)

/-- The entry of a contract can be written and read back. -/
theorem Compiled.proper_entry (c : Compiled) : c.entry.Proper := by
  have hnone : (JsonValue.list []).Proper := trivial
  refine proper_ofFields ?_ (by simp)
  simpa using ⟨proper_string _, proper_dataField _, proper_dataField _, proper_string c.path, hnone⟩

/-- The entries of a proper blueprint are proper. -/
theorem proper_of_mem_validators {blueprint entry : JsonValue} (h : blueprint.Proper)
    (hentry : entry ∈ validators blueprint) : entry.Proper := by
  unfold validators at hentry
  split at hentry
  · rename_i members
    split at hentry
    · rename_i items hitems
      obtain ⟨m, hm, hvalue⟩ := Option.map_eq_some_iff.mp hitems
      have hproper := (JsonValue.properMembers_iff.mp h.1 m (List.mem_of_find?_eq_some hm)).2
      rw [hvalue] at hproper
      exact JsonValue.properItems_iff.mp hproper entry hentry
    · cases hentry
  · cases hentry

/-- An updated blueprint can be read if the one before can. -/
theorem proper_of_update {c : Compiled} {before after : JsonValue}
    (h : update c.contract c.path before = .ok after) (hbefore : before.Proper) : after.Proper := by
  obtain ⟨members, items, rfl, hputs, rfl⟩ := exists_of_update h
  refine JsonReader.ProperObject.insert hbefore (CodePoints.proper_codePoints _) ?_
  refine JsonValue.properItems_iff.mpr fun item hitem => ?_
  rcases hputs.mem_or hitem with rfl | hold
  · exact c.proper_entry
  · exact proper_of_mem_validators hbefore hold

theorem getD_reread (found : Option JsonValue) :
    (found.map JsonValue.reread).getD .null = (found.getD .null).reread := by
  cases found <;> rfl

/-- A title is that of the entry before it was read back. -/
theorem title_reread (entry : JsonValue) : title entry.reread = (title entry).reread := by
  cases entry with
  | object members =>
      rw [JsonValue.reread, title, title, JsonMember.find?_rereadMembers, getD_reread]
  | _ => rfl

theorem compiledCode_reread (entry : JsonValue) :
    compiledCode entry.reread = (compiledCode entry).reread := by
  cases entry with
  | object members =>
      rw [JsonValue.reread, compiledCode, compiledCode, JsonMember.find?_rereadMembers, getD_reread]
  | _ => rfl

/-- The validators that are read back are those that were written, read back. -/
theorem validators_reread (blueprint : JsonValue) :
    validators blueprint.reread = (validators blueprint).map JsonValue.reread := by
  cases blueprint with
  | object members =>
      rw [JsonValue.reread, validators, validators, JsonMember.find?_rereadMembers]
      cases JsonMember.find? (codePoints "validators") members with
      | none => rfl
      | some listed =>
          cases listed with
          | list items => exact JsonValue.rereadItems_eq_map items
          | _ => rfl
  | _ => rfl

theorem isText_reread (points : CodePoints) (v : JsonValue) :
    isText points v.reread = isText points v := by
  cases v <;> rfl

/-- Which contracts a blueprint lists does not change when it is written and read. -/
theorem lists_reread (blueprint : JsonValue) (c : Compiled) :
    lists blueprint.reread c = lists blueprint c := by
  have hentry (entry : JsonValue) : isEntryOf c entry.reread = isEntryOf c entry := by
    rw [isEntryOf, title_reread, compiledCode_reread, isText_reread, isText_reread, ← isEntryOf]
  rw [lists, validators_reread, List.any_map]
  exact congrArg (List.any (validators blueprint)) (funext hentry)

end Blueprint

end AikenForge
