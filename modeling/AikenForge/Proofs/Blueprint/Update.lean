/-
# What one update does

An update looks at the entries up to the first whose title contains the contract's name. Whatever it
meets before that decides whether it fails, and it fails before anything is written. Where it does
not, the blueprint is changed in one place: the entry that was found, the end of the list, or the
end of the object if there was no list. The new entry contains the name in its title, so the same
update finds it again at its place and changes nothing.
-/

import AikenForge.CommandLine.Command
import AikenForge.Proofs.Blueprint.Survival

namespace AikenForge.Blueprint

open AikenForge.Text

/-! ## Titles -/

/-- Whether a title can be searched for a name: an empty one counts as an empty text, and else it is
a text, a list or an object. -/
def Searchable (title : JsonValue) : Prop :=
  title.isEmpty = true ∨ (∃ points, title = .text points) ∨ (∃ items, title = .list items) ∨
    ∃ members, title = .object members

/-- Whether a title contains a name: in a row in a text, as an item of a list, or as a key of an
object. -/
def Contains (name : CodePoints) (title : JsonValue) : Prop :=
  if title.isEmpty then name = []
  else
    match title with
    | .text points => name <:+: points
    | .list items => .text name ∈ items
    | .object members => name ∈ members.map JsonMember.key
    | _ => False

/-- A title that can be searched contains a name or does not. -/
theorem titleContains_iff (name : CodePoints) {title : JsonValue} (h : Searchable title) :
    ∃ found, titleContains name title = .ok found ∧ (found = true ↔ Contains name title) := by
  unfold titleContains Contains
  split
  · exact ⟨name.isEmpty, rfl, List.isEmpty_iff⟩
  · rename_i hempty
    obtain hempty' | ⟨points, rfl⟩ | ⟨items, rfl⟩ | ⟨members, rfl⟩ := h
    · exact absurd hempty' hempty
    · exact ⟨_, rfl, occursIn_iff⟩
    · refine ⟨_, rfl, ?_⟩
      rw [List.any_eq_true]
      constructor
      · rintro ⟨item, hitem, htext⟩
        rwa [isText_iff.mp htext] at hitem
      · exact fun hmem => ⟨_, hmem, isText_iff.mpr rfl⟩
    · refine ⟨_, rfl, ?_⟩
      simp [List.any_eq_true]

/-- Searching any other title fails. -/
theorem titleContains_of_not_searchable (name : CodePoints) {title : JsonValue}
    (h : ¬ Searchable title) : ∃ fault, titleContains name title = .error fault := by
  unfold titleContains
  split
  · rename_i hempty
    exact absurd (.inl hempty) h
  · split
    · exact absurd (.inr (.inl ⟨_, rfl⟩)) h
    · exact absurd (.inr (.inr (.inl ⟨_, rfl⟩))) h
    · exact absurd (.inr (.inr (.inr ⟨_, rfl⟩))) h
    · exact ⟨_, rfl⟩

/-! ## Entries -/

/-- What the update makes of an entry: it is passed, found, or blocks the way. -/
structure Passes (name : CodePoints) (entry : JsonValue) : Prop where
  object : ∃ members, entry = .object members
  searchable : Searchable (title entry)
  other : ¬ Contains name (title entry)

/-- An entry whose title contains a name. -/
structure Found (name : CodePoints) (entry : JsonValue) : Prop where
  object : ∃ members, entry = .object members
  searchable : Searchable (title entry)
  contains : Contains name (title entry)

/-- An entry that is no object, or has a title that cannot be searched. -/
def Blocks (entry : JsonValue) : Prop :=
  (∀ members, entry ≠ .object members) ∨ ¬ Searchable (title entry)

/-- An entry is passed, is found, or stops the search. -/
theorem passes_or_found_or_blocks (name : CodePoints) (entry : JsonValue) :
    Passes name entry ∨ Found name entry ∨ Blocks entry := by
  by_cases hobject : ∃ members, entry = .object members
  · by_cases hsearch : Searchable (title entry)
    · by_cases hcontains : Contains name (title entry)
      · exact .inr (.inl ⟨hobject, hsearch, hcontains⟩)
      · exact .inl ⟨hobject, hsearch, hcontains⟩
    · exact .inr (.inr (.inr hsearch))
  · exact .inr (.inr (.inl (by simpa using hobject)))

/-- The entries up to the first that is not passed. -/
theorem exists_first (name : CodePoints) (items : List JsonValue) :
    (∀ item ∈ items, Passes name item) ∨
      ∃ passed first rest, items = passed ++ first :: rest ∧ (∀ item ∈ passed, Passes name item) ∧
        (Found name first ∨ Blocks first) := by
  induction items with
  | nil => exact .inl (by simp)
  | cons item rest ih =>
      obtain hpasses | hstops := passes_or_found_or_blocks name item
      · obtain hall | ⟨passed, first, last, rfl, hpassed, hfirst⟩ := ih
        · exact .inl (List.forall_mem_cons.mpr ⟨hpasses, hall⟩)
        · exact .inr ⟨item :: passed, first, last, rfl,
            List.forall_mem_cons.mpr ⟨hpasses, hpassed⟩, hfirst⟩
      · exact .inr ⟨[], item, rest, rfl, by simp, hstops⟩

section Replace

variable {name : CodePoints} {entry : JsonValue}

/-- An entry is replaced if its title contains the name, and is passed otherwise. -/
theorem replaceEntry_object (members : List JsonMember) (rest : List JsonValue) :
    replaceEntry name entry (.object members :: rest) =
      (titleContains name (title (.object members)) >>= fun found =>
        if found then .ok (entry :: rest)
        else (replaceEntry name entry rest).map (.object members :: ·)) := by
  rw [replaceEntry, title]
  cases titleContains name ((JsonMember.find? (codePoints "title") members).getD .null) with
  | error fault => rfl
  | ok found =>
      cases found
      · cases replaceEntry name entry rest <;> rfl
      · rfl

/-- The search goes on behind an entry that is passed. -/
theorem replaceEntry_of_passes {item : JsonValue} (h : Passes name item) (rest : List JsonValue) :
    replaceEntry name entry (item :: rest) = (replaceEntry name entry rest).map (item :: ·) := by
  obtain ⟨members, rfl⟩ := h.object
  obtain ⟨found, hfound, hcontains⟩ := titleContains_iff name h.searchable
  obtain rfl : found = false := by simpa [h.other] using hcontains
  rw [replaceEntry_object, hfound]
  rfl

/-- The search ends at the entry that is found. -/
theorem replaceEntry_of_found {item : JsonValue} (h : Found name item) (rest : List JsonValue) :
    replaceEntry name entry (item :: rest) = .ok (entry :: rest) := by
  obtain ⟨members, rfl⟩ := h.object
  obtain ⟨found, hfound, hcontains⟩ := titleContains_iff name h.searchable
  obtain rfl : found = true := hcontains.mpr h.contains
  rw [replaceEntry_object, hfound]
  rfl

/-- An entry without a title to search stops it with a fault. -/
theorem replaceEntry_of_blocks {item : JsonValue} (h : Blocks item) (rest : List JsonValue) :
    ∃ fault, replaceEntry name entry (item :: rest) = .error fault := by
  cases item with
  | object members =>
      obtain hobject | hsearch := h
      · exact absurd rfl (hobject members)
      · obtain ⟨fault, hfault⟩ := titleContains_of_not_searchable name hsearch
        rw [replaceEntry_object, hfault]
        exact ⟨fault, rfl⟩
  | _ => exact ⟨_, rfl⟩

/-- Entries that are passed stay. -/
theorem replaceEntry_append {passed : List JsonValue} (h : ∀ item ∈ passed, Passes name item)
    (rest : List JsonValue) :
    replaceEntry name entry (passed ++ rest) =
      (replaceEntry name entry rest).map (passed ++ ·) := by
  induction passed with
  | nil =>
      rw [List.nil_append]
      cases replaceEntry name entry rest <;> rfl
  | cons item passed ih =>
      obtain ⟨hitem, hpassed⟩ := List.forall_mem_cons.mp h
      rw [List.cons_append, replaceEntry_of_passes hitem, ih hpassed]
      cases replaceEntry name entry rest <;> rfl

end Replace

/-! ## Blueprints -/

/-- The key of the list of validators. -/
def validatorsKey : CodePoints :=
  codePoints "validators"

/-- The entries with a new one: it takes the place of the first whose title contains the name, or
comes after all of them. -/
inductive Replaced (name : CodePoints) (entry : JsonValue) : List JsonValue → List JsonValue → Prop
  | found {passed : List JsonValue} {old : JsonValue} (rest : List JsonValue) :
      (∀ item ∈ passed, Passes name item) → Found name old →
      Replaced name entry (passed ++ old :: rest) (passed ++ entry :: rest)
  | added {items : List JsonValue} :
      (∀ item ∈ items, Passes name item) → Replaced name entry items (items ++ [entry])

/-- A blueprint with the entry of a contract: the list of validators is changed in its place, or
made at the end of the object. -/
inductive Updated (c : Compiled) : JsonValue → JsonValue → Prop
  | listed {first : List JsonMember} (last : List JsonMember) {items after : List JsonValue} :
      validatorsKey ∉ first.map JsonMember.key →
      Replaced (codePoints c.contract) c.entry items after →
      Updated c (.object (first ++ .mk validatorsKey (.list items) :: last))
        (.object (first ++ .mk validatorsKey (.list after) :: last))
  | unlisted {members : List JsonMember} :
      validatorsKey ∉ members.map JsonMember.key →
      Updated c (.object members) (.object (members ++ [.mk validatorsKey (.list [c.entry])]))

/-- What a file holds cannot be updated: nothing that can be read as a value, a value that is no
object, an object with validators that are no list, or a list with an entry that blocks the way to
the first that is found. -/
inductive Unfit (name : CodePoints) : Option JsonValue → Prop
  | unreadable : Unfit name none
  | shapeless {value : JsonValue} :
      (∀ members, value ≠ .object members) → Unfit name (some value)
  | unlisted {members : List JsonMember} {value : JsonValue} :
      JsonMember.find? validatorsKey members = some value → (∀ items, value ≠ .list items) →
      Unfit name (some (.object members))
  | blocked {members : List JsonMember} {passed rest : List JsonValue} {entry : JsonValue} :
      JsonMember.find? validatorsKey members = some (.list (passed ++ entry :: rest)) →
      (∀ item ∈ passed, Passes name item) → Blocks entry → Unfit name (some (.object members))

theorem find?_of_notMem {key : CodePoints} {members : List JsonMember}
    (h : key ∉ members.map JsonMember.key) : JsonMember.find? key members = none := by
  rw [JsonMember.find?, Option.map_eq_none_iff, List.find?_eq_none]
  intro m hm hkey
  exact h (List.mem_map.mpr ⟨m, hm, eq_of_beq hkey⟩)

/-- The first member of a key is the one that counts. -/
theorem find?_append_of_notMem {key : CodePoints} {first : List JsonMember}
    (h : key ∉ first.map JsonMember.key) (value : JsonValue) (last : List JsonMember) :
    JsonMember.find? key (first ++ .mk key value :: last) = some value := by
  have hnone := find?_of_notMem h
  rw [JsonMember.find?, Option.map_eq_none_iff] at hnone
  rw [JsonMember.find?, List.find?_append, hnone, Option.none_or, ← JsonMember.find?,
    JsonMember.find?_cons, if_pos rfl]

/-- A value takes the place of the first member of its key. -/
theorem insert_append_of_notMem {key : CodePoints} {first : List JsonMember}
    (h : key ∉ first.map JsonMember.key) (old value : JsonValue) (last : List JsonMember) :
    JsonMember.insert key value (first ++ .mk key old :: last) =
      first ++ .mk key value :: last := by
  induction first with
  | nil => simp [JsonMember.insert]
  | cons m rest ih =>
      cases m with
      | mk k v =>
          obtain ⟨hk, hrest⟩ : key ≠ k ∧ key ∉ rest.map JsonMember.key := by
            simpa [JsonMember.key] using h
          rw [List.cons_append, JsonMember.insert, if_neg (by simpa using Ne.symm hk), ih hrest,
            List.cons_append]

/-- A key has no value, or has it in one place. -/
theorem notMem_or_exists_append (key : CodePoints) (members : List JsonMember) :
    key ∉ members.map JsonMember.key ∨
      ∃ first value last, members = first ++ .mk key value :: last ∧
        key ∉ first.map JsonMember.key := by
  induction members with
  | nil => exact .inl (by simp)
  | cons m rest ih =>
      cases m with
      | mk k v =>
          by_cases hk : key = k
          · exact .inr ⟨[], v, rest, by rw [hk]; rfl, by simp⟩
          · obtain hnone | ⟨first, value, last, rfl, hfirst⟩ := ih
            · exact .inl (by simpa [JsonMember.key, hk] using hnone)
            · exact .inr ⟨.mk k v :: first, value, last, rfl,
                by simpa [JsonMember.key, hk] using hfirst⟩

/-- What replacing should do is what it does. -/
theorem replaceEntry_eq_ok_of_replaced {name : CodePoints} {entry : JsonValue}
    {items after : List JsonValue} (h : Replaced name entry items after) :
    replaceEntry name entry items = .ok after := by
  cases h with
  | found rest hpassed hfound =>
      rw [replaceEntry_append hpassed, replaceEntry_of_found hfound]
      rfl
  | added hpassed =>
      have hall : replaceEntry name entry (items ++ []) =
          (replaceEntry name entry []).map (items ++ ·) := replaceEntry_append hpassed []
      rw [List.append_nil] at hall
      rw [hall]
      rfl

/-- Entries are replaced, or one of them blocks the way. -/
theorem exists_replaced_or_blocked (name : CodePoints) (entry : JsonValue)
    (items : List JsonValue) :
    (∃ after, Replaced name entry items after) ∨
      ∃ passed bad rest, items = passed ++ bad :: rest ∧ (∀ item ∈ passed, Passes name item) ∧
        Blocks bad := by
  obtain hall | ⟨passed, first, rest, rfl, hpassed, hfound | hblocks⟩ := exists_first name items
  · exact .inl ⟨_, .added hall⟩
  · exact .inl ⟨_, .found rest hpassed hfound⟩
  · exact .inr ⟨passed, first, rest, rfl, hpassed, hblocks⟩

/-- A blueprint that is an object is updated in its validators. -/
theorem update_object (contract path : String) (members : List JsonMember) :
    update contract path (.object members) =
      (updateValidators (codePoints contract) (contractEntry contract path)
        ((JsonMember.find? validatorsKey members).getD (.list []))).map fun after =>
          .object (JsonMember.insert validatorsKey after members) := by
  change (updateValidators _ _ ((JsonMember.find? validatorsKey members).getD (.list [])) >>=
    fun after => .ok (JsonValue.object (JsonMember.insert validatorsKey after members))) = _
  cases updateValidators (codePoints contract) (contractEntry contract path)
    ((JsonMember.find? validatorsKey members).getD (.list [])) <;> rfl

theorem updateValidators_list (name : CodePoints) (entry : JsonValue) (items : List JsonValue) :
    updateValidators name entry (.list items) = (replaceEntry name entry items).map .list := by
  rw [updateValidators]
  cases replaceEntry name entry items <;> rfl

/-- An update of an object whose validators are replaced. -/
theorem update_of_replaced {c : Compiled} {members : List JsonMember} {items after : List JsonValue}
    (hitems : (JsonMember.find? validatorsKey members).getD (.list []) = .list items)
    (h : Replaced (codePoints c.contract) c.entry items after) :
    update c.contract c.path (.object members) =
      .ok (.object (JsonMember.insert validatorsKey (.list after) members)) := by
  rw [update_object, hitems, updateValidators_list, ← Compiled.entry,
    replaceEntry_eq_ok_of_replaced h]
  rfl

/-- What an update should do is what it does. -/
theorem update_of_updated {c : Compiled} {before after : JsonValue} (h : Updated c before after) :
    update c.contract c.path before = .ok after := by
  cases h with
  | listed last hfirst hreplaced =>
      rw [update_of_replaced (by rw [find?_append_of_notMem hfirst, Option.getD_some]) hreplaced,
        insert_append_of_notMem hfirst]
  | unlisted hnone =>
      rw [update_of_replaced (by rw [find?_of_notMem hnone, Option.getD_none]) (.added (by simp)),
        JsonReader.insert_of_notMem hnone]
      rfl

/-- A blueprint that does not fit is not updated. -/
theorem exists_error_of_unfit {contract : String} {before : JsonValue} (path : String)
    (h : Unfit (codePoints contract) (some before)) :
    ∃ fault, update contract path before = .error fault := by
  cases h with
  | shapeless hshape =>
      cases before with
      | object members => exact absurd rfl (hshape members)
      | _ => exact ⟨_, rfl⟩
  | @unlisted members value hfind hlist =>
      obtain ⟨fault, hfault⟩ : ∃ fault, updateValidators (codePoints contract)
          (contractEntry contract path) value = .error fault := by
        unfold updateValidators
        split
        · exact absurd rfl (hlist _)
        all_goals exact ⟨_, rfl⟩
      exact ⟨fault, by rw [update_object, hfind, Option.getD_some, hfault]; rfl⟩
  | @blocked members passed rest entry hfind hpassed hblocks =>
      obtain ⟨fault, hfault⟩ : ∃ fault, replaceEntry (codePoints contract)
          (contractEntry contract path) (entry :: rest) = .error fault :=
        replaceEntry_of_blocks hblocks rest
      refine ⟨fault, ?_⟩
      rw [update_object, hfind, Option.getD_some, updateValidators_list,
        replaceEntry_append hpassed,
        hfault]
      rfl

/-- A blueprint can be updated unless it is unfit. -/
theorem exists_updated_or_unfit (c : Compiled) (before : JsonValue) :
    (∃ after, Updated c before after) ∨ Unfit (codePoints c.contract) (some before) := by
  cases before with
  | object members =>
      obtain hnone | ⟨first, value, last, rfl, hfirst⟩ :=
        notMem_or_exists_append validatorsKey members
      · exact .inl ⟨_, .unlisted hnone⟩
      · have hfind := find?_append_of_notMem hfirst value last
        cases value with
        | list items =>
            obtain ⟨after, hreplaced⟩ | ⟨passed, bad, rest, rfl, hpassed, hblocks⟩ :=
              exists_replaced_or_blocked (codePoints c.contract) c.entry items
            · exact .inl ⟨_, .listed last hfirst hreplaced⟩
            · exact .inr (.blocked hfind hpassed hblocks)
        | _ => exact .inr (.unlisted hfind (by simp))
  | _ => exact .inr (.shapeless (by simp))

/-! ## The same update again -/

/-- The title of a contract's entry contains a name where the name occurs in it. -/
theorem Compiled.contains_title (c : Compiled) (name : String) :
    Contains (codePoints name) (Blueprint.title c.entry) ↔ name.toList <:+: c.title.toList := by
  have htitle : Blueprint.title c.entry = .text (codePoints c.title) := rfl
  have hempty : (JsonValue.text (codePoints c.title)).isEmpty = false := by
    rw [Bool.eq_false_iff]
    intro hempty
    exact c.title_ne_empty (codePoints_injective (List.isEmpty_iff.mp hempty))
  rw [htitle, Contains, hempty]
  exact codePoints_infix

/-- The entry of a contract has the name of the contract in its title. -/
theorem Compiled.found_entry (c : Compiled) : Found (codePoints c.contract) c.entry := by
  refine ⟨⟨_, rfl⟩, .inr (.inl ⟨_, rfl⟩), (c.contains_title c.contract).mpr ?_⟩
  exact ⟨[], ".spend".toList, by simp [Compiled.title]⟩

/-- The entry of another contract is passed if the name does not occur in its title. -/
theorem Compiled.passes_entry {c other : Compiled} (h : ¬ c.OccursIn other) :
    Passes (codePoints c.contract) other.entry :=
  ⟨⟨_, rfl⟩, .inr (.inl ⟨_, rfl⟩),
    fun hcontains => h ((other.contains_title c.contract).mp hcontains)⟩

/-- An entry that was put in is found at its place when it is put in again. -/
theorem Replaced.again {c : Compiled} {items after : List JsonValue}
    (h : Replaced (codePoints c.contract) c.entry items after) :
    Replaced (codePoints c.contract) c.entry after after := by
  cases h with
  | found rest hpassed _ => exact .found rest hpassed c.found_entry
  | added hpassed => exact .found [] hpassed c.found_entry

/-- An update finds its own entry and puts it in again. -/
theorem Updated.again {c : Compiled} {before after : JsonValue} (h : Updated c before after) :
    Updated c after after := by
  cases h with
  | listed last hfirst hreplaced => exact .listed last hfirst hreplaced.again
  | unlisted hnone =>
      have hadded : Replaced (codePoints c.contract) c.entry [] [c.entry] := .added (by simp)
      exact .listed [] hnone hadded.again

/-- Members survive being written and read if each of their values does. -/
theorem rereadMembers_eq_self_iff {members : List JsonMember} :
    JsonValue.rereadMembers members = members ↔ ∀ m ∈ members, m.value.reread = m.value := by
  induction members with
  | nil => simp [JsonValue.rereadMembers]
  | cons m rest ih =>
      cases m with
      | mk k v => simp [JsonValue.rereadMembers, ih, JsonMember.value]

/-- Items survive being written and read if each of them does. -/
theorem rereadItems_eq_self_iff {items : List JsonValue} :
    JsonValue.rereadItems items = items ↔ ∀ item ∈ items, item.reread = item := by
  induction items with
  | nil => simp [JsonValue.rereadItems]
  | cons item rest ih => simp [JsonValue.rereadItems, ih]

/-- A blueprint that is read as it was written is so after an update. -/
theorem Updated.reread_eq {c : Compiled} {before after : JsonValue} (h : Updated c before after)
    (hbefore : before.reread = before) : after.reread = after := by
  have hentry : c.entry.reread = c.entry := rfl
  cases h with
  | listed last hfirst hreplaced =>
      simp only [JsonValue.reread, JsonValue.object.injEq, rereadMembers_eq_self_iff,
        List.forall_mem_append, List.forall_mem_cons, JsonMember.value, JsonValue.list.injEq,
        rereadItems_eq_self_iff] at hbefore ⊢
      refine ⟨hbefore.1, ?_, hbefore.2.2⟩
      cases hreplaced with
      | found rest _ _ =>
          simp only [List.forall_mem_append, List.forall_mem_cons] at hbefore ⊢
          exact ⟨hbefore.2.1.1, hentry, hbefore.2.1.2.2⟩
      | added _ => exact List.forall_mem_append.mpr ⟨hbefore.2.1, by simpa using hentry⟩
  | unlisted hnone =>
      simp only [JsonValue.reread, JsonValue.object.injEq, rereadMembers_eq_self_iff,
        List.forall_mem_append] at hbefore ⊢
      exact ⟨hbefore, by simp [JsonMember.value, JsonValue.reread, JsonValue.rereadItems, hentry]⟩

/-! ## Files -/

theorem toOption_eq_some_iff {ε α : Type} {result : Except ε α} {value : α} :
    result.toOption = some value ↔ result = .ok value := by
  cases result <;> simp [Except.toOption]

/-- What a file holds is read from its bytes. -/
theorem exists_of_held? {tree : FileTree} {path : String} {value : JsonValue}
    (h : held? tree path = some value) :
    ∃ bytes text, tree.read path = .ok bytes ∧ readText bytes = .ok text ∧
      JsonReader.read text.toList = .ok value := by
  simp only [held?, Option.bind_eq_bind, Option.bind_eq_some_iff, toOption_eq_some_iff] at h
  obtain ⟨bytes, hbytes, text, htext, hvalue⟩ := h
  exact ⟨bytes, text, hbytes, htext, hvalue⟩

/-- A file whose blueprint can be updated is written with the updated one. -/
theorem updateFile_of_updated {tree written : FileTree} {path : String} {c : Compiled}
    {before after : JsonValue} (shown : String) (hheld : held? tree path = some before)
    (hupdated : Updated c before after) (hwrite : tree.write path after.render = .ok written) :
    updateFile tree path shown c.contract c.path = .ok (after, written) := by
  obtain ⟨bytes, text, hbytes, htext, hvalue⟩ := exists_of_held? hheld
  simp [updateFile, updateBytes, hbytes, htext, hvalue, update_of_updated hupdated, hwrite,
    Except.mapError, bind, Except.bind, pure, Except.pure]

/-- What one update does to a file that can be written. It fails exactly if what the file holds is
unfit, and the command that records contracts then goes on with the files as they were. Where it
succeeds, the blueprint that it gives is the old one with the entry of the contract put in, the file
holds that blueprint, and the same update gives the same blueprint and leaves all files as they are.
Values of the file are taken to be read as they are written. -/
theorem updateFile_once {tree : FileTree} {path : String} (shown : String) (c : Compiled)
    (hwrite : ∀ content, ∃ written, tree.write path content = .ok written)
    (hround : ∀ before, held? tree path = some before →
      JsonReader.read before.render.toList = .ok before) :
    ((∃ e, updateFile tree path shown c.contract c.path = .error e) ↔
      Unfit (codePoints c.contract) (held? tree path)) ∧
    (∀ here e, path = Path.join here.directory "plutus.json" →
      updateFile tree path path c.contract c.path = .error e →
      (Command.recordContract here tree c.contract c.path).2 = tree) ∧
    ∀ after written, updateFile tree path shown c.contract c.path = .ok (after, written) →
      ∃ before, held? tree path = some before ∧ Updated c before after ∧
        held? written path = some after ∧
        updateFile written path shown c.contract c.path = .ok (after, written) := by
  have hupdates (before : JsonValue) (hheld : held? tree path = some before) {after : JsonValue}
      (hupdated : Updated c before after) :
      ∃ written, tree.write path after.render = .ok written ∧
        updateFile tree path shown c.contract c.path = .ok (after, written) := by
    obtain ⟨written, hwritten⟩ := hwrite after.render
    exact ⟨written, hwritten, updateFile_of_updated shown hheld hupdated hwritten⟩
  refine ⟨⟨?_, ?_⟩, ?_, ?_⟩
  · rintro ⟨e, hfails⟩
    cases hheld : held? tree path with
    | none => exact .unreadable
    | some before =>
        obtain ⟨after, hupdated⟩ | hunfit := exists_updated_or_unfit c before
        · obtain ⟨written, -, hupdates⟩ := hupdates before hheld hupdated
          cases hfails.symm.trans hupdates
        · exact hunfit
  · intro hunfit
    cases hupdate : updateFile tree path shown c.contract c.path with
    | error e => exact ⟨e, rfl⟩
    | ok result =>
        obtain ⟨before, hheld, hupdated, -⟩ := exists_of_updateFile hupdate
        rw [hheld] at hunfit
        obtain ⟨fault, hfault⟩ := exists_error_of_unfit c.path hunfit
        cases hfault.symm.trans hupdated
  · rintro here e rfl hfails
    rw [Command.recordContract]
    split
    · rw [hfails]
    · rfl
  · intro after written hupdate
    obtain ⟨before, hheld, hok, hafter⟩ := exists_of_updateFile hupdate
    have hupdated : Updated c before after := by
      obtain ⟨other, hother⟩ | hunfit := exists_updated_or_unfit c before
      · obtain rfl := Except.ok.inj ((update_of_updated hother).symm.trans hok)
        exact hother
      · obtain ⟨fault, hfault⟩ := exists_error_of_unfit c.path hunfit
        cases hfault.symm.trans hok
    have hbefore : before.reread = before := by
      obtain ⟨_, _, -, -, hread⟩ := exists_of_held? hheld
      have hreread := JsonReader.read_render (JsonReader.proper_of_read hread)
      exact Except.ok.inj (hreread.symm.trans (hround before hheld))
    rw [hupdated.reread_eq hbefore] at hafter
    obtain ⟨other, hwritten, hagain⟩ := hupdates before hheld hupdated
    obtain ⟨-, rfl⟩ := Prod.mk.inj (Except.ok.inj (hupdate.symm.trans hagain))
    exact ⟨before, hheld, hupdated, hafter,
      updateFile_of_updated shown hafter hupdated.again (FileTree.write_of_write hwritten)⟩

/-- A blueprint with an entry of another contract and an older one of the contract. -/
def vaults : JsonValue :=
  listing (Compiled.entry ⟨"oracle", "oracle.ak"⟩) [⟨"vault", "old.ak"⟩]

theorem updateFile_once_vaults :
    (∀ content, ∃ written, (holding vaults).write "/plutus.json" content = .ok written) ∧
      held? (holding vaults) "/plutus.json" = some vaults ∧
      JsonReader.read vaults.render.toList = .ok vaults ∧
      ¬ Unfit (codePoints "vault") (some vaults) ∧
      ∃ after written,
        updateFile (holding vaults) "/plutus.json" "plutus.json" "vault" "vault.ak" =
          .ok (after, written) ∧
        Updated ⟨"vault", "vault.ak"⟩ vaults after ∧ held? written "/plutus.json" = some after ∧
        updateFile written "/plutus.json" "plutus.json" "vault" "vault.ak" =
          .ok (after, written) := by
  have hstable : Stable vaults := stable_listing (Compiled.stands_entry _) _
  have hheld := held?_holding hstable
  have hwrite (content : String) :
      ∃ written, (holding vaults).write "/plutus.json" content = .ok written := ⟨_, rfl⟩
  have hread : JsonReader.read vaults.render.toList = .ok vaults := by
    rw [JsonReader.read_render hstable.proper, hstable.reread]
  have hpassed : ∀ item ∈ [Compiled.entry ⟨"oracle", "oracle.ak"⟩],
      Passes (codePoints "vault") item := by
    have hother : ¬ Compiled.OccursIn ⟨"vault", "vault.ak"⟩ ⟨"oracle", "oracle.ak"⟩ := by decide
    simpa using Compiled.passes_entry hother
  have hreplaced : Replaced (codePoints "vault") (Compiled.entry ⟨"vault", "vault.ak"⟩)
      ([Compiled.entry ⟨"oracle", "oracle.ak"⟩] ++ [Compiled.entry ⟨"vault", "old.ak"⟩]) _ :=
    .found [] hpassed (Compiled.found_entry ⟨"vault", "old.ak"⟩)
  have hupdated : Updated ⟨"vault", "vault.ak"⟩ vaults _ :=
    @Updated.listed ⟨"vault", "vault.ak"⟩ [] [] _ _ (by simp) hreplaced
  have hround (before : JsonValue) (hbefore : held? (holding vaults) "/plutus.json" = some before) :
      JsonReader.read before.render.toList = .ok before := by
    obtain rfl := Option.some.inj (hheld.symm.trans hbefore)
    exact hread
  obtain ⟨written, hwritten⟩ := hwrite (JsonValue.render _)
  have hupdate := updateFile_of_updated "plutus.json" hheld hupdated hwritten
  obtain ⟨hfails, -, honce⟩ :=
    updateFile_once "plutus.json" ⟨"vault", "vault.ak"⟩ hwrite hround
  obtain ⟨before, hbefore, hafter⟩ := honce _ _ hupdate
  obtain rfl := Option.some.inj (hheld.symm.trans hbefore)
  refine ⟨hwrite, hheld, hread, fun hunfit => ?_, _, _, hupdate, hafter⟩
  obtain ⟨e, hfault⟩ := hfails.mpr (hheld ▸ hunfit)
  cases hfault.symm.trans hupdate

end AikenForge.Blueprint
