/-
# Entries that survive

Contracts are recorded one after the other in one file. Whatever the file held before, a contract
has its entry at the end if no later name occurs in the title of that entry. Otherwise it need not:
there is a file in which the contract takes over the first entry, which the first contract of such a
name then takes over in turn.
-/

import AikenForge.Proofs.Blueprint.Entries
import AikenForge.Proofs.Files
import AikenForge.Proofs.Json.Bytes

namespace AikenForge.Blueprint

open AikenForge.Text

/-- Record contracts one after the other in the blueprint file at a path. -/
def updateEach (path shown : String) : FileTree → List Compiled → Except UpdateError FileTree
  | tree, [] => .ok tree
  | tree, c :: rest => do
    let (_, tree) ← updateFile tree path shown c.contract c.path
    updateEach path shown tree rest

/-- The blueprint that the file at a path holds. -/
def held? (tree : FileTree) (path : String) : Option JsonValue := do
  let bytes ← (tree.read path).toOption
  let text ← (readText bytes).toOption
  (JsonReader.read text.toList).toOption

/-- Whether a contract has its entry in the blueprint file at a path. -/
def isRecorded (tree : FileTree) (path : String) (c : Compiled) : Bool :=
  (held? tree path).any fun blueprint => lists blueprint c

/-! ## What one update keeps -/

/-- An update replaces the blueprint that the file holds by the updated one, as it is read back. -/
theorem exists_of_updateFile {tree after : FileTree} {path shown : String} {c : Compiled}
    {blueprint : JsonValue}
    (h : updateFile tree path shown c.contract c.path = .ok (blueprint, after)) :
    ∃ before, held? tree path = some before ∧ update c.contract c.path before = .ok blueprint ∧
      held? after path = some blueprint.reread := by
  simp only [updateFile, updateBytes, bind_eq_ok, mapError_eq_ok] at h
  obtain ⟨bytes, hread, updated, ⟨text, htext, before, hbefore, hupdate⟩, written, hwritten,
    hresult⟩ := h
  cases hresult
  have hafter := FileTree.read_of_write hwritten
  have hproper := proper_of_update hupdate (JsonReader.proper_of_read hbefore)
  refine ⟨before, ?_, hupdate, ?_⟩
  · simp [held?, hread, htext, hbefore, Except.toOption]
  · simp [held?, hafter, readText_encodeUtf8_render, JsonReader.read_render hproper,
      Except.toOption]

/-- A contract has its entry right after its own update. -/
theorem isRecorded_of_updateFile {tree after : FileTree} {path shown : String} {c : Compiled}
    {blueprint : JsonValue}
    (h : updateFile tree path shown c.contract c.path = .ok (blueprint, after)) :
    isRecorded after path c = true := by
  obtain ⟨before, -, hupdate, hafter⟩ := exists_of_updateFile h
  rw [isRecorded, hafter, Option.any_some, lists_reread]
  exact lists_of_update hupdate

/-- It keeps the entry in an update by a name that does not occur in its title. -/
theorem isRecorded_of_updateFile_of_not_occursIn {tree after : FileTree} {path shown : String}
    {c other : Compiled} {blueprint : JsonValue}
    (h : updateFile tree path shown other.contract other.path = .ok (blueprint, after))
    (hrecorded : isRecorded tree path c = true) (hname : ¬ other.OccursIn c) :
    isRecorded after path c = true := by
  obtain ⟨before, hbefore, hupdate, hafter⟩ := exists_of_updateFile h
  rw [isRecorded, hbefore, Option.any_some] at hrecorded
  rw [isRecorded, hafter, Option.any_some, lists_reread]
  exact lists_of_update_of_not_occursIn hupdate hrecorded hname

/-! ## What a sequence of updates keeps -/

/-- The first update, and those after it. -/
theorem updateEach_cons {path shown : String} {tree between : FileTree} {c : Compiled}
    {blueprint : JsonValue}
    (h : updateFile tree path shown c.contract c.path = .ok (blueprint, between))
    (rest : List Compiled) :
    updateEach path shown tree (c :: rest) = updateEach path shown between rest := by
  rw [updateEach, h]
  rfl

/-- A sequence of updates in two parts goes on from where the first part ends. -/
theorem updateEach_append (path shown : String) (tree : FileTree) (first last : List Compiled) :
    updateEach path shown tree (first ++ last) =
      updateEach path shown tree first >>= fun between => updateEach path shown between last := by
  induction first generalizing tree with
  | nil => rfl
  | cons c rest ih =>
      rw [List.cons_append, updateEach, updateEach]
      cases updateFile tree path shown c.contract c.path with
      | error e => rfl
      | ok result => exact ih result.2

/-- Updates go on from what was reached. -/
theorem updateEach_append_of_ok {path shown : String} {tree between : FileTree}
    {first : List Compiled}
    (h : updateEach path shown tree first = .ok between) (last : List Compiled) :
    updateEach path shown tree (first ++ last) = updateEach path shown between last := by
  rw [updateEach_append, h]
  rfl

/-- A contract that is recorded stays so while no name that occurs in its title is recorded. -/
theorem isRecorded_of_updateEach {path shown : String}
    {c : Compiled} {later : List Compiled} (hnames : ∀ other ∈ later, ¬ other.OccursIn c)
    {tree final : FileTree} (h : updateEach path shown tree later = .ok final)
    (hrecorded : isRecorded tree path c = true) : isRecorded final path c = true := by
  induction later generalizing tree with
  | nil =>
      cases h
      exact hrecorded
  | cons other rest ih =>
      obtain ⟨⟨blueprint, between⟩, hstep, hrest⟩ := bind_eq_ok.mp h
      have hbetween := isRecorded_of_updateFile_of_not_occursIn hstep hrecorded
        (hnames other List.mem_cons_self)
      exact ih (fun o ho => hnames o (List.mem_cons_of_mem _ ho)) hrest hbetween

/-! ## A file in which an entry is lost -/

/-- An entry that a contract takes over and no other does. -/
def claimed (c : Compiled) : JsonValue :=
  .ofFields [("title", .list [.string c.contract])]

/-- A blueprint that lists an entry and then the entries of contracts. -/
def listing (first : JsonValue) (known : List Compiled) : JsonValue :=
  .ofFields [("validators", .list (first :: known.map Compiled.entry))]

/-- The tree with nothing but a file that holds a blueprint. -/
def holding (blueprint : JsonValue) : FileTree :=
  { files := [("/plutus.json", encodeUtf8 blueprint.render)] }

/-- A value that is read as it was written. -/
structure Stable (value : JsonValue) : Prop where
  proper : value.Proper
  reread : value.reread = value

/-- An entry that is read as it was written and has the members of an object. -/
structure Stands (entry : JsonValue) : Prop extends Stable entry where
  object : ∃ members, entry = .object members

/-- An entry stands as it is when it is read back. -/
theorem Compiled.stands_entry (c : Compiled) : Stands c.entry :=
  ⟨⟨c.proper_entry, rfl⟩, _, rfl⟩

theorem stands_claimed (c : Compiled) : Stands (claimed c) := by
  refine ⟨⟨proper_ofFields ?_ (by simp), rfl⟩, _, rfl⟩
  have hlist : (JsonValue.list [.string c.contract]).Proper := ⟨proper_string c.contract, trivial⟩
  simpa using hlist

theorem stable_empty : Stable (.object []) :=
  ⟨JsonReader.properObject_nil, rfl⟩

/-- A list of entries stands as it is when it is read back. -/
theorem stable_listing {first : JsonValue} (h : Stands first) (known : List Compiled) :
    Stable (listing first known) := by
  constructor
  · have hitems : (JsonValue.list (first :: known.map Compiled.entry)).Proper := by
      refine JsonValue.properItems_iff.mpr fun item hitem => ?_
      rcases List.mem_cons.mp hitem with rfl | hitem
      · exact h.proper
      · obtain ⟨k, -, rfl⟩ := List.mem_map.mp hitem
        exact k.proper_entry
    exact proper_ofFields (by simpa using hitems) (by simp)
  · have hentry (k : Compiled) : k.entry.reread = k.entry := rfl
    simp [listing, JsonValue.ofFields, JsonValue.reread, JsonValue.rereadMembers,
      JsonValue.rereadItems, JsonValue.rereadItems_eq_map, h.reread, hentry, Function.comp_def]

theorem read_holding (blueprint : JsonValue) :
    (holding blueprint).read "/plutus.json" = .ok (encodeUtf8 blueprint.render) :=
  rfl

/-- A file that holds a stable blueprint is read as that. -/
theorem held?_holding {blueprint : JsonValue} (h : Stable blueprint) :
    held? (holding blueprint) "/plutus.json" = some blueprint := by
  simp [held?, read_holding, readText_encodeUtf8_render, JsonReader.read_render h.proper, h.reread,
    Except.toOption]

/-- Updating such a file leaves one that holds the updated blueprint. -/
theorem updateFile_holding {blueprint after : JsonValue} (h : Stable blueprint) (shown : String)
    {c : Compiled} (hupdate : update c.contract c.path blueprint = .ok after) :
    updateFile (holding blueprint) "/plutus.json" shown c.contract c.path =
      .ok (after, holding after) := by
  have hbytes : updateBytes c.contract c.path (encodeUtf8 blueprint.render) = .ok after := by
    simp [updateBytes, readText_encodeUtf8_render, JsonReader.read_render h.proper,
      h.reread, hupdate,
      Except.mapError, bind, Except.bind]
  have hwrite (content : String) : (holding blueprint).write "/plutus.json" content =
      .ok { files := [("/plutus.json", encodeUtf8 content)] } := rfl
  simp only [updateFile, read_holding, hbytes, hwrite, Except.mapError, bind, Except.bind]
  rfl

/-- A blueprint with validators alone is updated entry by entry. -/
theorem update_validators (contract path : String) (items : List JsonValue) :
    update contract path (.ofFields [("validators", .list items)]) =
      (replaceEntry (codePoints contract) (contractEntry contract path) items).map fun found =>
        .ofFields [("validators", .list found)] := by
  have hfind : JsonMember.find? (codePoints "validators")
      [.mk (codePoints "validators") (.list items)] = some (.list items) := by
    rw [JsonMember.find?_cons, if_pos rfl]
  change (do
    let after ← updateValidators (codePoints contract) (contractEntry contract path)
      ((JsonMember.find? (codePoints "validators")
        [.mk (codePoints "validators") (.list items)]).getD (.list []))
    return JsonValue.object (JsonMember.insert (codePoints "validators") after
      [.mk (codePoints "validators") (.list items)])) = _
  rw [hfind, Option.getD_some, updateValidators]
  cases replaceEntry (codePoints contract) (contractEntry contract path) items <;> rfl

/-- The first entry is replaced or passed. -/
theorem replaceEntry_cons {name : CodePoints} {entry first : JsonValue} (h : Stands first)
    (rest : List JsonValue) {found : Bool} (hfound : titleContains name (title first) = .ok found) :
    replaceEntry name entry (first :: rest) =
      if found then .ok (entry :: rest) else (replaceEntry name entry rest).map (first :: ·) := by
  obtain ⟨members, rfl⟩ := h.object
  have htitle : titleContains name ((JsonMember.find? (codePoints "title") members).getD .null) =
      .ok found := hfound
  rw [replaceEntry, htitle]
  cases found
  · cases replaceEntry name entry rest <;> rfl
  · rfl

/-- Among the entries of contracts there is room for another. -/
theorem exists_replaceEntry_entries (c : Compiled) (known : List Compiled) :
    ∃ known' : List Compiled,
      replaceEntry (codePoints c.contract) c.entry (known.map Compiled.entry) =
        .ok (known'.map Compiled.entry) ∧ ∀ k ∈ known', k = c ∨ k ∈ known := by
  induction known with
  | nil => exact ⟨[c], rfl, by simp⟩
  | cons k rest ih =>
      have hfound : titleContains (codePoints c.contract) (title k.entry) =
          .ok (occursIn (codePoints c.contract) (codePoints k.title)) :=
        titleContains_string _ k.title_ne_empty
      rw [List.map_cons, replaceEntry_cons k.stands_entry _ hfound]
      split
      · refine ⟨c :: rest, rfl, fun other hother => ?_⟩
        exact (List.mem_cons.mp hother).imp_right (List.mem_cons_of_mem k)
      · obtain ⟨known', hreplace, hknown⟩ := ih
        refine ⟨k :: known', by rw [hreplace]; rfl, fun other hother => ?_⟩
        rcases List.mem_cons.mp hother with rfl | hrest
        · exact .inr List.mem_cons_self
        · exact (hknown other hrest).imp_right (List.mem_cons_of_mem k)

/-- A first entry whose title contains the name of a contract gives way to the contract's entry. -/
theorem updateFile_takes {first : JsonValue} (h : Stands first) (known : List Compiled)
    (shown : String)
    {c : Compiled} (hfound : titleContains (codePoints c.contract) (title first) = .ok true) :
    updateFile (holding (listing first known)) "/plutus.json" shown c.contract c.path =
      .ok (listing c.entry known, holding (listing c.entry known)) := by
  refine updateFile_holding (stable_listing h known) shown ?_
  rw [listing, update_validators, replaceEntry_cons h _ hfound, if_pos rfl]
  rfl

/-- A first entry whose title does not contain the name of a contract stays first. -/
theorem updateFile_passes {first : JsonValue} (h : Stands first) (known : List Compiled)
    (shown : String) {c : Compiled}
    (hfound : titleContains (codePoints c.contract) (title first) = .ok false) :
    ∃ known', updateFile (holding (listing first known)) "/plutus.json" shown c.contract c.path =
        .ok (listing first known', holding (listing first known')) ∧
      ∀ k ∈ known', k = c ∨ k ∈ known := by
  obtain ⟨known', hreplace, hknown⟩ := exists_replaceEntry_entries c known
  refine ⟨known', updateFile_holding (stable_listing h known) shown ?_, hknown⟩
  rw [listing, update_validators, replaceEntry_cons h _ hfound, if_neg Bool.false_ne_true]
  exact congrArg (fun result => (result.map (first :: ·)).map fun found =>
    JsonValue.ofFields [("validators", .list found)]) hreplace

/-- Contracts with other names than one. -/
def Others (c : Compiled) (known : List Compiled) : Prop :=
  ∀ k ∈ known, k.contract ≠ c.contract

theorem Others.tail {c k : Compiled} {rest : List Compiled} (h : Others c (k :: rest)) :
    Others c rest :=
  fun other hother => h other (List.mem_cons_of_mem k hother)

/-- The entries of other contracts stay those of other contracts. -/
theorem Others.of_mem_or {c k : Compiled} {known known' : List Compiled} (h : Others c known)
    (hk : k.contract ≠ c.contract) (hknown : ∀ other ∈ known', other = k ∨ other ∈ known) :
    Others c known' := by
  intro other hother
  rcases hknown other hother with rfl | hold
  · exact hk
  · exact h other hold

/-- The first entry stays first while no contract comes whose name its title contains. -/
theorem exists_updateEach_passes {first : JsonValue} (h : Stands first) (shown : String)
    {c : Compiled}
    {updates known : List Compiled} (hupdates : Others c updates) (hknown : Others c known)
    (hfound : ∀ u ∈ updates, titleContains (codePoints u.contract) (title first) = .ok false) :
    ∃ known', updateEach "/plutus.json" shown (holding (listing first known)) updates =
      .ok (holding (listing first known')) ∧ Others c known' := by
  induction updates generalizing known with
  | nil => exact ⟨known, rfl, hknown⟩
  | cons u rest ih =>
      obtain ⟨between, hstep, hbetween⟩ :=
        updateFile_passes h known shown (hfound u List.mem_cons_self)
      obtain ⟨known', hrest, hothers⟩ := ih hupdates.tail
        (hknown.of_mem_or (hupdates u List.mem_cons_self) hbetween)
        fun v hv => hfound v (List.mem_cons_of_mem u hv)
      exact ⟨known', (updateEach_cons hstep rest).trans hrest, hothers⟩

/-- Other contracts than one do not bring its entry back. -/
theorem exists_updateEach_others (shown : String) {c first : Compiled}
    {updates known : List Compiled}
    (hupdates : Others c updates) (hknown : Others c (first :: known)) :
    ∃ first' known', updateEach "/plutus.json" shown (holding (listing first.entry known)) updates =
      .ok (holding (listing first'.entry known')) ∧ Others c (first' :: known') := by
  induction updates generalizing first known with
  | nil => exact ⟨first, known, rfl, hknown⟩
  | cons u rest ih =>
      have hu := hupdates u List.mem_cons_self
      have hfound : titleContains (codePoints u.contract) (title first.entry) =
          .ok (occursIn (codePoints u.contract) (codePoints first.title)) :=
        titleContains_string _ first.title_ne_empty
      cases hoccurs : occursIn (codePoints u.contract) (codePoints first.title) with
      | true =>
          rw [hoccurs] at hfound
          have hstep := updateFile_takes first.stands_entry known shown hfound
          have hnext : Others c (u :: known) := List.forall_mem_cons.mpr ⟨hu, hknown.tail⟩
          obtain ⟨first', known', hrest, hothers⟩ := ih hupdates.tail hnext
          exact ⟨first', known', (updateEach_cons hstep rest).trans hrest, hothers⟩
      | false =>
          rw [hoccurs] at hfound
          obtain ⟨between, hstep, hbetween⟩ :=
            updateFile_passes first.stands_entry known shown hfound
          have hnext : Others c (first :: between) := List.forall_mem_cons.mpr
            ⟨hknown first List.mem_cons_self, hknown.tail.of_mem_or hu hbetween⟩
          obtain ⟨first', known', hrest, hothers⟩ := ih hupdates.tail hnext
          exact ⟨first', known', (updateEach_cons hstep rest).trans hrest, hothers⟩

/-- A file that lists only other contracts does not list a contract. -/
theorem isRecorded_of_others {c first : Compiled} {known : List Compiled}
    (h : Others c (first :: known)) :
    isRecorded (holding (listing first.entry known)) "/plutus.json" c = false := by
  have hlisted : validators (listing first.entry known) = (first :: known).map Compiled.entry := by
    change validators (.object [.mk (codePoints "validators") _]) = _
    rw [validators, JsonMember.find?_cons, if_pos rfl]
    rfl
  rw [isRecorded, held?_holding (stable_listing first.stands_entry known), Option.any_some, lists,
    hlisted, List.any_eq_false]
  intro entry hentry hits
  obtain ⟨k, hk, rfl⟩ := List.mem_map.mp hentry
  have htitle := title_of_isEntryOf hits
  rw [title_entry] at htitle
  have hnames := codePoints_injective (JsonValue.text.inj htitle)
  exact h k hk (String.append_left_inj ".spend" |>.mp hnames)

/-- A claimed title contains the name of its own contract, and no other one. -/
theorem titleContains_claimed (name : String) (c : Compiled) :
    titleContains (codePoints name) (title (claimed c)) =
      .ok (codePoints c.contract == codePoints name) :=
  congrArg Except.ok (Bool.or_false _)

/-- A contract's entry is lost from some file if a later name occurs in its title. -/
theorem exists_not_isRecorded {before after : List Compiled} {c : Compiled} (shown : String)
    (hbefore : Others c before) (hafter : Others c after)
    (hlater : ∃ later ∈ after, later.OccursIn c) :
    ∃ start final, updateEach "/plutus.json" shown start (before ++ c :: after) = .ok final ∧
      isRecorded final "/plutus.json" c = false := by
  obtain ⟨later, hfirst⟩ : ∃ later, after.find? (·.OccursIn c) = some later := by
    obtain ⟨later, hmem, hoccurs⟩ := hlater
    exact Option.isSome_iff_exists.mp (List.find?_isSome.mpr ⟨later, hmem, decide_eq_true hoccurs⟩)
  obtain ⟨hoccurs, between, last, rfl, hbetween⟩ := List.find?_eq_some_iff_append.mp hfirst
  have hnone : Others c [] := by
    intro k hk
    cases hk
  -- The names before pass over the first entry, which waits for the contract alone.
  obtain ⟨known, hstart, hknown⟩ := exists_updateEach_passes (stands_claimed c) shown hbefore hnone
    fun u hu => by
      rw [titleContains_claimed]
      exact congrArg Except.ok (beq_false_of_ne fun h => hbefore u hu (codePoints_injective h.symm))
  have hown := updateFile_takes (stands_claimed c) known shown (c := c) (by
    rw [titleContains_claimed]
    exact congrArg Except.ok (beq_self_eq_true _))
  -- Those after it leave its entry there, up to the one whose name occurs in its title.
  have hsearch (u : Compiled) : titleContains (codePoints u.contract) (title c.entry) =
      .ok (occursIn (codePoints u.contract) (codePoints c.title)) :=
    titleContains_string _ c.title_ne_empty
  obtain ⟨known', hpass, hknown'⟩ := exists_updateEach_passes c.stands_entry shown
    (fun u hu => hafter u (List.mem_append_left _ hu)) hknown fun u hu => by
      rw [hsearch]
      refine congrArg Except.ok (Bool.eq_false_iff.mpr fun h => ?_)
      have hnot : ¬ u.OccursIn c := by simpa using hbetween u hu
      exact hnot (Compiled.occursIn_title.mp h)
  have htake := updateFile_takes c.stands_entry known' shown (c := later) (by
    rw [hsearch]
    exact congrArg Except.ok (Compiled.occursIn_title.mpr (of_decide_eq_true hoccurs)))
  have hlast : Others c last := fun u hu => hafter u (by simp [hu])
  have hlost : Others c (later :: known') :=
    List.forall_mem_cons.mpr ⟨hafter later (by simp), hknown'⟩
  obtain ⟨first, rest, hend, hothers⟩ := exists_updateEach_others shown hlast hlost
  refine ⟨holding (listing (claimed c) []), _, ?_, isRecorded_of_others hothers⟩
  rw [updateEach_append_of_ok hstart, updateEach_cons hown, updateEach_append_of_ok hpass,
    updateEach_cons htake, hend]

/-- The first contract of a blueprint without members is the first that it lists. -/
theorem updateFile_empty (c : Compiled) (shown : String) :
    updateFile (holding (.object [])) "/plutus.json" shown c.contract c.path =
      .ok (listing c.entry [], holding (listing c.entry [])) :=
  updateFile_holding stable_empty shown rfl

/-- A contract has its entry after the last of a sequence of updates, whatever the file held at
first, if and only if no later name occurs in the entry's title. -/
theorem isRecorded_iff_not_occursIn {before after : List Compiled} {c : Compiled}
    (hnames : ((before ++ c :: after).map Compiled.contract).Nodup) :
    (∀ (tree final : FileTree) (path shown : String),
        updateEach path shown tree (before ++ c :: after) = .ok final →
        isRecorded final path c = true) ↔
      ∀ later ∈ after, ¬ later.OccursIn c := by
  constructor
  · intro hall later hlater hoccurs
    rw [List.map_append, List.map_cons, List.nodup_append] at hnames
    obtain ⟨-, hcons, hdisjoint⟩ := hnames
    have hbefore : Others c before := fun u hu =>
      hdisjoint u.contract (List.mem_map_of_mem hu) c.contract List.mem_cons_self
    have hafter : Others c after := fun u hu h =>
      (List.nodup_cons.mp hcons).1 (h ▸ List.mem_map_of_mem hu)
    obtain ⟨start, final, hrun, hlost⟩ :=
      exists_not_isRecorded "plutus.json" hbefore hafter ⟨later, hlater, hoccurs⟩
    have hkept := hall start final "/plutus.json" "plutus.json" hrun
    rw [hlost] at hkept
    cases hkept
  · intro hnone tree final path shown hrun
    rw [updateEach_append] at hrun
    obtain ⟨between, -, hrest⟩ := bind_eq_ok.mp hrun
    obtain ⟨⟨blueprint, own⟩, hown, hlater⟩ := bind_eq_ok.mp hrest
    exact isRecorded_of_updateEach hnone hlater (isRecorded_of_updateFile hown)

/-- A longer name does not take the entry of a shorter one, which it contains. -/
theorem isRecorded_vault :
    ((([] ++ ⟨"vault", "vault.ak"⟩ :: [⟨"vault2", "vault2.ak"⟩]) : List Compiled).map
        Compiled.contract).Nodup ∧
      ∃ final, updateEach "/plutus.json" "plutus.json" (holding (.object []))
          [⟨"vault", "vault.ak"⟩, ⟨"vault2", "vault2.ak"⟩] = .ok final ∧
        isRecorded final "/plutus.json" ⟨"vault", "vault.ak"⟩ = true := by
  have hnames : ((([] ++ ⟨"vault", "vault.ak"⟩ :: [⟨"vault2", "vault2.ak"⟩]) : List Compiled).map
      Compiled.contract).Nodup := by decide
  have hkept := (isRecorded_iff_not_occursIn hnames).mpr (by decide)
  have hfirst := updateFile_empty ⟨"vault", "vault.ak"⟩ "plutus.json"
  obtain ⟨known, hsecond, -⟩ := updateFile_passes (Compiled.stands_entry ⟨"vault", "vault.ak"⟩) []
    "plutus.json" (c := ⟨"vault2", "vault2.ak"⟩) (by decide)
  have hrun := (updateEach_cons hfirst _).trans (updateEach_cons hsecond [])
  exact ⟨hnames, _, hrun, hkept _ _ _ _ hrun⟩

/-- A shorter name takes the entry of a longer one that contains it. -/
theorem not_isRecorded_vault2 :
    ¬ ∀ updates : List Compiled, (updates.map Compiled.contract).Nodup →
      (∀ c ∈ updates, c.contract ≠ "") →
      ∀ (tree final : FileTree) (path shown : String),
        updateEach path shown tree updates = .ok final →
        ∀ c ∈ updates, isRecorded final path c = true := by
  intro hall
  have hfirst := updateFile_empty ⟨"vault2", "vault2.ak"⟩ "plutus.json"
  have hsecond := updateFile_takes (Compiled.stands_entry ⟨"vault2", "vault2.ak"⟩) [] "plutus.json"
    (c := ⟨"vault", "vault.ak"⟩) (congrArg Except.ok (by decide : occursIn _ _ = true))
  have hrun := (updateEach_cons hfirst _).trans (updateEach_cons hsecond [])
  have hkept := hall [⟨"vault2", "vault2.ak"⟩, ⟨"vault", "vault.ak"⟩] (by decide)
    (by decide) _ _ _ _
    hrun ⟨"vault2", "vault2.ak"⟩ List.mem_cons_self
  rw [isRecorded_of_others (by simp [Others])] at hkept
  cases hkept

end AikenForge.Blueprint
