/-
# How generated text opens

The text of a module is a line feed, or it opens with a comment or with the word of a declaration.
No JSON opens like that, however the bytes after it are read. So a blueprint that generated text was
written over holds no blueprint any more, and is never updated.
-/

import AikenForge.Pipeline
import AikenForge.Project.Blueprint
import AikenForge.Proofs.Json.Bytes
import AikenForge.Proofs.Json.Proper

namespace AikenForge

open AikenForge.Text

/-- What a section of generated text opens with. -/
def openings : List String :=
  ["/", "use ", "pub ", "type ", "const ", "fn ", "validator ", "test "]

/-- Characters open like a section of generated text. -/
def OpensSection (cs : List Char) : Prop :=
  ∃ word ∈ openings, word.toList <+: cs

/-! ## Sections -/

/-- How a text opens does not change when more follows. -/
theorem OpensSection.append {cs : List Char} (h : OpensSection cs) (more : List Char) :
    OpensSection (cs ++ more) := by
  obtain ⟨word, hword, hprefix⟩ := h
  exact ⟨word, hword, hprefix.trans (List.prefix_append cs more)⟩

theorem OpensSection.append_text {text : String} (h : OpensSection text.toList) (more : String) :
    OpensSection (text ++ more).toList := by
  rw [String.toList_append]
  exact h.append _

/-- A text with one of the words before it. -/
theorem opensSection_of_mem {word : String} (h : word ∈ openings) (rest : String) :
    OpensSection (word ++ rest).toList :=
  ⟨word, h, by simp⟩

/-- Texts in a row open as the first of them does. -/
theorem opensSection_intercalate {text : String} (h : OpensSection text.toList) (separator : String)
    (rest : List String) : OpensSection (separator.intercalate (text :: rest)).toList := by
  rw [String.toList_intercalate]
  cases rest with
  | nil => simpa using h
  | cons next more =>
      rw [List.map_cons, List.map_cons, List.intercalate_cons_cons, List.append_assoc]
      exact h.append _

/-- Documentation opens with its marker. -/
theorem opensSection_marked {marker : String} (hmarker : marker.toList.head? = some '/')
    (docs : Documentation) : ∀ line ∈ docs.marked marker, OpensSection line.toList := by
  intro line hline
  obtain ⟨content, -, rfl⟩ := List.mem_map.mp hline
  obtain ⟨cs, hcs⟩ := List.head?_eq_some_iff.mp hmarker
  rw [stripEnd, String.toList_ofList, String.append_assoc, String.toList_append, hcs,
    List.cons_append, dropWhileEnd, List.reverse_cons, List.dropWhile_append]
  refine ⟨"/", by decide, ?_⟩
  split
  · exact ⟨[], rfl⟩
  · rw [List.reverse_append]
    exact List.prefix_append ['/'] _

/-- So does every line of it. -/
theorem opensSection_lines (options : Options) (docs : Documentation) :
    ∀ line ∈ docs.lines options, OpensSection line.toList := by
  intro line hline
  unfold Documentation.lines at hline
  split at hline
  · exact opensSection_marked rfl docs line hline
  · cases hline

/-- A declaration opens with its documentation, or else as its own text does. -/
theorem opensSection_documented (options : Options) (docs : Documentation) {text : String}
    (h : OpensSection text.toList) (rest : List String) :
    OpensSection (joinLines (docs.lines options ++ text :: rest)).toList := by
  cases hlines : docs.lines options with
  | nil => exact opensSection_intercalate h _ rest
  | cons line more =>
      have hline := opensSection_lines options docs line (hlines ▸ List.mem_cons_self)
      exact opensSection_intercalate hline _ _

/-- A block opens with its header. -/
theorem opensSection_bracedBlock {header : String} (h : OpensSection header.toList) (indent : Int)
    (body : String) : OpensSection (bracedBlock indent header body).toList := by
  exact ((h.append_text _).append_text _).append_text _

/-- The word of a declaration, after the one of a public declaration. -/
theorem opensSection_visibility {word : String} (h : word ∈ openings) (isPublic : Bool) :
    OpensSection (visibility isPublic ++ word).toList := by
  cases isPublic with
  | true => exact opensSection_of_mem (by decide : "pub " ∈ openings) word
  | false => exact ⟨word, h, by simp [visibility]⟩

/-- A constant opens with its documentation or its keyword. -/
theorem ConstantDeclaration.opensSection (options : Options) (d : ConstantDeclaration) :
    OpensSection (d.render options).toList := by
  refine opensSection_documented options d.docs ?_ []
  have hword := opensSection_visibility (by decide : "const " ∈ openings) d.isPublic
  exact (((hword.append_text _).append_text _).append_text _).append_text _

/-- So does a function. -/
theorem FunctionDeclaration.opensSection (options : Options) (f : FunctionDeclaration) :
    OpensSection (f.render options).toList := by
  refine opensSection_documented options f.docs (opensSection_bracedBlock ?_ _ _) []
  have hword := opensSection_visibility (by decide : "fn " ∈ openings) f.isPublic
  exact (((((hword.append_text _).append_text _).append_text _).append_text _).append_text
    _).append_text _

/-- So does a test. -/
theorem TestDeclaration.opensSection (options : Options) (t : TestDeclaration) :
    OpensSection (t.render options).toList := by
  refine opensSection_documented options t.docs (opensSection_bracedBlock ?_ _ _) []
  exact (opensSection_of_mem (by decide : "test " ∈ openings) t.name).append_text _

theorem TypeDeclaration.opensSection_keyword (d : TypeDeclaration) :
    OpensSection (d.keyword ++ " ").toList := by
  rw [keyword]
  split
  · exact ⟨"pub ", by decide, by decide⟩
  · cases d.isPublic with
    | true => exact ⟨"pub ", by decide, by decide⟩
    | false => exact ⟨"type ", by decide, by decide⟩

/-- So does a type. -/
theorem TypeDeclaration.opensSection {options : Options} {d : TypeDeclaration} {text : String}
    (h : d.render options = .ok text) : OpensSection text.toList := by
  have hheader := (d.opensSection_keyword.append_text d.name).append_text
    (typeParametersText d.typeParameters)
  unfold render at h
  split at h
  · obtain ⟨lines, -, heq⟩ := bind_eq_ok.mp h
    cases heq
    rw [List.append_assoc, List.append_assoc, List.singleton_append]
    exact opensSection_documented options d.docs (hheader.append_text _) _
  · cases h
    exact opensSection_documented options d.docs ((hheader.append_text _).append_text _) []

/-- What holds of each result holds of all of them. -/
theorem forall_of_mapM_ok {α β ε : Type} {f : α → Except ε β} {p : β → Prop} {values : List α}
    {results : List β} (h : values.mapM f = .ok results)
    (hp : ∀ value result, f value = .ok result → p result) : ∀ result ∈ results, p result := by
  induction values generalizing results with
  | nil =>
      cases h
      simp
  | cons value rest ih =>
      rw [List.mapM_cons] at h
      obtain ⟨first, hfirst, h⟩ := bind_eq_ok.mp h
      obtain ⟨others, hothers, h⟩ := bind_eq_ok.mp h
      cases h
      simpa using ⟨hp value first hfirst, ih hothers⟩

/-- A validator opens with its keyword. -/
theorem FunctionDeclaration.opensSection_validators {options : Options}
    {handlers : List FunctionDeclaration} {texts : List String}
    (h : renderValidators options handlers = .ok texts) :
    ∀ text ∈ texts, OpensSection text.toList := by
  refine forall_of_mapM_ok h fun ⟨contract, members⟩ text htext => ?_
  obtain ⟨blocks, -, heq⟩ := bind_eq_ok.mp htext
  cases heq
  exact opensSection_bracedBlock (opensSection_of_mem (by decide) contract) _ _

/-! ## Modules -/

/-- The import of builtins opens with its keyword. -/
theorem Registry.opensSection_importLine? {registry : Registry} {line : String}
    (h : registry.importLine? = some line) : OpensSection line.toList := by
  unfold importLine? at h
  split at h
  · cases h
  · cases h
    exact (((opensSection_of_mem (by decide : "use " ∈ openings) _).append_text _).append_text
      _).append_text _

/-- An import opens with its keyword. -/
theorem Import.opensSection (i : Import) : OpensSection i.render.toList :=
  ((opensSection_of_mem (by decide : "use " ∈ openings) i.module).append_text _).append_text _

/-- Every line above the declarations is an import. -/
theorem DeclaredModule.opensSection_useLines (registry : Option Registry) (m : DeclaredModule) :
    ∀ line ∈ m.useLines registry, OpensSection line.toList := by
  intro line hline
  rcases List.mem_append.mp hline with hline | hline
  · obtain ⟨found, -, hfound⟩ := Option.bind_eq_some_iff.mp (Option.mem_toList.mp hline)
    exact found.opensSection_importLine? hfound
  · obtain ⟨i, -, rfl⟩ := List.mem_map.mp hline
    exact i.opensSection

/-- Lines that open like sections are a section, if there are any. -/
theorem opensSection_of_lines {lines : List String} (h : ∀ line ∈ lines, OpensSection line.toList) :
    joinLines lines = "" ∨ OpensSection (joinLines lines).toList := by
  cases lines with
  | nil => exact .inl rfl
  | cons line rest => exact .inr (opensSection_intercalate (h line List.mem_cons_self) _ rest)

/-- Sections without those that have no text, and a line feed after them. -/
theorem opensSection_sections {sections : List String}
    (h : ∀ part ∈ sections, part = "" ∨ OpensSection part.toList) :
    "\n\n".intercalate (sections.filter fun text => !text.isEmpty) ++ "\n" = "\n" ∨
      OpensSection ("\n\n".intercalate (sections.filter fun text =>
        !text.isEmpty) ++ "\n").toList := by
  cases hkept : sections.filter fun text => !text.isEmpty with
  | nil => exact .inl rfl
  | cons first rest =>
      have hmem : first ∈ sections.filter fun text => !text.isEmpty := hkept ▸ List.mem_cons_self
      obtain ⟨hfirst, hne⟩ := List.mem_filter.mp hmem
      have hopens := (h first hfirst).resolve_left fun hempty => by simp [hempty] at hne
      exact .inr ((opensSection_intercalate hopens _ rest).append_text _)

/-- The text of a module is a line feed, or it opens like one of its sections. -/
theorem DeclaredModule.opens_render {options : Options} {registry : Option Registry}
    {m : DeclaredModule} {text : String} (h : m.render options registry = .ok text) :
    text = "\n" ∨ OpensSection text.toList := by
  obtain ⟨types, htypes, h⟩ := bind_eq_ok.mp h
  obtain ⟨validators, hvalidators, h⟩ := bind_eq_ok.mp h
  cases h
  refine opensSection_sections fun part hpart => ?_
  simp only [List.mem_append, List.mem_cons, List.not_mem_nil, or_false, List.mem_map] at hpart
  rcases hpart with
    (((((rfl | rfl) | htype) | ⟨d, -, rfl⟩) | ⟨f, -, rfl⟩) | hvalidator) | ⟨t, -, rfl⟩
  · refine opensSection_of_lines fun line hline => ?_
    split at hline
    · exact opensSection_marked rfl m.docs line hline
    · cases hline
  · exact opensSection_of_lines (m.opensSection_useLines registry)
  · exact .inr (forall_of_mapM_ok htypes (fun d text => TypeDeclaration.opensSection) part htype)
  · exact .inr (d.opensSection options)
  · exact .inr (f.opensSection options)
  · exact .inr (FunctionDeclaration.opensSection_validators hvalidators part hvalidator)
  · exact .inr (t.opensSection options)

/-! ## Reading -/

/-- No JSON opens like generated text. -/
theorem OpensSection.exists_read {cs : List Char} (h : OpensSection cs) :
    ∃ error, JsonReader.read cs = .error error := by
  obtain ⟨word, hword, rest, rfl⟩ := h
  simp only [openings, List.mem_cons, List.not_mem_nil, or_false] at hword
  rcases hword with rfl | rfl | rfl | rfl | rfl | rfl | rfl | rfl <;> exact ⟨_, rfl⟩

/-- A file that opens like generated text is read as text that opens so. -/
theorem OpensSection.of_readText {text source : String} (h : OpensSection text.toList)
    (hread : readText (encodeUtf8 text) = .ok source) : OpensSection source.toList := by
  obtain ⟨word, hword, rest, htext⟩ := h
  have hplain : word.toList.all isPlain = true := by
    have hall : ∀ word ∈ openings, word.toList.all isPlain = true := by decide
    exact hall word hword
  rw [readText, decodeUtf8, encodeUtf8, ← htext, List.flatMap_append,
    decodeUtf8From_append hplain] at hread
  cases hdecoded : decodeUtf8From (0 + word.toList.length) none
      (rest.flatMap String.utf8EncodeChar) with
  | error e =>
      rw [hdecoded] at hread
      cases hread
  | ok more =>
      rw [hdecoded] at hread
      have hsource := Except.ok.inj hread
      rw [← hsource]
      simp only [String.toList_ofList, unifyLineEnds_append hplain]
      exact ⟨word, hword, List.prefix_append _ _⟩

/-- A file with the text of a module is no blueprint. -/
theorem DeclaredModule.exists_updateBytes {options : Options} {registry : Option Registry}
    {m : DeclaredModule} {text : String} (h : m.render options registry = .ok text)
    (contract target : String) :
    ∃ error, Blueprint.updateBytes contract target (encodeUtf8 text) = .error error := by
  have hread {source : String} (hsource : readText (encodeUtf8 text) = .ok source) :
      ∃ error, JsonReader.read source.toList = .error error := by
    rcases m.opens_render h with rfl | hopens
    · cases hsource
      exact ⟨_, rfl⟩
    · exact (hopens.of_readText hsource).exists_read
  rw [Blueprint.updateBytes]
  cases hsource : readText (encodeUtf8 text) with
  | error e => exact ⟨_, rfl⟩
  | ok source =>
      obtain ⟨error, herror⟩ := hread hsource
      refine ⟨.syntaxFault source.toList error, ?_⟩
      dsimp only [Except.mapError, bind, Except.bind]
      rw [herror]

end AikenForge
