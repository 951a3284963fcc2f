/-
# A configuration read as TOML

The configuration of a new project is a document of texts, a table, an array of tables and an empty
table. Each of its lines that is given no delete character is read as the key and the text that were
written, and the whole is read as the name, the versions and the dependencies in order. A delete in
one of the given texts leaves a line that is none, and so no document.
-/

import AikenForge.Proofs.Path.Components
import AikenForge.Proofs.Reading.Quoting
import AikenForge.Proofs.Toml.Line

namespace AikenForge.Toml

open AikenForge.Text

/-! ## Documents -/

/-- What a key of a document stands for: a text, a table of texts, or an array of such tables. -/
inductive Value
  | text (s : String)
  | table (entries : Table String)
  | tables (items : List (Table String))

/-- The keys of a document in the order in which they are first written. -/
abbrev Document := Table Value

/-- A document as far as it is read, and the table that the next entry goes to: the document itself
before the first header. -/
structure Progress where
  document : Document := []
  current : Option String := none

/-- Add an entry to a table; a key is given a value once. -/
def assign? (key value : String) (entries : Table String) : Option (Table String) :=
  if entries.contains key then none else some (entries ++ [(key, value)])

/-- Add an entry to a table or to the last one of an array. -/
def Value.assign? (key value : String) : Value → Option Value
  | .text _ => none
  | .table entries => Value.table <$> Toml.assign? key value entries
  | .tables items => do
    let entries ← Toml.assign? key value (← items.getLast?)
    return .tables (items.dropLast ++ [entries])

/-- Go on with a line. A table is opened once, and an array takes the place of nothing else. -/
def Progress.add? (progress : Progress) : Line → Option Progress
  | .blank => some progress
  | .entry key value =>
    match progress.current with
    | none =>
      if progress.document.contains key then none
      else some { progress with document := progress.document ++ [(key, .text value)] }
    | some name => do
      let changed ← (← progress.document.find? name).assign? key value
      return { progress with document := progress.document.insert name changed }
  | .table name =>
    if progress.document.contains name then none
    else some { document := progress.document ++ [(name, .table [])], current := some name }
  | .item name =>
    match progress.document.find? name with
    | none => some { document := progress.document ++ [(name, .tables [[]])], current := some name }
    | some (.tables items) =>
      some { document := progress.document.insert name (.tables (items ++ [[]])),
             current := some name }
    | some _ => none

/-- The lines of a text. -/
def lines (text : String) : List (List Char) :=
  splitOnChar '\n' [] text.toList

/-- Read a document. -/
def read? (text : String) : Option Document := do
  let progress ← (← (lines text).mapM readLine?).foldlM Progress.add? {}
  return progress.document

/-! ## Reading written lines -/

section Written

variable {written : List Line}

/-- A bare line has no line break. -/
theorem notMem_render {line : Line} (h : line.isBare = true) : '\n' ∉ line.render.toList := by
  have hkey {key : String} (hkey : isBareKey key = true) : '\n' ∉ key.toList :=
    fun hmem => absurd (isKeyPart_of_isBareKey hkey _ hmem) (by decide)
  cases line with
  | blank => simp [Line.render]
  | entry key value =>
      have hquote : '\n' ∉ (quote .unicode value).toList := by
        intro hmem
        rw [quote, String.toList_ofList] at hmem
        exact absurd (Source.printable_quoteChars value.toList _ hmem) (by decide)
      simp [Line.render, Scaffold.setting, hkey h, hquote]
  | table name => simp [Line.render, hkey h]
  | item name => simp [Line.render, hkey h]

/-- The lines of a text are the ones that it was joined of. -/
theorem lines_joinLines (hne : written ≠ []) (h : ∀ line ∈ written, line.isBare = true) :
    lines (joinLines (written.map Line.render)) = written.map fun line => line.render.toList := by
  have hjoin : (joinLines (written.map Line.render)).toList =
      ['\n'].intercalate (written.map fun line => line.render.toList) := by
    simp [joinLines, Function.comp_def]
  rw [lines, hjoin, Path.splitOnChar_intercalate (by simpa using hne)]
  intro part hpart
  obtain ⟨line, hline, rfl⟩ := List.mem_map.mp hpart
  exact notMem_render (h line hline)

/-- Written lines are all read, or none is if one of them has a delete. -/
theorem mapM_readLine?_render (h : ∀ line ∈ written, line.isBare = true) :
    (written.map fun line => line.render.toList).mapM readLine? =
      if written.any Line.hasDelete then none else some written := by
  induction written with
  | nil => rfl
  | cons line rest ih =>
      have hfirst := readLine?_render (h line List.mem_cons_self)
      rw [List.map_cons, List.mapM_cons, hfirst,
        ih fun other hother => h other (List.mem_cons_of_mem line hother)]
      cases hline : line.hasDelete <;> cases hrest : rest.any Line.hasDelete <;>
        simp [hline, hrest]

end Written

/-! ## Reading an array -/

section Arrays

variable {document : Document} {name : String} (hnew : document.find? name = none)

include hnew

/-- A table at the end of a document is found, if its name is new. -/
theorem find?_concat (value : Value) :
    Table.find? (document ++ [(name, value)]) name = some value := by
  rw [Table.find?_append, hnew, Option.none_or, Table.find?_cons, if_pos rfl]

/-- It is changed in its place. -/
theorem insert_concat (value changed : Value) :
    Table.insert name changed (document ++ [(name, value)]) = document ++ [(name, changed)] := by
  induction document with
  | nil => simp [Table.insert]
  | cons entry rest ih =>
      obtain ⟨key, other⟩ := entry
      rw [Table.find?_cons] at hnew
      split at hnew
      · cases hnew
      · rename_i hkey
        have hkeys : (key == name) = false := by simpa using Ne.symm hkey
        rw [List.cons_append, Table.insert, hkeys, ih hnew]
        rfl

variable (items : List (Table String)) (current : Option String)

/-- The header of the first item opens an array as if an empty one were there. -/
theorem add?_firstItem :
    Progress.add? ⟨document, current⟩ (.item name) =
      some ⟨document ++ [(name, .tables [[]])], some name⟩ := by
  simp only [Progress.add?, hnew]

/-- The header of a further item opens an empty one. -/
theorem add?_item :
    Progress.add? ⟨document ++ [(name, .tables items)], current⟩ (.item name) =
      some ⟨document ++ [(name, .tables (items ++ [[]]))], some name⟩ := by
  simp only [Progress.add?, find?_concat hnew, insert_concat hnew]

/-- An entry goes to the last item. -/
theorem add?_entry (entries : Table String) (key value : String)
    (hkey : entries.contains key = false) :
    Progress.add? ⟨document ++ [(name, .tables (items ++ [entries]))], some name⟩
        (.entry key value) =
      some ⟨document ++ [(name, .tables (items ++ [entries ++ [(key, value)]]))], some name⟩ := by
  simp [Progress.add?, find?_concat hnew, insert_concat hnew, Value.assign?, assign?, hkey]

end Arrays

end AikenForge.Toml

namespace AikenForge.Scaffold

open AikenForge.Text (joinLines)
open AikenForge.Toml

/-! ## The lines of a configuration -/

/-- A dependency with all its parts. -/
structure Pin where
  name : String
  version : String
  source : String

/-- A dependency that lacks no part; a source need not be given. -/
def Pin.ofDependency? (d : Dependency) : Option Pin := do
  return ⟨← d.name, ← d.version, d.source.getD "github"⟩

/-- What a project depends on: the standard library and then what it is given, if that lacks no
part. -/
def pins? (settings : ProjectSettings) : Option (List Pin) := do
  let extra ← settings.extraDependencies.mapM Pin.ofDependency?
  return ⟨"aiken-lang/stdlib", settings.stdlib, "github"⟩ :: extra

def Pin.entries (pin : Pin) : Table String :=
  [("name", pin.name), ("version", pin.version), ("source", pin.source)]

def Pin.lines (pin : Pin) : List Line :=
  [.item "dependencies", .entry "name" pin.name, .entry "version" pin.version,
    .entry "source" pin.source, .blank]

/-- The lines before the dependencies. -/
def headLines (name : String) (settings : ProjectSettings) : List Line :=
  [.entry "name" name, .entry "version" "0.0.0", .entry "compiler" settings.compiler,
    .entry "plutus" settings.plutus, .entry "license" settings.license,
    .entry "description" (projectDescription name), .blank, .table "repository",
    .entry "user" "your-username", .entry "project" name, .entry "platform" "github", .blank]

/-- What the lines of a configuration say. -/
def configurationLines (name : String) (settings : ProjectSettings) (pins : List Pin) : List Line :=
  headLines name settings ++ pins.flatMap Pin.lines ++ [.table "config", .blank]

/-- What is read before the dependencies. -/
def headDocument (name : String) (settings : ProjectSettings) : Document :=
  [("name", .text name), ("version", .text "0.0.0"), ("compiler", .text settings.compiler),
    ("plutus", .text settings.plutus), ("license", .text settings.license),
    ("description", .text (projectDescription name)),
    ("repository", .table
      [("user", "your-username"), ("project", name), ("platform", "github")])]

/-- The document that a configuration is meant to be. -/
def manifest (name : String) (settings : ProjectSettings) (pins : List Pin) : Document :=
  headDocument name settings ++
    [("dependencies", .tables (pins.map Pin.entries)), ("config", .table [])]

/-- The texts that a configuration is made of. -/
def givenTexts (name : String) (settings : ProjectSettings) (pins : List Pin) : List String :=
  [name, settings.compiler, settings.plutus, settings.license] ++
    pins.flatMap fun pin => [pin.name, pin.version, pin.source]

section Configuration

variable {name : String} {settings : ProjectSettings} {pins : List Pin}

/-- A dependency that is pinned has the lines of its pin. -/
theorem dependencyLines_of_pin {d : Dependency} {pin : Pin} (h : Pin.ofDependency? d = some pin) :
    dependencyLines d = .ok (pin.lines.map Line.render) := by
  obtain ⟨_ | name, _ | version, source⟩ := d
  · cases h
  · cases h
  · cases h
  · obtain rfl := Option.some.inj h
    rfl

theorem mapM_dependencyLines {given : List Dependency}
    (h : given.mapM Pin.ofDependency? = some pins) :
    given.mapM dependencyLines = .ok (pins.map fun pin => pin.lines.map Line.render) := by
  induction given generalizing pins with
  | nil =>
      obtain rfl := Option.some.inj h
      rfl
  | cons d rest ih =>
      rw [List.mapM_cons] at h
      obtain ⟨pin, hpin, h⟩ := Option.bind_eq_some_iff.mp h
      obtain ⟨others, hothers, h⟩ := Option.bind_eq_some_iff.mp h
      obtain rfl := Option.some.inj h
      rw [List.mapM_cons, dependencyLines_of_pin hpin, ih hothers]
      rfl

/-- A configuration consists of written lines. -/
theorem configuration_eq (h : pins? settings = some pins) :
    configuration name settings =
      .ok (joinLines ((configurationLines name settings pins).map Line.render)) := by
  obtain ⟨extra, hextra, h⟩ := Option.bind_eq_some_iff.mp h
  obtain rfl := Option.some.inj h
  have hstandard : dependencyLines
      { name := some "aiken-lang/stdlib", version := some settings.stdlib,
        source := some "github" } =
        .ok ((Pin.lines ⟨"aiken-lang/stdlib", settings.stdlib, "github"⟩).map Line.render) :=
    dependencyLines_of_pin rfl
  rw [configuration, mapM_dependencyLines hextra]
  simp only [hstandard, configurationLines, List.flatMap_cons, List.map_append, List.append_assoc,
    List.map_flatMap]
  rfl

/-- The lines of a configuration are bare. -/
theorem isBare_configurationLines :
    ∀ line ∈ configurationLines name settings pins, line.isBare = true := by
  have hpin (pin : Pin) : ∀ line ∈ pin.lines, line.isBare = true := by
    simp only [Pin.lines, List.forall_mem_cons, Line.isBare]
    decide
  intro line hline
  simp only [configurationLines, List.mem_append, List.mem_flatMap] at hline
  rcases hline with (hline | ⟨pin, -, hline⟩) | hline
  · revert line
    simp only [headLines, List.forall_mem_cons, Line.isBare]
    decide
  · exact hpin pin line hline
  · revert line
    decide

theorem hasDelete_projectDescription (name : String) :
    hasDelete (projectDescription name) = hasDelete name := by
  have hbefore : hasDelete "Aiken contracts for project '" = false := by decide +kernel
  have hafter : hasDelete "'" = false := by decide +kernel
  unfold projectDescription
  simp only [hasDelete_append, hbefore, hafter, Bool.false_or, Bool.or_false]

/-- The only deletes in a configuration are those of the texts that it is given. -/
theorem any_hasDelete_configurationLines :
    (configurationLines name settings pins).any Line.hasDelete =
      (givenTexts name settings pins).any hasDelete := by
  have hpins : (pins.flatMap Pin.lines).any Line.hasDelete =
      (pins.flatMap fun pin => [pin.name, pin.version, pin.source]).any hasDelete := by
    simp [List.any_flatMap, Pin.lines, Line.hasDelete]
  have hversion : hasDelete "0.0.0" = false := by decide
  have huser : hasDelete "your-username" = false := by decide
  have hplatform : hasDelete "github" = false := by decide
  rw [configurationLines, givenTexts, List.any_append, List.any_append, List.any_append, hpins]
  simp only [headLines, List.any_cons, List.any_nil, Line.hasDelete, hversion, huser, hplatform,
    hasDelete_projectDescription]
  cases hasDelete name <;> simp

/-! ## The document of a configuration -/

/-- The lines before the dependencies make the head of the document. -/
theorem foldlM_headLines :
    (headLines name settings).foldlM Progress.add? {} =
      some ⟨headDocument name settings, some "repository"⟩ := by
  rfl

section Dependencies

variable {document : Document} (hnew : document.find? "dependencies" = none)

include hnew

/-- The lines of a dependency add an item. -/
theorem foldlM_pinLines (items : List (Table String)) (current : Option String) (pin : Pin) :
    pin.lines.foldlM Progress.add? ⟨document ++ [("dependencies", .tables items)], current⟩ =
      some ⟨document ++ [("dependencies", .tables (items ++ [pin.entries]))],
        some "dependencies"⟩ := by
  have hname := add?_entry hnew items [] "name" pin.name rfl
  have hversion := add?_entry hnew items [("name", pin.name)] "version" pin.version rfl
  have hsource := add?_entry hnew items [("name", pin.name), ("version", pin.version)] "source"
    pin.source rfl
  simp only [Pin.lines, List.foldlM_cons, add?_item hnew, hname, hversion, hsource,
    Option.bind_eq_bind,
    Option.bind_some, List.nil_append, List.cons_append]
  rfl

/-- The lines of pins add an item each. -/
theorem foldlM_furtherPins (items : List (Table String)) (pins : List Pin) :
    (pins.flatMap Pin.lines).foldlM Progress.add?
        ⟨document ++ [("dependencies", .tables items)], some "dependencies"⟩ =
      some ⟨document ++ [("dependencies", .tables (items ++ pins.map Pin.entries))],
        some "dependencies"⟩ := by
  induction pins generalizing items with
  | nil => simp
  | cons pin rest ih =>
      rw [List.flatMap_cons, List.foldlM_append, foldlM_pinLines hnew]
      simp [ih]

/-- The lines of dependencies are an array of them in order. -/
theorem foldlM_pins (current : Option String) (hpins : pins ≠ []) :
    (pins.flatMap Pin.lines).foldlM Progress.add? ⟨document, current⟩ =
      some ⟨document ++ [("dependencies", .tables (pins.map Pin.entries))],
        some "dependencies"⟩ := by
  obtain ⟨pin, rest, rfl⟩ := List.exists_cons_of_ne_nil hpins
  have hfirst : pin.lines.foldlM Progress.add? ⟨document, current⟩ =
      pin.lines.foldlM Progress.add? ⟨document ++ [("dependencies", .tables [])], current⟩ := by
    rw [Pin.lines, List.foldlM_cons, List.foldlM_cons, add?_firstItem hnew, add?_item hnew]
    rfl
  rw [List.flatMap_cons, List.foldlM_append, hfirst, foldlM_pinLines hnew]
  simp [foldlM_furtherPins hnew]

end Dependencies

/-- The lines of a configuration are read as its document. -/
theorem foldlM_configurationLines (hpins : pins ≠ []) :
    (configurationLines name settings pins).foldlM Progress.add? {} =
      some ⟨manifest name settings pins, some "config"⟩ := by
  have hnew : Table.find? (headDocument name settings) "dependencies" = none := rfl
  rw [configurationLines, List.foldlM_append, List.foldlM_append, foldlM_headLines]
  rw [Option.bind_eq_bind, Option.bind_some, foldlM_pins hnew _ hpins]
  rfl

/-- There is always a dependency. -/
theorem ne_nil_of_pins? (h : pins? settings = some pins) : pins ≠ [] := by
  obtain ⟨extra, -, h⟩ := Option.bind_eq_some_iff.mp h
  rw [← Option.some.inj h]
  exact List.cons_ne_nil _ _

/-- A configuration is read as its document unless it is given a delete. -/
theorem read?_configuration (h : pins? settings = some pins) :
    read? (joinLines ((configurationLines name settings pins).map Line.render)) =
      if (givenTexts name settings pins).any hasDelete then none
      else some (manifest name settings pins) := by
  have hne : configurationLines name settings pins ≠ [] := by simp [configurationLines]
  rw [read?, lines_joinLines hne isBare_configurationLines,
    mapM_readLine?_render isBare_configurationLines, any_hasDelete_configurationLines]
  split
  · rfl
  · rw [Option.bind_eq_bind, Option.bind_some, foldlM_configurationLines (ne_nil_of_pins? h)]
    rfl

end Configuration

/-- A project's configuration can be written if its dependencies lack no part. Each of its lines is
read as what it says, a text as exactly the text that was given, unless there is a delete in it; and
the whole is read as a document with all of them, the dependencies in order, exactly if no given
text has one. -/
theorem configuration_reads_back_iff (name : String) {settings : ProjectSettings} {pins : List Pin}
    (h : pins? settings = some pins) :
    ∃ text, configuration name settings = .ok text ∧
      (Toml.lines text).map readLine? = (configurationLines name settings pins).map (fun line =>
        if line.hasDelete then none else some line) ∧
      read? text = if (givenTexts name settings pins).any hasDelete then none
        else some (manifest name settings pins) := by
  refine ⟨_, configuration_eq h, ?_, read?_configuration h⟩
  rw [lines_joinLines (by simp [configurationLines]) isBare_configurationLines, List.map_map]
  exact List.map_congr_left fun line hline =>
    readLine?_render (isBare_configurationLines line hline)

/-- A name with quotes and a backslash, and a dependency without a source. -/
theorem configuration_reads_back_quoted :
    ∃ text, configuration "my \"quoted\" \\ project"
        { extraDependencies := [{ name := some "acme/oracle", version := some "1.0" }] } =
          .ok text ∧
      read? text = some (manifest "my \"quoted\" \\ project" {}
        [⟨"aiken-lang/stdlib", "v2.2.0", "github"⟩, ⟨"acme/oracle", "1.0", "github"⟩]) := by
  have hpins : pins? { extraDependencies :=
        [{ name := some "acme/oracle", version := some "1.0" }] } =
      some [⟨"aiken-lang/stdlib", "v2.2.0", "github"⟩, ⟨"acme/oracle", "1.0", "github"⟩] := rfl
  obtain ⟨text, htext, -, hread⟩ :=
    configuration_reads_back_iff "my \"quoted\" \\ project" hpins
  exact ⟨text, htext, hread.trans (if_neg (by decide +kernel))⟩

/-- The delete of a name is left as it is, where a basic string may not have it. -/
theorem configuration_unreadable :
    readLine? (setting "name" "a\x7fb").toList = none ∧
    ∃ text, configuration "a\x7fb" {} = .ok text ∧ read? text = none := by
  have hpins : pins? {} = some [⟨"aiken-lang/stdlib", "v2.2.0", "github"⟩] := rfl
  refine ⟨?_, _, configuration_eq hpins, ?_⟩
  · exact (readLine?_setting (by decide) _).trans (if_pos (by decide))
  · exact (read?_configuration hpins).trans (if_pos (by decide +kernel))

end AikenForge.Scaffold
