/-
# What compiling changes

Writing a file makes the directories that its path leads through, as far as they are missing, and
changes that file only. Compiling a contract writes the generated text and then updates the
blueprint of the working directory, if there is one. An update that succeeds changes the blueprint
only, and one of a file that the text was just written to never succeeds. So a compilation that is
refused changes nothing, and one that is done changes nothing but what it reports, whatever the
paths are.
-/

import AikenForge.CommandLine.Command
import AikenForge.Proofs.Compile.Opening
import AikenForge.Proofs.Files
import AikenForge.Proofs.Path.Components

namespace AikenForge

open AikenForge.Text

namespace Path

theorem steps_directoryName (path : String) :
    steps path = steps (directoryName path) ++ steps (baseName path) := by
  rw [steps, parts_directoryName, List.filter_append]
  rfl

/-- The last component of a path below a directory is the path's, if it has only one. -/
theorem baseName_join {name : String} (hname : '/' ∉ name.toList) (directory : String) :
    baseName (join directory name) = name := by
  have hbase (head : List Char) (hhead : ∀ c, head.getLast? = some c → c = '/') {path : String}
      (hpath : path.toList = head ++ name.toList) : baseName path = name := by
    have htext : path = .ofList (head ++ name.toList) := by rw [← hpath, String.ofList_toList]
    rw [htext, baseName_append hhead hname, String.ofList_toList]
  unfold join
  split
  · exact hbase [] (by simp) rfl
  split
  · rename_i hslash
    rw [beq_iff_eq] at hslash
    exact hbase directory.toList (by simp [hslash]) String.toList_append
  · exact hbase (directory ++ "/").toList (by simp) String.toList_append

end Path

namespace FileTree

/-! ## Directories on the way -/

/-- The places that components lead to from a place, one after another. -/
def along (place : String) : List (List Char) → List String
  | [] => []
  | part :: rest => Path.enter place part :: along (Path.enter place part) rest

/-- The directories that a path leads through to what it names. -/
def parents (path : String) : List String :=
  along "/" (Path.steps (Path.directoryName path))

/-- Directories are made on the way only, where there was nothing. -/
theorem exists_of_makeFrom {tree made : FileTree} {place : String} {steps : List (List Char)}
    (h : tree.makeFrom place steps = .ok made) :
    ∃ added, made = { tree with directories := tree.directories ++ added } ∧
      ∀ directory ∈ added, directory ∈ along place steps ∧ tree.contains directory = false := by
  induction steps generalizing tree place with
  | nil =>
      cases h
      exact ⟨[], by rw [List.append_nil], by simp⟩
  | cons part rest ih =>
      rw [makeFrom.eq_def] at h
      dsimp only at h
      split at h
      · obtain ⟨added, hmade, hadded⟩ := ih h
        exact ⟨added, hmade, fun directory hmem =>
          ⟨List.mem_cons_of_mem _ (hadded directory hmem).1, (hadded directory hmem).2⟩⟩
      rename_i hdirectory
      split at h
      · split at h <;> cases h
      rename_i hfile
      obtain ⟨added, rfl, hadded⟩ := ih h
      refine ⟨Path.enter place part :: added, by simp, fun directory hmem => ?_⟩
      rcases List.mem_cons.mp hmem with rfl | hmem
      · exact ⟨List.mem_cons_self, by simp [contains, hdirectory, hfile]⟩
      · obtain ⟨halong, hnew⟩ := hadded directory hmem
        refine ⟨List.mem_cons_of_mem _ halong, ?_⟩
        simp only [contains, isDirectory, List.contains_append, Bool.or_eq_false_iff] at hnew ⊢
        exact ⟨⟨hnew.1.1, hnew.1.2.1⟩, hnew.2⟩

/-- Where a path leads on, all directories before are there. -/
theorem makeFrom_of_locate {tree : FileTree} {place found : String} {first rest : List (List Char)}
    (h : tree.locate place (first ++ rest) = .ok found) (hrest : rest ≠ []) :
    tree.makeFrom place first = .ok tree := by
  induction first generalizing place with
  | nil => rfl
  | cons part others ih =>
      rw [List.cons_append, locate] at h
      split at h
      · have hnext : tree.isDirectory (Path.enter place part) = true := by
          obtain ⟨next, more, hcons⟩ := List.exists_cons_of_ne_nil
            (List.append_ne_nil_of_right_ne_nil others hrest)
          rw [hcons, locate] at h
          by_contra hnot
          rw [if_neg hnot] at h
          split at h <;> cases h
        rw [makeFrom.eq_def]
        dsimp only
        rw [if_pos hnext]
        exact ih h
      · split at h <;> cases h

/-- Writing a file changes that file and makes directories on the way to it. -/
theorem write_frame {tree after : FileTree} {path content : String}
    (h : tree.write path content = .ok after) :
    ∃ place added, after.place path = .ok place ∧
      after = { files := tree.files.insert place (encodeUtf8 content),
                directories := tree.directories ++ added } ∧
      ∀ directory ∈ added, directory ∈ parents path ∧ tree.contains directory = false := by
  obtain ⟨made, place, hmade, hplace, -, hafter⟩ := exists_of_write h
  obtain ⟨added, rfl, hadded⟩ := exists_of_makeFrom hmade
  have hagain : after.place path = .ok place :=
    locate_of_isDirectory (fun _ hother => by rw [hafter]; exact hother) hplace
  exact ⟨place, added, hagain, hafter, hadded⟩

/-- Writing where a path leads already makes no directories. -/
theorem write_of_place {tree after : FileTree} {path content place : String}
    (hplace : tree.place path = .ok place) (hbase : Path.steps (Path.baseName path) ≠ [])
    (h : tree.write path content = .ok after) :
    after = { tree with files := tree.files.insert place (encodeUtf8 content) } := by
  obtain ⟨made, other, hmade, hother, -, hafter⟩ := exists_of_write h
  rw [FileTree.place, Path.steps_directoryName] at hplace
  have hsame : tree.makeDirectories (Path.directoryName path) = .ok tree :=
    makeFrom_of_locate hplace hbase
  cases hsame.symm.trans hmade
  rw [FileTree.place, Path.steps_directoryName] at hother
  cases hplace.symm.trans hother
  exact hafter

end FileTree

namespace Blueprint

/-- An update changes the file that it is made from. -/
theorem updateFile_frame {tree after : FileTree} {path shown contract target : String}
    {blueprint : JsonValue} (hbase : Path.steps (Path.baseName path) ≠ [])
    (h : updateFile tree path shown contract target = .ok (blueprint, after)) :
    ∃ place bytes, tree.place path = .ok place ∧ tree.files.find? place = some bytes ∧
      updateBytes contract target bytes = .ok blueprint ∧
      after = { tree with files := tree.files.insert place (encodeUtf8 blueprint.render) } := by
  obtain ⟨bytes, hread, h⟩ := bind_eq_ok.mp h
  obtain ⟨updated, hupdated, h⟩ := bind_eq_ok.mp h
  obtain ⟨written, hwritten, h⟩ := bind_eq_ok.mp h
  cases h
  rw [mapError_eq_ok] at hread hwritten
  obtain ⟨place, hplace, hfile⟩ := bind_eq_ok.mp hread
  refine ⟨place, bytes, hplace, ?_, hupdated, FileTree.write_of_place hplace hbase hwritten⟩
  cases hfound : tree.files.find? place with
  | some found =>
      rw [hfound] at hfile
      cases hfile
      rfl
  | none =>
      rw [hfound] at hfile
      dsimp only at hfile
      split at hfile <;> cases hfile

end Blueprint

namespace Command

variable (here : Surroundings)

/-- The blueprint of the working directory. -/
def manifest : String :=
  Path.join here.directory "plutus.json"

/-- Recording a contract changes the blueprint of the directory, if it can be updated. -/
theorem recordContract_frame (tree : FileTree) (contract target : String) :
    (recordContract here tree contract target).2 = tree ∨
      ∃ place bytes blueprint, tree.place (manifest here) = .ok place ∧
        tree.files.find? place = some bytes ∧
        Blueprint.updateBytes contract target bytes = .ok blueprint ∧
        (recordContract here tree contract target).2 =
          { tree with files := tree.files.insert place (encodeUtf8 blueprint.render) } := by
  have hbase : Path.steps (Path.baseName (manifest here)) ≠ [] := by
    rw [manifest, Path.baseName_join (by decide)]
    decide
  rw [recordContract]
  split
  · cases hupdate : Blueprint.updateFile tree (Path.join here.directory "plutus.json")
        (Path.join here.directory "plutus.json") contract target with
    | error e => exact .inl rfl
    | ok result =>
        obtain ⟨blueprint, after⟩ := result
        obtain ⟨place, bytes, hplace, hbytes, hupdated, rfl⟩ :=
          Blueprint.updateFile_frame hbase hupdate
        exact .inr ⟨place, bytes, blueprint, hplace, hbytes, hupdated, rfl⟩
  · exact .inl rfl

/-- A text that a pipeline gives is that of a module. -/
theorem exists_module_of_transpile {source file text : String} {name : Option String}
    {before after : Pipeline} (h : Pipeline.transpile source name file before = (.ok text, after)) :
    ∃ (m : DeclaredModule) (options : Options) (registry : Option Registry),
      m.render options registry = .ok text := by
  unfold Pipeline.transpile Pipeline.andThen at h
  split at h
  · dsimp only at h
    split at h
    · exact ⟨_, _, _, congrArg Prod.fst h⟩
    · cases h
  · cases h

/-- What is compiled to a text is a module. -/
theorem exists_module_of_compileFile {tree : FileTree} {path text : String} {journal : Journal}
    (h : compileFile here tree path = (.done text, journal)) :
    ∃ (m : DeclaredModule) (options : Options) (registry : Option Registry),
      m.render options registry = .ok text := by
  unfold compileFile at h
  split at h
  · cases h
  split at h
  · cases h
  dsimp only at h
  split at h
  · rename_i text' htranspile
    cases h
    exact exists_module_of_transpile (Prod.ext htranspile rfl)
  · cases h
  · cases h

/-- Where the source of a compilation lies. -/
def sourcePath (input : String) : String :=
  Path.resolved here.directory input

/-- Where the text of a compilation goes. -/
def targetPath (input : String) (output : Option String) : String :=
  Path.output here.directory (sourcePath here input) output

/-- A tree after a text was written to a path, and after the blueprint was updated where it could
be. -/
structure Wrote (tree after : FileTree) (path target text : String) : Prop where
  holds : after.read target = .ok (encodeUtf8 text)
  makes : ∃ added, after.directories = tree.directories ++ added ∧
    ∀ directory ∈ added, directory ∈ FileTree.parents target ∧ tree.contains directory = false
  keeps : ∀ place, after.place target ≠ .ok place →
    after.files.find? place = tree.files.find? place ∨
      ∃ bytes blueprint, after.place (manifest here) = .ok place ∧
        tree.files.find? place = some bytes ∧
        Blueprint.updateBytes (Path.stem path) target bytes = .ok blueprint ∧
        after.files.find? place = some (encodeUtf8 blueprint.render)

/-- Writing the text of a module and recording the contract. -/
theorem wrote_of_write {tree written : FileTree} {path target text : String} {m : DeclaredModule}
    {options : Options} {registry : Option Registry} (hm : m.render options registry = .ok text)
    (h : tree.write target text = .ok written) :
    Wrote here tree (recordContract here written (Path.stem path) target).2 path target text := by
  obtain ⟨place, added, hplace, hwritten, hadded⟩ := FileTree.write_frame h
  have htext : written.files.find? place = some (encodeUtf8 text) := by
    rw [hwritten, Table.find?_insert, if_pos rfl]
  have hfiles (other : String) (hother : other ≠ place) :
      written.files.find? other = tree.files.find? other := by
    rw [hwritten, Table.find?_insert, if_neg hother]
  have hmakes : written.directories = tree.directories ++ added := by rw [hwritten]
  rcases recordContract_frame here written (Path.stem path) target with
    hsame | ⟨other, bytes, blueprint, hother, hbytes, hupdated, hafter⟩
  · rw [hsame]
    exact ⟨FileTree.read_of_write h, ⟨added, hmakes, hadded⟩, fun other hother =>
      .inl (hfiles other fun heq => hother (heq ▸ hplace))⟩
  -- The file that was just written is no blueprint, so it is another one that is updated.
  have hne : other ≠ place := by
    rintro rfl
    obtain ⟨error, herror⟩ := DeclaredModule.exists_updateBytes hm (Path.stem path) target
    cases htext.symm.trans hbytes
    cases hupdated.symm.trans herror
  generalize (recordContract here written (Path.stem path) target).2 = after at hafter ⊢
  have hlocate {path found : String} (hfound : written.place path = .ok found) :
      after.place path = .ok found :=
    FileTree.locate_of_isDirectory (fun _ hspot => by rw [hafter]; exact hspot) hfound
  have hrecorded (spot : String) : after.files.find? spot =
      if spot = other then some (encodeUtf8 blueprint.render) else written.files.find? spot := by
    rw [hafter, Table.find?_insert]
  refine ⟨?_, ⟨added, hafter ▸ hmakes, hadded⟩, fun spot hspot => ?_⟩
  · have hfile : after.files.find? place = some (encodeUtf8 text) := by
      rw [hrecorded, if_neg hne.symm, htext]
    rw [FileTree.read, hlocate hplace]
    dsimp only [bind, Except.bind]
    rw [hfile]
    rfl
  by_cases hsame : spot = other
  · subst hsame
    exact .inr ⟨bytes, blueprint, hlocate hother, (hfiles spot hne).symm.trans hbytes, hupdated,
      (hrecorded spot).trans (if_pos rfl)⟩
  · refine .inl ?_
    rw [hrecorded, if_neg hsame]
    exact hfiles spot fun heq => hspot (heq ▸ hlocate hplace)

/-- Compiling changes nothing but what it reports. A compilation with the status of a refusal leaves
the tree as it was. One with the status of a success has compiled the source as it was, the file at
the target holds the text, the directories on the way to it are there, and no other file is changed
but the blueprint of the directory, by an update that succeeded on what it held. -/
theorem compile_changes_reported (tree : FileTree) (input : String) (output : Option String) :
    ((runCompile here tree input output).status = .ok 1 →
      (runCompile here tree input output).tree = tree) ∧
    ((runCompile here tree input output).status = .ok 0 →
      ∃ text journal, compileFile here tree (sourcePath here input) = (.done text, journal) ∧
        Wrote here tree (runCompile here tree input output).tree (sourcePath here input)
          (targetPath here input output) text) := by
  unfold targetPath sourcePath runCompile
  dsimp only
  split
  · split
    · rename_i message journal hcompile
      exact ⟨fun _ => rfl, fun h => by cases h⟩
    · rename_i f journal hcompile
      exact ⟨fun _ => rfl, fun h => by cases h⟩
    · rename_i text journal hcompile
      split
      · exact ⟨fun _ => rfl, fun h => by cases h⟩
      · rename_i written hwritten
        obtain ⟨m, options, registry, hm⟩ := exists_module_of_compileFile here hcompile
        refine ⟨fun h => ?_, fun _ => ⟨text, journal, hcompile, wrote_of_write here hm hwritten⟩⟩
        cases h
  · exact ⟨fun _ => rfl, fun h => by cases h⟩

/-- A project with a source, and the blueprint `{"validators": [{"title": "vault.spend"}]}`. -/
def vaultProject : FileTree where
  files := [("/p/vault.py", encodeUtf8 "LIMIT = 5\n"),
    ("/p/plutus.json", encodeUtf8 "\x7b\"validators\": [\x7b\"title\": \"vault.spend\"\x7d]\x7d")]
  directories := ["/p"]

/-- The directory of that project, with nothing set. -/
def workplace : Surroundings := ⟨"/p", fun _ => none, fun _ => none⟩

/-- A source that is not there is refused. One that is there is written into a directory that was
missing, and the blueprint gets its entry. -/
theorem compile_changes_reported_manifest :
    (runCompile workplace vaultProject "oracle.py" none).status = .ok 1 ∧
    (runCompile workplace vaultProject "oracle.py" none).tree = vaultProject ∧
    (runCompile workplace vaultProject "vault.py" (some "build/vault.ak")).status = .ok 0 ∧
    (runCompile workplace vaultProject "vault.py" (some "build/vault.ak")).output.getLast? =
      some "📄 Updated plutus.json with validator information" ∧
    (runCompile workplace vaultProject "vault.py" (some "build/vault.ak")).tree.directories =
      ["/p", "/p/build"] ∧
    Wrote workplace vaultProject
      (runCompile workplace vaultProject "vault.py" (some "build/vault.ak")).tree
      "/p/vault.py" "/p/build/vault.ak" "pub const limit: Int = 5\n" := by
  have hrefused : (runCompile workplace vaultProject "oracle.py" none).status = .ok 1 := by rfl
  have hdone : (runCompile workplace vaultProject "vault.py" (some "build/vault.ak")).status =
      .ok 0 := by
    have hstatus : (runCompile workplace vaultProject "vault.py"
        (some "build/vault.ak")).status.toOption = some 0 := by decide +kernel
    cases hrun : (runCompile workplace vaultProject "vault.py" (some "build/vault.ak")).status with
    | error _ => rw [hrun] at hstatus; cases hstatus
    | ok _ => rw [hrun] at hstatus; cases hstatus; rfl
  have hsource : sourcePath workplace "vault.py" = "/p/vault.py" := by decide +kernel
  have htarget : targetPath workplace "vault.py" (some "build/vault.ak") = "/p/build/vault.ak" := by
    decide +kernel
  obtain ⟨text, journal, hcompile, hwrote⟩ := (compile_changes_reported workplace vaultProject
    "vault.py" (some "build/vault.ak")).2 hdone
  rw [hsource] at hcompile hwrote
  rw [htarget] at hwrote
  have htext : (match (compileFile workplace vaultProject "/p/vault.py").1 with
      | .done text => some text
      | _ => none) = some "pub const limit: Int = 5\n" := by
    decide +kernel
  rw [hcompile] at htext
  cases htext
  exact ⟨hrefused, (compile_changes_reported _ _ _ _).1 hrefused, hdone, by decide +kernel,
    by decide +kernel, hwrote⟩

end Command
end AikenForge
