/-
# New projects

The directories and files that a new project starts with.
-/

import AikenForge.Project.Blueprint

namespace AikenForge.Scaffold

open AikenForge.Text

/-- Lines, each ended by a line feed. -/
def textOf (lines : List String) : String :=
  joinLines lines ++ "\n"

/-- The directories of a new project. -/
def directories : List String :=
  ["env", "lib", "python/lib", "python/validators", "validators", "build/packages",
   ".github/workflows"]

/-- What version control leaves out. -/
def ignoredFiles : String := textOf
  ["# Aiken compilation artifacts", "artifacts/", "# Aiken's project working directory", "build/",
   "# Aiken's default documentation export", "docs/", "# Python", "__pycache__/"]

/-- A validator that lets a new project build:
```
use cardano/assets.{PolicyId}
use cardano/transaction.{Transaction}

validator placeholder {
  mint(_redeemer: Data, _policy_id: PolicyId, _transaction: Transaction) {
    True
  }
}
```
-/
def placeholder : String := textOf
  ["use cardano/assets.\x7bPolicyId\x7d",
   "use cardano/transaction.\x7bTransaction\x7d",
   "",
   "validator placeholder \x7b",
   "  mint(_redeemer: Data, _policy_id: PolicyId, _transaction: Transaction) \x7b",
   "    True",
   "  \x7d",
   "\x7d"]

/-- A contract to start from. -/
def exampleContract : String := textOf
  ["\"\"\"",
   "Hello world spend validator",
   "\"\"\"",
   "",
   "from typing import Annotated",
   "",
   "from aikscript import contract, datum, expect, validator",
   "import aiken.collection.list",
   "from cardano.transaction import OutputReference, Transaction",
   "",
   "",
   "class Datum:",
   "    owner: bytes",
   "",
   "",
   "class Redeemer:",
   "    msg: bytes",
   "",
   "",
   "@contract(\"hello_world\")",
   "class HelloWorld:",
   "    state: Annotated[Datum, datum]",
   "",
   "    @validator(\"spend\")",
   "    def spend(self, datum: Datum, redeemer: Redeemer,",
   "              output_reference: OutputReference, transaction: Transaction) -> bool:",
   "        owner = expect(datum, \"Datum required\").owner",
   "        must_say_hello = redeemer.msg == b\"Hello, World!\"",
   "        return must_say_hello and owner in transaction.extra_signatories"]

/-- A key with a text as its value. -/
def setting (key value : String) : String :=
  key ++ " = " ++ quote .unicode value

/-- A part of a dependency that must be given; a missing one is an error that names it. -/
def required (key : String) : Option String → Except String String
  | some value => .ok value
  | none => .error key

/-- The lines of a dependency. -/
def dependencyLines (d : Dependency) : Except String (List String) := do
  let name ← required "name" d.name
  let version ← required "version" d.version
  return ["[[dependencies]]", setting "name" name, setting "version" version,
    setting "source" (d.source.getD "github"), ""]

/-- The configuration of a project; it fails with the part that a dependency lacks. -/
def configuration (name : String) (settings : ProjectSettings) : Except String String := do
  let extra ← settings.extraDependencies.mapM dependencyLines
  let standard : Dependency :=
    { name := some "aiken-lang/stdlib", version := some settings.stdlib, source := some "github" }
  let lines :=
    [setting "name" name, setting "version" "0.0.0", setting "compiler" settings.compiler,
     setting "plutus" settings.plutus, setting "license" settings.license,
     setting "description" (projectDescription name), "", "[repository]",
     setting "user" "your-username", setting "project" name, setting "platform" "github", ""]
  return joinLines (lines ++ (← dependencyLines standard) ++ extra.flatten ++ ["[config]", ""])

/-- The text that introduces a project. -/
def introduction (name : String) : String := textOf
  ["# " ++ name,
   "",
   "Write validators in the `validators` folder, and supporting functions in the `lib` folder " ++
     "using `.ak` as a file extension.",
   "",
   "Python contracts live in `python/lib/` and are compiled to Aiken with AikScript:",
   "",
   "```sh",
   "aikscript compile python/lib/hello_world.py -o validators/hello_world.ak",
   "aiken check",
   "aiken build",
   "```",
   "",
   "## Configuring",
   "",
   "Edit `aiken.toml` to configure your project."]

/-- The checks that run on every change of a project. -/
def workflow (settings : ProjectSettings) : String := textOf
  ["name: Continuous Integration",
   "",
   "on:",
   "  push:",
   "    branches: [\"main\"]",
   "  pull_request:",
   "",
   "jobs:",
   "  build:",
   "    runs-on: ubuntu-latest",
   "    steps:",
   "      - uses: actions/checkout@v3",
   "      - uses: aiken-lang/setup-aiken@v1",
   "        with:",
   "          version: " ++ settings.compiler,
   "      - run: aiken fmt --check",
   "      - run: aiken check -D",
   "      - run: aiken build"]

/-- The files of a new project by their paths in it. -/
def files (name : String) (settings : ProjectSettings) : Except String (Table String) := do
  return [("aiken.toml", ← configuration name settings),
    ("plutus.json", (Blueprint.fresh name settings).render),
    (".gitignore", ignoredFiles),
    ("README.md", introduction name),
    (".github/workflows/continuous-integration.yml", workflow settings),
    ("validators/placeholder.ak", placeholder),
    ("python/lib/hello_world.py", exampleContract)]

/-- Write the directories and then the files of a new project at a path. -/
def write (tree : FileTree) (path : String) (contents : Table String) :
    Except FileError FileTree := do
  let tree ← directories.foldlM (fun tree directory =>
    tree.makeDirectories (Path.join path directory)) tree
  contents.foldlM (fun tree (file, content) => tree.write (Path.join path file) content) tree

end AikenForge.Scaffold
