/-
# Commands

What each command prints, the status it ends with, and the files it leaves. A command is a function
of the environment and the files; failures that it does not report itself end it without a status.
-/

import AikenForge.CommandLine.Arguments
import AikenForge.Pipeline
import AikenForge.Project.Scaffold

namespace AikenForge

open AikenForge.Text

/-- A failure that ends a command. -/
inductive CommandFailure
  | lowering (f : Failure)
  | file (e : FileError)
  | bytes (e : Utf8Error)
  | dependency (part : String)

/-- What is said about a failure that ends a command. -/
def CommandFailure.message : CommandFailure → String
  | .lowering f => f.message
  | .file e => e.message
  | .bytes e => e.message
  | .dependency part => showText part

/-- How a command ends: what it printed, its status or failure, the files, and what it reported. -/
structure Outcome where
  output : List String := []
  status : Except CommandFailure Nat
  tree : FileTree
  journal : Journal := []

/-- What commands depend on: the directory they run in, the variables of the environment, and the
names by which source text may write characters. -/
structure Surroundings where
  directory : String
  environment : String → Option String
  names : CharacterNames

namespace Command

variable (here : Surroundings)

/-- Create a project. -/
def runInit (tree : FileTree) (name directory : String) : Outcome :=
  let path := Path.absolute here.directory (Path.join directory name)
  let taken : Outcome :=
    { output := ["❌ Directory " ++ name ++ " already exists!"], status := .ok 1, tree }
  if tree.contains path then taken
  else
    match Scaffold.files name (ProjectSettings.ofEnvironment here.environment) with
    | .error part => { status := .error (.dependency part), tree }
    | .ok contents =>
      match Scaffold.write tree path contents with
      | .error e => if e.fault = .present then taken else { status := .error (.file e), tree }
      | .ok tree =>
        { output :=
            ["✅ Project " ++ name ++ " created successfully!", "", "🚀 Next steps:",
             "   cd " ++ name, "   aikscript compile python/lib/hello_world.py", "   aiken check"]
          status := .ok 0, tree }

/-- Record a compiled contract in the blueprint of the directory, if there is one. -/
def recordContract (tree : FileTree) (contract target : String) : List String × FileTree :=
  let path := Path.join here.directory "plutus.json"
  if tree.contains path then
    match Blueprint.updateFile tree path path contract target with
    | .ok (_, tree) => (["📄 Updated plutus.json with validator information"], tree)
    | .error e => (["⚠️  " ++ e.message], tree)
  else ([], tree)

/-- What happened to a source file on its way to target text. -/
inductive Compilation
  | done (text : String)
  | refused (message : String)
  | broken (f : Failure)

/-- The pipeline that a command starts with. -/
def pipeline : Pipeline :=
  { options := { names := here.names } }

/-- Compile the source file at a path. -/
def compileFile (tree : FileTree) (path : String) : Compilation × Journal :=
  match tree.read path with
  | .error fault => (.refused (FileError.message ⟨fault, path⟩), [])
  | .ok bytes =>
    match readText bytes with
    | .error e => (.refused e.message, [])
    | .ok source =>
      let (result, p) := (pipeline here).transpile source (some (Path.stem path)) path
      match result with
      | .ok text => (.done text, p.journal)
      | .error (.unreadable file line) =>
        (.refused (Failure.message (.unreadable file line)), p.journal)
      | .error f => (.broken f, p.journal)

/-- Compile a contract. -/
def runCompile (tree : FileTree) (input : String) (output : Option String) : Outcome :=
  let path := Path.resolved here.directory input
  if tree.contains path then
    let target := Path.output here.directory path output
    let first := "🔄 Compiling " ++ path ++ " to " ++ target ++ "..."
    match compileFile here tree path with
    | (.refused message, journal) =>
      { output := [first, "❌ Compilation failed: " ++ message], status := .ok 1, tree, journal }
    | (.broken f, journal) =>
      { output := [first], status := .error (.lowering f), tree, journal }
    | (.done text, journal) =>
      match tree.write target text with
      | .error e => { output := [first], status := .error (.file e), tree, journal }
      | .ok tree =>
        let (recorded, tree) := recordContract here tree (Path.stem path) target
        { output :=
            [first, "✅ Compilation successful!", "📄 Aiken output: " ++ target] ++ recorded
          status := .ok 0, tree, journal }
  else { output := ["❌ Input file not found: " ++ path], status := .ok 1, tree }

/-- The line between the parts of a report. -/
def rule : String :=
  .ofList (List.replicate 60 '=')

/-- The line of a handler in a report. -/
def handlerLine (f : FunctionDeclaration) : String :=
  "   " ++ DeclaredModule.shownName f.contract ++ "." ++ DeclaredModule.shownName f.purposeName ++
    "(" ++ ", ".intercalate (f.parameters.map ParameterDeclaration.name) ++ ")"

/-- The report on a module. -/
def reportLines (m : DeclaredModule) : List String :=
  [rule, "MODULE: " ++ m.name, rule,
   "Imports:    " ++ toString m.imports.length,
   "Types:      " ++ toString m.types.length,
   "Constants:  " ++ toString m.constants.length,
   "Functions:  " ++ toString (m.functions.length - m.handlers.length),
   "Validators: " ++ toString m.handlers.length] ++
  m.handlers.map handlerLine ++ ["Tests:      " ++ toString m.tests.length]

/-- Report on a contract without writing anything. -/
def runCheck (tree : FileTree) (input : String) : Outcome :=
  match tree.read (Path.join here.directory input) with
  | .error fault =>
    { output :=
        ["❌ Could not read " ++ input ++ ": " ++ FileError.message ⟨fault, Path.tidy input⟩]
      status := .ok 1, tree }
  | .ok bytes =>
    match readText bytes with
    | .error e => { status := .error (.bytes e), tree }
    | .ok source =>
      let (result, p) :=
        Pipeline.andThen ((pipeline here).read source none input) fun m p => p.transform m
      match result with
      | .ok m => { output := reportLines m, status := .ok 0, tree, journal := p.journal }
      | .error (.unreadable file line) =>
        { output := ["❌ " ++ input ++ ": " ++ Failure.message (.unreadable file line)]
          status := .ok 1, tree, journal := p.journal }
      | .error f => { status := .error (.lowering f), tree, journal := p.journal }

/-- The announcement of the service. -/
def announcement (host number : String) : List String :=
  [rule, "AikScript API Server", rule, "Starting server on http://" ++ host ++ ":" ++ number,
   "API docs: http://" ++ host ++ ":" ++ number ++ "/docs", rule]

/-- Run a command. -/
def run (tree : FileTree) : Command → Outcome
  | .init name directory => runInit here tree name directory
  | .compile input output _ => runCompile here tree input output
  | .check input _ => runCheck here tree input
  | .serve host number => { output := announcement host number, status := .ok 0, tree }

/-- The paths that a command looks at. -/
def consulted : Command → List String
  | .init name directory => [Path.absolute here.directory (Path.join directory name)]
  | .compile input output _ =>
    let path := Path.resolved here.directory input
    [path, Path.output here.directory path output, Path.join here.directory "plutus.json"]
  | .check input _ => [Path.absolute here.directory input]
  | .serve .. => []

/-- Whether a command asks for more reports. -/
def isVerbose : Command → Bool
  | .compile _ _ verbose | .check _ verbose => verbose
  | _ => false

end Command

/-- The status of a misuse. -/
def misuseStatus : Nat := 2

/-- Run what arguments ask for. -/
def Invocation.run (here : Surroundings) (tree : FileTree) : Invocation → Outcome
  | .command c => c.run here tree
  | .help => { status := .ok 0, tree }
  | .misuse => { status := .ok misuseStatus, tree }

end AikenForge
