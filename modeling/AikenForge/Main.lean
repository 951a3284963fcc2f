/-
# The program

The command line on real files: what a command consults is loaded, the command runs on that, and
what it changed is written back.
-/

import AikenForge.CommandLine.Command

namespace AikenForge.Program

/-- The directories above a path, from the root down, and the path itself. -/
def pathsDownTo (path : String) : List String :=
  let parts := Path.parts path
  (List.range parts.length).map fun n => "/" ++ Path.ofComponents (parts.take (n + 1))

/-- Add what is at a path on disk to a tree. -/
def load (tree : FileTree) (path : String) : IO FileTree := do
  if tree.contains path then return tree
  try
    let bytes ← IO.FS.readBinFile path
    return { tree with files := tree.files.insert path bytes.toList }
  catch
    | .noFileOrDirectory .. => return tree
    | _ => return { tree with directories := tree.directories ++ [path] }

/-- Write back what differs between two trees. -/
def store (before after : FileTree) : IO Unit := do
  for directory in after.directories do
    if !before.isDirectory directory then IO.FS.createDirAll directory
  for (path, bytes) in after.files do
    if before.files.find? path != some bytes then
      IO.FS.writeBinFile path (ByteArray.mk bytes.toArray)

/-- Print the reports that a level of detail asks for. -/
def report (verbose : Bool) (journal : Journal) : IO Unit := do
  for entry in journal do
    if verbose || entry.level == .warning then
      IO.eprintln (entry.level.label ++ " " ++ entry.channel.label ++ ": " ++ entry.message)

/-- The environment variables that commands look at. -/
def environmentNames : List String :=
  ["AIKSCRIPT_COMPILER", "AIKSCRIPT_PLUTUS", "AIKSCRIPT_STDLIB", "AIKSCRIPT_LICENSE"]

/-- The character database of the system. -/
def characterFile : String :=
  "/usr/share/unicode/UnicodeData.txt"

/-- The name and the character of a line of the database: a code in hexadecimal digits, a name and
further fields. -/
def namedCharacter? (line : String) : Option (String × Char) :=
  match line.splitOn ";" with
  | code :: name :: _ => some (name, Char.ofNat (Source.baseNumber 16 code.toList))
  | _ => none

/-- The characters by name, in any case, as far as the system has a database. -/
def loadNames : IO CharacterNames := do
  try
    let table := ((← IO.FS.readFile characterFile).splitOn "\n").filterMap namedCharacter?
    return fun name => table.lookup name.toUpper
  catch _ => return fun _ => none

/-- Run a command on real files. -/
def runCommand (c : Command) : IO UInt32 := do
  let directory := (← IO.currentDir).toString
  let values ← environmentNames.mapM fun name => do
    return (name, ← IO.getEnv name)
  let names ← loadNames
  let here : Surroundings := ⟨directory, fun name => (values.lookup name).join, names⟩
  let paths := (c.consulted here).flatMap pathsDownTo
  let before ← paths.foldlM load {}
  let outcome := c.run here before
  report c.isVerbose outcome.journal
  for line in outcome.output do
    IO.println line
  store before outcome.tree
  match outcome.status with
  | .ok status => return status.toUInt32
  | .error failure =>
    IO.eprintln failure.message
    return 1

end AikenForge.Program

/-- Run the program with its arguments. -/
def main (args : List String) : IO UInt32 := do
  match AikenForge.Arguments.parse args with
  | .command c => AikenForge.Program.runCommand c
  | .help =>
    IO.println "usage: aikscript \x7binit,compile,check,serve\x7d ..."
    return 0
  | .misuse =>
    IO.eprintln "usage: aikscript \x7binit,compile,check,serve\x7d ..."
    return AikenForge.misuseStatus.toUInt32
