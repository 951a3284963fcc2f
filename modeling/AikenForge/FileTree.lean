/-
# File trees

Files and directories as a value, under absolute paths. What can go wrong with them is what a file
system would refuse.
-/

import AikenForge.Path
import AikenForge.Table
import AikenForge.Text.Shown
import AikenForge.Text.Utf8

namespace AikenForge

open AikenForge.Text

/-- What a file system refuses. -/
inductive FileFault
  | absent | present | notDirectory | isDirectory
  deriving DecidableEq

/-- A refusal and the path it is about. -/
structure FileError where
  fault : FileFault
  path : String

/-- The number and the text of a refusal. -/
def FileFault.label : FileFault → String
  | .absent => "[Errno 2] No such file or directory"
  | .present => "[Errno 17] File exists"
  | .notDirectory => "[Errno 20] Not a directory"
  | .isDirectory => "[Errno 21] Is a directory"

/-- What is said about a refusal. -/
def FileError.message (e : FileError) : String :=
  e.fault.label ++ ": " ++ showText e.path

/-- The files with their bytes, and the directories other than the root. -/
structure FileTree where
  files : Table (List UInt8) := []
  directories : List String := []

namespace FileTree

/-- Whether a path is a directory. -/
def isDirectory (tree : FileTree) (path : String) : Bool :=
  path == "/" || tree.directories.contains path

/-- Whether there is something at a path. -/
def contains (tree : FileTree) (path : String) : Bool :=
  tree.isDirectory path || tree.files.contains path

/-- Go down from a directory, component by component; each on the way must be a directory. -/
def locate (tree : FileTree) (place : String) : List (List Char) → Except FileFault String
  | [] => .ok place
  | part :: rest =>
    if tree.isDirectory place then locate tree (Path.enter place part) rest
    else if tree.files.contains place then .error .notDirectory
    else .error .absent

/-- The place that an absolute path leads to. -/
def place (tree : FileTree) (path : String) : Except FileFault String :=
  tree.locate "/" (Path.steps path)

/-- The bytes of the file at an absolute path. -/
def read (tree : FileTree) (path : String) : Except FileFault (List UInt8) := do
  let place ← tree.place path
  match tree.files.find? place with
  | some bytes => return bytes
  | none => if tree.isDirectory place then .error .isDirectory else .error .absent

/-- Make directories from a place on down. -/
def makeFrom (tree : FileTree) (place : String) : List (List Char) → Except FileError FileTree
  | [] => .ok tree
  | part :: rest =>
    let next := Path.enter place part
    if tree.isDirectory next then makeFrom tree next rest
    else if tree.files.contains next then
      match rest with
      | [] => .error ⟨.present, next⟩
      | child :: _ => .error ⟨.notDirectory, Path.join next (.ofList child)⟩
    else makeFrom { tree with directories := tree.directories ++ [next] } next rest

/-- Make a directory and those above it, as far as they are missing. -/
def makeDirectories (tree : FileTree) (path : String) : Except FileError FileTree :=
  tree.makeFrom "/" (Path.steps path)

/-- Write a text to a file, making the directories above it. -/
def write (tree : FileTree) (path content : String) : Except FileError FileTree := do
  let tree ← tree.makeDirectories (Path.directoryName path)
  let place ← (tree.place path).mapError fun fault => ⟨fault, path⟩
  if tree.isDirectory place then .error ⟨.isDirectory, path⟩
  else return { tree with files := tree.files.insert place (encodeUtf8 content) }

end FileTree

end AikenForge
