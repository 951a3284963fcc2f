/-
# Paths

Paths with slashes, as texts. Normalizing a path is a matter of its text alone and does not consult
any files.
-/

import AikenForge.Text.Lines

namespace AikenForge.Path

open AikenForge.Text

/-- The components of a path, empty ones included. -/
def components (path : String) : List (List Char) :=
  splitOnChar '/' [] path.toList

/-- The text of components. -/
def ofComponents (parts : List (List Char)) : String :=
  "/".intercalate (parts.map String.ofList)

/-- The component of the directory itself. -/
def here : List Char := ['.']

/-- The component of the directory above. -/
def above : List Char := ['.', '.']

/-- Whether a path starts at the root. -/
def isAbsolute (path : String) : Bool :=
  path.toList.head? == some '/'

/-- The slashes that a path starts with; exactly two are kept apart from one. -/
def root (path : String) : String :=
  match path.toList with
  | '/' :: '/' :: '/' :: _ => "/"
  | '/' :: '/' :: _ => "//"
  | '/' :: _ => "/"
  | _ => ""

/-- Add a component to those kept, latest first: the directory above takes away the last one. -/
def push (isRooted : Bool) (kept : List (List Char)) (part : List Char) : List (List Char) :=
  if part.isEmpty || part == here then kept
  else if part == above then
    match kept with
    | [] => if isRooted then [] else [part]
    | last :: rest => if last == above then part :: kept else rest
  else part :: kept

/-- A path without empty components and without detours; an empty path is the directory itself. -/
def normalize (path : String) : String :=
  let kept := (components path).foldl (push (isAbsolute path)) []
  let text := root path ++ ofComponents kept.reverse
  if text.isEmpty then "." else text

/-- A path below another; an absolute one stands for itself. -/
def join (base path : String) : String :=
  if isAbsolute path || base.isEmpty then path
  else if base.toList.getLast? == some '/' then base ++ path
  else base ++ "/" ++ path

/-- The normalized path from the root, for a path in a directory. -/
def absolute (directory path : String) : String :=
  normalize (join directory path)

/-- The place of a file for a path in a directory, where no links are to be followed. It starts with
one slash for a path that starts with any. -/
def resolved (directory path : String) : String :=
  absolute directory
    (if isAbsolute path then "/" ++ .ofList (path.toList.dropWhile (· == '/')) else path)

/-- The components of a path that are not empty. -/
def parts (path : String) : List (List Char) :=
  (components path).filter fun part => !part.isEmpty

/-- The components of a path that lead on from where it is. -/
def steps (path : String) : List (List Char) :=
  (parts path).filter (· != here)

/-- What is left of two lists after their common start. -/
def withoutCommon : List (List Char) → List (List Char) → List (List Char) × List (List Char)
  | a :: as, b :: bs => if a == b then withoutCommon as bs else (a :: as, b :: bs)
  | as, bs => (as, bs)

/-- The path from one normalized absolute path to another. -/
def relative (path start : String) : String :=
  let (rest, up) := withoutCommon (parts path) (parts start)
  let steps := up.map (fun _ => above) ++ rest
  if steps.isEmpty then "." else ofComponents steps

/-- The text after the last slash. -/
def baseName (path : String) : String :=
  .ofList (path.toList.reverse.takeWhile (· != '/')).reverse

/-- The text before the last slash, without slashes at its end unless it has nothing else. -/
def directoryName (path : String) : String :=
  let head := (path.toList.reverse.dropWhile (· != '/'))
  if head.all (· == '/') then .ofList head else .ofList (head.dropWhile (· == '/')).reverse

/-- The place that a component leads to from another. -/
def enter (place : String) (part : List Char) : String :=
  if part == above then directoryName place else join place (.ofList part)

/-- A path without the extension of its last component. Dots that open the component do not start an
extension. -/
def withoutExtension (path : String) : String :=
  let name := (baseName path).toList
  let extension := name.reverse.takeWhile (· != '.')
  let stem := name.take (name.length - extension.length - 1)
  if extension.length == name.length || stem.all (· == '.') then path
  else .ofList (path.toList.take (path.length - extension.length - 1))

/-- A path with its repeated slashes and references to the directory itself removed. -/
def tidy (path : String) : String :=
  let text := root path ++ ofComponents (steps path)
  if text.isEmpty then "." else text

/-- The last component of a path without its last suffix; a name that starts or ends with its only
dot has none. -/
def stem (path : String) : String :=
  let name := (steps path).getLastD []
  let suffix := name.reverse.takeWhile (· != '.')
  let stem := name.take (name.length - suffix.length - 1)
  if suffix.isEmpty || suffix.length == name.length || stem.isEmpty then .ofList name
  else .ofList stem

/-- The extension of generated files. -/
def targetExtension : String :=
  ".ak"

/-- Where the generated file of a source file goes: a given path, else below `validators` of the
project for a source below its `lib`, else below `validators` beside the source. -/
def output (directory source : String) (custom : Option String) : String :=
  match custom with
  | some path =>
    if path.isEmpty then inferred else absolute directory path
  | none => inferred
where
  /-- The place that follows from the source's own. -/
  inferred : String :=
    let top := normalize directory
    let source := absolute directory source
    let inside := relative source (join top "lib")
    if above.isPrefixOf inside.toList then
      join (join (directoryName source) "validators")
        (withoutExtension (baseName source) ++ targetExtension)
    else join (join top "validators") (withoutExtension inside ++ targetExtension)

end AikenForge.Path
