/-
# Imports

The `use` lines of a module. Modules of the source language itself are never imported, and names
keep the spelling they are declared with.
-/

import AikenForge.Reporting
import AikenForge.Source.Tree
import AikenForge.Text.Lines

namespace AikenForge

open AikenForge.Source AikenForge.Text

/-- A module that is used, as a whole or for some of its names, perhaps under a name of its own. -/
structure Import where
  module : String
  localName : Option String := none
  exposing : Option (List String) := none
  deriving BEq

namespace Import

/-- Modules of the source language that have no counterpart. -/
def ignoredModules : List String :=
  ["aikscript", "typing", "typing_extensions", "__future__", "dataclasses", "enum"]

/-- The parts of a dotted name. -/
def dottedParts (name : String) : List String :=
  (splitOnChar '.' [] name.toList).map String.ofList

/-- Whether a module is not imported: it is not named, or its first part is ignored. -/
def isIgnored (name : Option String) : Bool :=
  match name with
  | none => true
  | some name => name.isEmpty || ignoredModules.contains ((dottedParts name).headD "")

/-- The path of a dotted module name. -/
def path (name : String) : String :=
  "/".intercalate (dottedParts name)

/-- The `use` line, with names as `use a/b.{c, d}`. -/
def render (i : Import) : String :=
  let exposing := match i.exposing.getD [] with
    | [] => ""
    | names => ".\x7b" ++ ", ".intercalate names ++ "\x7d"
  let renamed := match i.localName with
    | some name => if name.isEmpty then "" else " as " ++ name
    | none => ""
  "use " ++ i.module ++ exposing ++ renamed

/-- The imports of whole modules. -/
def ofModules (names : List ImportName) : List Import :=
  (names.filter fun n => !isIgnored (some n.name)).map fun n =>
    { module := path n.name, localName := n.binding }

/-- The names that an import exposes, in order; a wildcard is left out. -/
def exposedNames (module : String) : List ImportName → Reporting (List String)
  | [] => pure []
  | n :: rest => do
    if n.name == "*" then
      Reporting.warn .imports ("Wildcard import from " ++ module ++ " is not supported")
      exposedNames module rest
    else
      match n.binding with
      | some binding =>
        if binding != n.name then
          Reporting.warn .imports
            ("Renamed import " ++ n.name ++ " as " ++ binding ++ " keeps its original name")
      | none => pure ()
      return n.name :: (← exposedNames module rest)

/-- The import of names from a module; relative and ignored modules give none. -/
def ofNames (line : Nat) (module : Option String) (names : List ImportName) (level : Nat) :
    Reporting (Option Import) := do
  if level != 0 then
    Reporting.warn .imports ("Relative import on line " ++ toString line ++ " is not supported")
    return none
  else
    match module with
    | none => return none
    | some name =>
      if isIgnored (some name) then return none
      else
        match ← exposedNames name names with
        | [] => return some { module := path name }
        | exposed => return some { module := path name, exposing := some exposed }

end Import

end AikenForge
