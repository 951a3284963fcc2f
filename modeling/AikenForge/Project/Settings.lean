/-
# Project settings

The versions that a new project is pinned to. The environment can override them.
-/

namespace AikenForge

/-- A further dependency as a caller gives it, with parts that may be missing. -/
structure Dependency where
  name : Option String := none
  version : Option String := none
  source : Option String := none

/-- The versions and the licence of a new project. -/
structure ProjectSettings where
  compiler : String := "v1.1.19"
  plutus : String := "v3"
  stdlib : String := "v2.2.0"
  license : String := "Apache-2.0"
  extraDependencies : List Dependency := []

/-- The settings that an environment asks for. -/
def ProjectSettings.ofEnvironment (lookup : String → Option String) : ProjectSettings :=
  let usual : ProjectSettings := {}
  { compiler := (lookup "AIKSCRIPT_COMPILER").getD usual.compiler
    plutus := (lookup "AIKSCRIPT_PLUTUS").getD usual.plutus
    stdlib := (lookup "AIKSCRIPT_STDLIB").getD usual.stdlib
    license := (lookup "AIKSCRIPT_LICENSE").getD usual.license }

end AikenForge
