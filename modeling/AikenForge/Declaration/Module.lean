/-
# Modules

All declarations of a source module. Its text has these sections in order: documentation, `use`
lines, types, constants, functions, validators and tests, with a blank line between them.
-/

import AikenForge.Declaration.Constant
import AikenForge.Declaration.Function
import AikenForge.Declaration.Import
import AikenForge.Declaration.Type

namespace AikenForge

open AikenForge.Text

/-- One declaration of a module. -/
inductive Declaration
  | import (i : Import)
  | type (d : TypeDeclaration)
  | constant (d : ConstantDeclaration)
  | function (f : FunctionDeclaration)
  | test (t : TestDeclaration)

/-- The declarations of a module by kind, and the names that its expressions resolve against. -/
structure DeclaredModule where
  name : String
  imports : List Import := []
  types : List TypeDeclaration := []
  constants : List ConstantDeclaration := []
  functions : List FunctionDeclaration := []
  tests : List TestDeclaration := []
  docs : Documentation := none
  scope : Scope := {}

namespace DeclaredModule

/-- Modules are the same if their declarations are; the scope follows from the source. -/
instance : BEq DeclaredModule where
  beq a b := a.name == b.name && a.imports == b.imports && a.types == b.types &&
    a.constants == b.constants && a.functions == b.functions && a.tests == b.tests &&
    a.docs == b.docs

/-- Add a declaration to those of its kind. -/
def add (m : DeclaredModule) : Declaration → DeclaredModule
  | .import i => { m with imports := m.imports ++ [i] }
  | .type d => { m with types := m.types ++ [d] }
  | .constant d => { m with constants := m.constants ++ [d] }
  | .function f => { m with functions := m.functions ++ [f] }
  | .test t => { m with tests := m.tests ++ [t] }

/-- Declarations add nothing to the names that expressions resolve against. -/
theorem scope_foldl_add (m : DeclaredModule) (found : List Declaration) :
    (found.foldl add m).scope = m.scope := by
  induction found generalizing m with
  | nil => rfl
  | cons d rest ih =>
      rw [List.foldl_cons, ih]
      cases d <;> rfl

/-- The handlers of a module. -/
def handlers (m : DeclaredModule) : List FunctionDeclaration :=
  m.functions.filter FunctionDeclaration.isHandler

/-- The `use` lines of a module: first that of the builtins, if any is used. -/
def useLines (registry : Option Registry) (m : DeclaredModule) : List String :=
  (registry.bind Registry.importLine?).toList ++ m.imports.map Import.render

/-- The text of a module. Sections without text are left out. -/
def render (options : Options) (registry : Option Registry) (m : DeclaredModule) :
    Except Failure String := do
  let docs := if options.emitDocs then m.docs.marked "////" else []
  let types ← m.types.mapM (TypeDeclaration.render options)
  let constants := m.constants.map (ConstantDeclaration.render options)
  let functions := (m.functions.filter fun f => !f.isHandler).map
    (FunctionDeclaration.render options)
  let validators ← FunctionDeclaration.renderValidators options m.handlers
  let tests := m.tests.map (TestDeclaration.render options)
  let sections := [joinLines docs, joinLines (m.useLines registry)] ++ types ++ constants ++
    functions ++ validators ++ tests
  return "\n\n".intercalate (sections.filter fun text => !text.isEmpty) ++ "\n"

end DeclaredModule

end AikenForge
