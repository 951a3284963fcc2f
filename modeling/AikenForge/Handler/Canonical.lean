/-
# Canonical handlers

A handler takes the parameters of its purpose's convention, and its body is lowered with the names
of its old and new parameters standing for transactions.
-/

import AikenForge.Declaration.Module

namespace AikenForge

namespace FunctionDeclaration

/-- The handler in canonical form. One without source keeps its body. -/
def canonicalize (options : Options) (scope : Scope) (f : FunctionDeclaration) :
    Lowering FunctionDeclaration := do
  let parameters := (f.purpose.getD .other).canonicalParameters f.parameters
  let returnType := some ((f.returnType.bind nonEmpty?).getD "Bool")
  match f.source with
  | none =>
    Lowering.note .debug .handlers
      ("Validator " ++ f.name ++ " has no source node, keeping its body")
    return { f with parameters, returnType }
  | some source =>
    let context : Context :=
      { scope, options, directives := f.directives
        aliasRoots := (f.parameters ++ parameters).map ParameterDeclaration.name }
    let (body, records) ← Lowering.separately (Lowering.functionText context source)
    return { f with parameters, returnType, body, records }

end FunctionDeclaration

namespace DeclaredModule

/-- What a report calls a part that may be missing. -/
def shownName (name : Option String) : String :=
  name.getD "None"

/-- The module with every handler in canonical form. -/
def canonicalize (options : Options) (m : DeclaredModule) : Lowering DeclaredModule := do
  let functions ← m.functions.mapM fun f => do
    if f.isHandler then
      Lowering.note .debug .transform
        ("Canonicalizing " ++ shownName f.contract ++ "." ++ shownName f.purposeName)
      f.canonicalize options m.scope
    else return f
  return { m with functions }

end DeclaredModule

end AikenForge
