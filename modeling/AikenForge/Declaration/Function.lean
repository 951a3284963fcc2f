/-
# Functions, handlers and tests

A handler is a function that serves a purpose of a contract; all handlers of a contract are written
in one validator block.
-/

import AikenForge.Declaration.Documentation
import AikenForge.Handler.Purpose
import AikenForge.Lowering.Statement

namespace AikenForge

open AikenForge.Source AikenForge.Text

/-- A declared function. One with a purpose is a handler; it keeps the source of its body and the
directives in it, because its body is lowered only when its parameters are settled. -/
structure FunctionDeclaration where
  name : String
  parameters : List ParameterDeclaration
  body : String := ""
  returnType : Option String := none
  typeParameters : Option (List String) := none
  isPublic : Bool := false
  docs : Documentation := none
  records : Records := {}
  purpose : Option Purpose := none
  purposeName : Option String := none
  contract : Option String := none
  source : Option FunctionSource := none
  directives : DirectiveTable := []

/-- A declared test. -/
structure TestDeclaration where
  name : String
  body : String
  docs : Documentation := none
  deriving BEq

namespace FunctionDeclaration

/-- Functions are the same if they agree in all that is written; where they come from does not
count. -/
instance : BEq FunctionDeclaration where
  beq a b := a.name == b.name && a.parameters == b.parameters && a.body == b.body &&
    a.returnType == b.returnType && a.typeParameters == b.typeParameters &&
    a.isPublic == b.isPublic && a.docs == b.docs && a.records == b.records &&
    a.purpose == b.purpose && a.purposeName == b.purposeName && a.contract == b.contract

/-- Whether a function is a handler. -/
def isHandler (f : FunctionDeclaration) : Bool :=
  f.purpose.isSome

/-- The body of a function; an empty one is left to do. -/
def bodyOrTodo (f : FunctionDeclaration) : String :=
  (nonEmpty? f.body).getD "todo"

/-- The text of a function. -/
def render (options : Options) (f : FunctionDeclaration) : String :=
  let returns := match f.returnType.bind nonEmpty? with
    | some type => " -> " ++ type
    | none => ""
  let header := visibility f.isPublic ++ "fn " ++ f.name ++ typeParametersText f.typeParameters ++
    "(" ++ ParameterDeclaration.renderAll f.parameters ++ ")" ++ returns
  joinLines (f.docs.lines options ++ [bracedBlock options.indent header f.bodyOrTodo])

/-- The name under which a handler serves its purpose. -/
def handledPurpose (f : FunctionDeclaration) : Except Failure String :=
  match f.purposeName.bind nonEmpty?, f.purpose with
  | some name, _ => .ok name
  | none, some purpose => .ok purpose.label
  | none, none => .error .noPurpose

/-- The text of a handler in its validator block. -/
def renderHandler (options : Options) (f : FunctionDeclaration) : Except Failure String := do
  let purpose ← f.handledPurpose
  let header :=
    if purpose == "else" then "else(_)"
    else purpose ++ "(" ++ ParameterDeclaration.renderAll f.parameters ++ ")"
  return joinLines (f.docs.lines options ++ [bracedBlock options.indent header f.bodyOrTodo])

/-- The contract that a handler belongs to; without one it stands for itself. -/
def contractName (f : FunctionDeclaration) : String :=
  (f.contract.bind nonEmpty?).getD f.name

/-- Put a handler with the others of its contract. -/
def addHandler (groups : Table (List FunctionDeclaration)) (f : FunctionDeclaration) :
    Table (List FunctionDeclaration) :=
  groups.insert f.contractName ((groups.find? f.contractName).getD [] ++ [f])

/-- The validator blocks of handlers, one for each contract in order of its first handler. -/
def renderValidators (options : Options) (handlers : List FunctionDeclaration) :
    Except Failure (List String) :=
  (handlers.foldl addHandler []).mapM fun (contract, members) => do
    let texts ← members.mapM (renderHandler options)
    return bracedBlock options.indent ("validator " ++ contract) ("\n\n".intercalate texts)

end FunctionDeclaration

/-- The text of a test; an empty one holds. -/
def TestDeclaration.render (options : Options) (t : TestDeclaration) : String :=
  let body := (nonEmpty? t.body).getD "True"
  joinLines (t.docs.lines options ++ [bracedBlock options.indent ("test " ++ t.name ++ "()") body])

namespace FunctionDeclaration

/-- The type of a parameter as written, if it is annotated. -/
def hintText? (names : CharacterNames) : Option Expr → Reporting (Option String)
  | none => pure none
  | some e => do
    return some (← Hint.resolve names e).render

/-- The positional parameters; a method's first parameter is its receiver. -/
def positionalParameters (isMethod : Bool) (parameters : Parameters) : List Parameter :=
  let positional := parameters.positionalOnly ++ parameters.regular
  match positional with
  | first :: rest =>
    if isMethod && (first.name == "self" || first.name == "cls") then rest else positional
  | [] => []

/-- The declared parameters of a function. -/
def parametersOf (names : CharacterNames) (isMethod : Bool) (header : FunctionHeader) :
    Reporting (List ParameterDeclaration) := do
  let parameters := header.parameters
  if parameters.variadic.isSome || parameters.keywords.isSome then
    Reporting.warn .functions ("Variadic parameters of " ++ header.name ++ " are dropped")
  (positionalParameters isMethod parameters ++ parameters.keywordOnly).mapM fun p => do
    return { name := p.name, type := ← hintText? names p.hint }

/-- The declaration of a function. -/
def ofSource (ctx : Context) (f : FunctionSource) (isPublic isMethod : Bool)
    (docs : Documentation) : Lowering FunctionDeclaration := do
  let (body, records) ← Lowering.separately (Lowering.functionText ctx f)
  let parameters ← Lowering.ofReporting (parametersOf ctx.options.names isMethod f.header)
  let returnType ← Lowering.ofReporting (hintText? ctx.options.names f.header.returns)
  return { name := f.header.name, parameters, body, returnType, isPublic, docs, records }

/-- Give a first parameter called `datum` the contract's type, if it has none of its own. -/
def typeDatum (datumType : Option String) :
    List ParameterDeclaration → List ParameterDeclaration
  | [] => []
  | first :: rest =>
    match datumType.bind nonEmpty? with
    | some type =>
      if first.name == "datum" && first.type.isNone then { first with type := some type } :: rest
      else first :: rest
    | none => first :: rest

/-- The lines of a function, decorators included, as the first and the last. -/
def lineRange (f : FunctionSource) : Nat × Nat :=
  (f.header.decorators.foldl (fun first d => min first d.line) f.line, f.header.endLine)

/-- The declaration of a handler, with its body still to be lowered. -/
def ofHandlerSource (ctx : Context) (f : FunctionSource) (contract purposeName : String)
    (docs : Documentation) (datumType : Option String) : Reporting FunctionDeclaration := do
  let parameters ← parametersOf ctx.options.names true f.header
  let returnType ← hintText? ctx.options.names f.header.returns
  let (first, last) := lineRange f
  return { name := f.header.name, parameters := typeDatum datumType parameters, returnType
           isPublic := true, docs, purpose := some (Purpose.ofLabel purposeName)
           purposeName := some purposeName, contract := some (Naming.toSnakeCase contract)
           source := some f, directives := ctx.directives.within first last }

end FunctionDeclaration

/-- The declaration of a test. -/
def TestDeclaration.ofSource (ctx : Context) (f : FunctionSource) (docs : Documentation) :
    Lowering TestDeclaration := do
  if !f.header.parameters.regular.isEmpty then
    Lowering.warn .functions ("Test " ++ f.header.name ++ " takes parameters; they are dropped")
  let (body, _) ← Lowering.separately (Lowering.functionText ctx f)
  return { name := f.header.name, body, docs }

end AikenForge
