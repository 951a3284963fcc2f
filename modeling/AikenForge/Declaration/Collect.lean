/-
# Collecting declarations

The declarations of a source module. Each statement is taken by itself: one that declares nothing is
reported and skipped. Names listed for export are public, and without such a list all names that do
not start with an underscore.
-/

import AikenForge.Declaration.Module
import AikenForge.Declaration.Role
import AikenForge.Directive.Scan

namespace AikenForge.Collect

open AikenForge.Source AikenForge.Text

/-- Whether a value declares a type variable, which has no text of its own. -/
def isTypeVariable : Expr → Bool
  | .call callee _ _ =>
    ((RoleTable.markName? callee).map
      ["TypeVar", "ParamSpec", "TypeVarTuple"].contains).getD false
  | _ => false

/-- Whether an annotation declares an alias. -/
def isAliasHint (hint : Expr) : Bool :=
  RoleTable.markName? hint == some "TypeAlias"

/-- Whether a statement guards what runs only as a program. -/
def isProgramGuard : Stmt → Bool
  | .branch _ (.compare (.name id) _) _ _ => id == "__name__"
  | _ => false

/-- The name of a plain function. -/
def functionName? : Stmt → Option String
  | .function _ header _ => if header.isAsync then none else some header.name
  | _ => none

/-- The constants that targets of an assignment name. -/
def constantTargets (targets : List Expr) : List String :=
  (targets.filterMap Expr.name?).filter Naming.isConstantName

/-- Add the names that a statement of a module declares. -/
def addToScope (roles : RoleTable) (scope : Scope) : Stmt → Scope
  | .classDef _ header body =>
    if TypeDeclaration.isEnum header then
      { scope with enums := scope.enums.insert header.name (TypeDeclaration.enumMembers body) }
    else if (roles.contract? header.name).isSome then
      { scope with
        knownFunctions := (body.filterMap functionName?).foldl addOnce scope.knownFunctions }
    else scope
  | .simple _ (.annotates (.name id) hint _) =>
    if Naming.isConstantName id || ConstantDeclaration.isFinal hint then
      { scope with constants := addOnce scope.constants id }
    else scope
  | .simple _ (.assigns targets value) =>
    if isTypeVariable value then scope
    else { scope with constants := (constantTargets targets).foldl addOnce scope.constants }
  | statement =>
    match functionName? statement with
    | some name => { scope with knownFunctions := addOnce scope.knownFunctions name }
    | none => scope

/-- The names that expressions of a module resolve against. -/
def scopeOf (roles : RoleTable) (statements : List Stmt) : Scope :=
  statements.foldl (addToScope roles) {}

/-- The texts in a list or tuple. -/
def listedTexts? : Expr → Option (List String)
  | .list items | .tuple items => some (items.filterMap Expr.text?)
  | _ => none

/-- The names that a statement exports. -/
def exportsOf? : Stmt → Option (List String)
  | .simple _ (.assigns targets value) =>
    if targets.any fun target => target.name? == some "__all__" then listedTexts? value else none
  | _ => none

/-- The names that a module exports, if it says so; the first list counts. -/
def exports? (statements : List Stmt) : Option (List String) :=
  statements.findSome? exportsOf?

/-- Whether a name is public. -/
def isPublic (exports : Option (List String)) (name : String) : Bool :=
  match exports with
  | some names => names.contains name
  | none => name.toList.head? != some '_'

/-- What the statements of a module are collected with. -/
structure Setting where
  context : Context
  roles : RoleTable
  exports : Option (List String)

variable (setting : Setting)

/-- The type that the annotation of a contract's datum holds. -/
def datumPart : Expr → Except Failure Expr
  | .subscript _ (.tuple (first :: _)) => .ok first
  | .subscript _ (.tuple []) => .error .noFirstItem
  | .subscript _ (.list (first :: _)) | .subscript _ (.set (first :: _)) => .ok first
  | .subscript _ (.list []) | .subscript _ (.set []) => .error .noFirstItem
  | .subscript _ index => .error (.noItems index.kind)
  | e => .error (.noIndex e.kind)

/-- Whether an annotation is a record written in place. -/
def isInlineRecord : Expr → Bool
  | .dict _ | .set _ => true
  | _ => false

/-- The type of a contract's datum and the declaration that a record written in place needs. -/
def contractDatum (className : String) :
    List Stmt → Reporting (Option String × List Declaration)
  | [] => pure (none, [])
  | .simple _ (.annotates (.name id) hint _) :: rest => do
    match setting.roles.role? (className ++ "." ++ id) with
    | some (.datum _) =>
      let inner ← liftExcept (datumPart hint)
      if isInlineRecord inner then
        let name := className ++ "Datum"
        let declared ← TypeDeclaration.ofAlias setting.context.options.names name (some inner) none
          true false none
        return (some name, [.type declared])
      else return (some (← Hint.resolve setting.context.options.names inner).render, [])
    | _ => contractDatum className rest
  | _ :: rest => contractDatum className rest
where
  /-- Fail as a plain result does. -/
  liftExcept {α : Type} : Except Failure α → Reporting α
    | .ok value => pure value
    | .error failure => throw failure

/-- The declaration of a method of a contract: a handler, or a private function. -/
def method (className contract : String) (datumType : Option String) :
    Stmt → Lowering (List Declaration)
  | .function line header body => do
    if header.isAsync then return []
    else
      let f : FunctionSource := ⟨line, header, body⟩
      match setting.roles.find? (className ++ "." ++ header.name) with
      | some ⟨.handler purpose, docs⟩ =>
        let declared ← Lowering.ofReporting
          (FunctionDeclaration.ofHandlerSource setting.context f contract purpose docs datumType)
        return [.function declared]
      | _ =>
        let declared ←
          FunctionDeclaration.ofSource setting.context f false true (.ofBlock body)
        return [.function declared]
  | _ => pure []

/-- The declarations of a contract: the type of its datum if it is written in place, and its
methods. -/
def contract (className name : String) (body : List Stmt) : Lowering (List Declaration) := do
  let (datumType, types) ← Lowering.ofReporting (contractDatum setting className body)
  let methods ← body.mapM (method setting className name datumType)
  return types ++ methods.flatten

/-- The declarations of a class. -/
def classDeclarations (header : ClassHeader) (body : List Stmt) : Lowering (List Declaration) := do
  let docs := Documentation.ofBlock body
  let visible := isPublic setting.exports header.name
  match setting.roles.contract? header.name with
  | some name => contract setting header.name name body
  | none =>
    if TypeDeclaration.isEnum header then
      return [.type (← Lowering.ofReporting (TypeDeclaration.ofEnum header body visible docs))]
    else
      let hidden := setting.roles.role? header.name == some .hidden
      return [.type (← Lowering.ofReporting
        (TypeDeclaration.ofRecord
        setting.context.options.names header body visible hidden docs))]

/-- The declaration of a function. -/
def functionDeclarations (f : FunctionSource) : Lowering (List Declaration) := do
  let docs := Documentation.ofBlock f.body
  let name := f.header.name
  if setting.roles.role? name == some .test then
    return [.test (← TestDeclaration.ofSource setting.context f docs)]
  else
    let visible := isPublic setting.exports name
    return [.function (← FunctionDeclaration.ofSource setting.context f visible false docs)]

/-- The declaration of an alias. -/
def aliasDeclarations (name : String) (value : Option Expr) (docs : Documentation) :
    Lowering (List Declaration) := do
  let visible := isPublic setting.exports name
  return [.type (← Lowering.ofReporting (TypeDeclaration.ofAlias
    setting.context.options.names name value none visible false docs))]

/-- The declaration of a constant. -/
def constantDeclarations (name : String) (value : Expr) (hint : Option Expr)
    (docs : Documentation) : Lowering (List Declaration) := do
  let visible := isPublic setting.exports name
  return [.constant (← ConstantDeclaration.ofValue setting.context name value hint visible docs)]

/-- Report a variable that is neither a type nor a constant. -/
def skipVariable (name : String) (line : Nat) : Lowering (List Declaration) := do
  Lowering.warn .reading ("Skipping module variable " ++ name ++ " on line " ++ toString line)
  return []

/-- The declarations that an annotated name makes. -/
def annotatedDeclarations (line : Nat) (name : String) (hint : Expr) (value : Option Expr)
    (docs : Documentation) : Lowering (List Declaration) :=
  if isAliasHint hint then aliasDeclarations setting name value docs
  else
    match value with
    | some value =>
      if Naming.isConstantName name || ConstantDeclaration.isFinal hint then
        constantDeclarations setting name value (some hint) docs
      else skipVariable name line
    | none => skipVariable name line

/-- The declarations that an assigned name makes. -/
def assignedDeclarations (line : Nat) (name : String) (value : Expr) (docs : Documentation) :
    Lowering (List Declaration) :=
  if name == "__all__" || isTypeVariable value then pure []
  else if Naming.isConstructorName name && TypeDeclaration.isTypeExpression value then
    aliasDeclarations setting name (some value) docs
  else if Naming.isConstantName name then constantDeclarations setting name value none docs
  else skipVariable name line

/-- Report a statement that declares nothing. -/
def skipStatement (statement : Stmt) : Lowering (List Declaration) := do
  if isProgramGuard statement then
    Lowering.note .debug .reading
      ("Skipping __main__ block on line " ++ toString statement.line)
  else
    Lowering.warn .reading
      ("Skipping unsupported " ++ statement.kind ++ " on line " ++ toString statement.line)
  return []

/-- The declarations of a statement; a bare text after it documents an alias or a constant. -/
def statementDeclarations (next : Option Stmt) : Stmt → Lowering (List Declaration)
  | .simple _ (.imports names) => pure ((Import.ofModules names).map .import)
  | .simple line (.importsFrom module names level) => do
    let i ← Lowering.ofReporting (Import.ofNames line module names level)
    return (i.map .import).toList
  | .classDef _ header body => classDeclarations setting header body
  | statement@(.function line header body) =>
    if header.isAsync then skipStatement statement
    else functionDeclarations setting ⟨line, header, body⟩
  | .simple line (.annotates (.name id) hint value) =>
    annotatedDeclarations setting line id hint value (.ofFollowing next)
  | .simple line (.assigns [.name id] value) =>
    assignedDeclarations setting line id value (.ofFollowing next)
  | .simple _ (.evaluates (.constant _)) => pure []
  | statement => skipStatement statement

/-- The declarations of statements in order. -/
def declarations : List Stmt → Lowering (List Declaration)
  | [] => pure []
  | statement :: rest => do
    let first ← statementDeclarations setting rest.head? statement
    return first ++ (← declarations rest)

end AikenForge.Collect

namespace AikenForge.DeclaredModule

open AikenForge.Source

/-- The module that source text declares. `file` is named in what is said about text that cannot be
read. -/
def ofSource (options : Options) (name file source : String) : Lowering DeclaredModule := do
  match readModule options.names source with
  | .error .nul => throw .nul
  | .error (.malformed line) => throw (.unreadable file line)
  | .ok statements =>
    let roles := RoleTable.ofModule statements
    let scope := Collect.scopeOf roles statements
    let (directives, reports) := Directive.scan source
    modify fun state => { state with journal := state.journal ++ reports }
    let setting : Collect.Setting :=
      { context := { scope, options, directives }, roles, exports := Collect.exports? statements }
    let found ← Collect.declarations setting statements
    return found.foldl add { name, docs := .ofBlock statements, scope }

end AikenForge.DeclaredModule
