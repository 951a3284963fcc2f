/-
# What lowering is composed of

All of lowering is put together from few operations on the state: looking at the aliases in force,
resolving a builtin, recording a form, reporting, and setting or ending aliases. The relation
`Composed` says so of a computation. It is shown here of names and of what lines ask for, and so, by
the walk over source, of everything else that is lowered, up to a whole module. What holds of the
single operations and passes through sequences then holds of all of lowering, by one induction over
this relation.

Expressions use less than blocks do: they leave the aliases around them alone.
-/

import AikenForge.Pipeline
import AikenForge.Proofs.Congruence.Walk
import AikenForge.Proofs.Run

namespace AikenForge

namespace Lowering

open AikenForge.Source AikenForge.Locals

/-- How much of the state a computation changes. -/
inductive Extent
  | expression
  | block
  deriving DecidableEq

variable {α β : Type} {extent : Extent}

/-- A computation is composed of the operations of lowering, to an extent. -/
inductive Composed : Extent → {α : Type} → Lowering α → Prop
  | pure {extent : Extent} {α : Type} (value : α) : Composed extent (Pure.pure value)
  | throw {extent : Extent} {α : Type} (failure : Failure) :
      Composed extent (throw failure : Lowering α)
  | bind {extent : Extent} {α β : Type} {action : Lowering α} {next : α → Lowering β} :
      Composed extent action → (∀ value, Composed extent (next value)) →
      Composed extent (action >>= next)
  | aliases {extent : Extent} {α : Type} (next : Table String → Lowering α) :
      (∀ aliases, Composed extent (next aliases)) →
      Composed extent (get >>= fun state => next state.aliases)
  | builtin {extent : Extent} (ctx : Context) (callee : Expr) :
      Composed extent (builtinTarget? ctx callee)
  | report {extent : Extent} (change : Journal → Journal) :
      Composed extent (modify fun state => { state with journal := change state.journal })
  | record {extent : Extent} (added : Records) : Composed extent (modifyRecords (· ++ added))
  | withAliases {extent : Extent} {α : Type} {action : Lowering α}
      (change : Table String → Table String) :
      Composed extent action → Composed extent (withAliases change action)
  | ofReporting {extent : Extent} {α : Type} {action : Reporting α} :
      action.Steady → Composed extent (ofReporting action)
  | setAlias (name text : String) : Composed .block (setAlias name text)
  | dropAliases (names : List String) : Composed .block (dropAliases names)
  | separately {α : Type} {action : Lowering α} :
      Composed .block action → Composed .block (separately action)

theorem composed_note (level : Level) (channel : Channel) (message : String) :
    Composed extent (note level channel message) :=
  .report fun journal => journal.add level channel message

theorem composed_warn (channel : Channel) (message : String) :
    Composed extent (warn channel message) :=
  composed_note .warning channel message

/-! ## A congruence

What is composed of the operations of lowering is so by itself: of the two computations that a
relation compares, this one looks at the first alone. -/

/-- The rules by which what is composed passes through sequences and into scopes. -/
theorem composed_congruence :
    ScopeCongruence fun {α} (action _ : Lowering α) => Composed extent action where
  pure value := .pure value
  throw failure := .throw failure
  bind haction hnext := haction.bind hnext
  note level channel message := composed_note level channel message
  record added := .record added
  withAliases change haction := haction.withAliases change

/-- Bindings and annotations are composed too, where aliases may change. -/
theorem composed_blockCongruence :
    BlockCongruence fun {α} (action _ : Lowering α) => Composed .block action where
  toScopeCongruence := composed_congruence
  setAlias name text := .setAlias name text
  dropAliases names := .dropAliases names
  ofReporting hsteady := .ofReporting hsteady

/-- A value put together afterwards changes no state. -/
theorem Composed.map {action : Lowering α} (f : α → β) (h : Composed extent action) :
    Composed extent (f <$> action) := by
  rw [map_eq_pure_bind]
  exact h.bind fun _ => .pure _

/-- A list that is gone through is composed of its steps. -/
theorem composed_mapM {f : α → Lowering β} (h : ∀ value, Composed extent (f value))
    (values : List α) : Composed extent (values.mapM f) :=
  composed_congruence.mapM (g := f) fun value _ => h value

/-! ## Builtins -/

/-- The target that a registry has for a name that nothing shadows. -/
def foundTarget? (ctx : Context) (state : LoweringState) (callee : Expr) : Option String :=
  match callee.name?, state.registry.map Registry.mappings with
  | some id, some mappings =>
    if ctx.scope.knownFunctions.contains id || state.aliases.contains id then none
    else mappings.find? id
  | _, _ => none

/-- The registry after a target was found, or not. -/
def useTarget (target : Option String) (registry : Registry) : Registry :=
  target.elim registry registry.use

@[simp]
theorem mappings_use (registry : Registry) (target : String) :
    (registry.use target).mappings = registry.mappings :=
  rfl

/-- Using a builtin leaves what names the table maps. -/
theorem mappings_useTarget (target : Option String) (registry : Option Registry) :
    (registry.map (useTarget target)).map Registry.mappings = registry.map Registry.mappings := by
  cases registry with
  | none => rfl
  | some registry => cases target <;> simp [useTarget]

/-- Looking for a builtin gives its target, and the registry records its use. -/
theorem outcome_builtinTarget? (ctx : Context) (callee : Expr) (state : LoweringState) :
    outcome (builtinTarget? ctx callee) state =
      (.ok (foundTarget? ctx state callee),
        { state with
          registry := state.registry.map (useTarget (foundTarget? ctx state callee)) }) := by
  unfold builtinTarget? foundTarget?
  obtain ⟨aliases, records, registry, journal⟩ := state
  rw [outcome_get_bind]
  cases callee.name? with
  | none => cases registry <;> rfl
  | some id =>
      cases registry with
      | none => rfl
      | some registry =>
          simp only [Option.map_some]
          split
          · rfl
          · simp only [Registry.resolve?]
            cases registry.mappings.find? id <;> rfl

/-! ## Names -/

section Walk

variable (ctx : Context)

/-- A name is written as its alias, or as it is spelled in the context, and the state stays. -/
theorem outcome_nameText (id : String) (state : LoweringState) :
    outcome (nameText ctx id) state =
      (.ok ((state.aliases.find? id).getD (plainName ctx id)), state) := by
  unfold nameText
  rw [outcome_get_bind]
  cases state.aliases.find? id <;> rfl

theorem composed_nameText (id : String) : Composed extent (nameText ctx id) := by
  let plain : Lowering String :=
    pure (if ctx.scope.constants.contains id then Naming.constantName id else id)
  have hname : nameText ctx id =
      get >>= fun state => (state.aliases.find? id).elim plain pure := by
    refine congrArg (get >>= ·) (funext fun state => ?_)
    cases state.aliases.find? id <;> rfl
  rw [hname]
  refine .aliases (fun aliases => (aliases.find? id).elim plain pure) fun aliases => ?_
  cases aliases.find? id <;> exact .pure _

theorem composed_calleeText (callee : Expr) {lowered : Lowering String}
    (h : Composed extent lowered) : Composed extent (calleeText ctx callee lowered) := by
  refine (Composed.builtin ctx callee).bind fun target => ?_
  split
  · exact .pure _
  · exact h.bind fun _ => .pure _

/-- A field of a name is read off the enumeration, left alone, or written after the name. -/
theorem composed_field (id label : String) :
    Composed extent (lower ctx (.attribute (.name id) label)) := by
  rw [lower]
  split
  · exact .pure _
  · refine .aliases (fun aliases =>
      if (Expr.name id).name? == some "self" && !aliases.contains "self" then pure label
      else do
        let text ← lower ctx (.name id)
        return bracketOperand (Expr.name id).precedence .atom false text ++ "." ++ label) ?_
    intro aliases
    split
    · exact .pure _
    · exact (composed_nameText ctx id).bind fun _ => .pure _

/-- The uses of names are composed, and so the whole of lowering is, form by form. -/
theorem composed_uses (found : List Use) :
    UsesRelated (fun {α} (action _ : Lowering α) => Composed extent action) ctx ctx found := by
  intro use _
  cases use with
  | load id => exact composed_nameText ctx id
  | call id => exact ⟨composed_calleeText ctx _ (composed_nameText ctx id), fun _ _ => rfl⟩
  | field id label => exact composed_field ctx id label

/-! ## Expressions and patterns -/

/-- Lowering an expression leaves the aliases, and adds to the rest of the state only. -/
theorem composed_lower (e : Expr) : Composed extent (lower ctx e) :=
  composed_congruence.expression rfl e (composed_uses ctx _)

theorem composed_lowerPipe (args : List Expr) : Composed extent (lowerPipe ctx args) :=
  composed_congruence.pipeArguments rfl args (composed_uses ctx _)

theorem composed_lowerAll (items : List Expr) : Composed extent (lowerAll ctx items) :=
  composed_congruence.all rfl items (composed_uses ctx _)

theorem composed_lowerFields (keywords : List Keyword) :
    Composed extent (lowerFields ctx keywords) :=
  composed_congruence.fields rfl keywords (composed_uses ctx _)

theorem composed_lowerLabelled (warnSpread : Bool) (keywords : List Keyword) :
    Composed extent (lowerLabelled ctx warnSpread keywords) :=
  composed_congruence.labelled rfl warnSpread keywords (composed_uses ctx _)

/-- Lowering a pattern does so as well. -/
theorem composed_lowerPattern (pattern : Pattern) : Composed extent (lowerPattern ctx pattern) :=
  composed_congruence.pattern rfl pattern fun e _ => composed_lower ctx e

theorem composed_lowerPatterns (patterns : List Pattern) :
    Composed extent (lowerPatterns ctx patterns) :=
  composed_congruence.patterns rfl patterns fun e _ => composed_lower ctx e

/-! ## Directives -/

theorem composed_pipeLine? (line : Nat) : Composed extent (pipeLine? ctx line) :=
  composed_congruence.pipeAbove rfl rfl fun _ _ parts _ => composed_lowerPipe ctx parts

theorem composed_expectDirective (text : String) : Composed extent (expectDirective ctx text) :=
  composed_congruence.check rfl fun _ _ => composed_lower ctx _

theorem composed_expectLines (line : Nat) : Composed extent (expectLines ctx line) :=
  composed_congruence.checks rfl rfl fun _ _ _ _ => composed_lower ctx _

theorem composed_subjectText (text : String) : Composed extent (subjectText ctx text) :=
  composed_congruence.subject rfl fun e _ => composed_lower ctx e

/-! ## Statements -/

theorem composed_blockText {lines : Lowering (List String)} (h : Composed extent lines) :
    Composed extent (blockText lines) :=
  (h.map _).withAliases id

/-- What goes around a statement is composed if its text is, for every pipe. -/
theorem composed_around (statement : Stmt) {text : Option String → Lowering String}
    (h : ∀ pipe, Composed .block (text pipe)) : Composed .block (around ctx statement text) :=
  (composed_pipeLine? ctx _).bind fun pipe => (Composed.dropAliases _).bind fun _ =>
    (h pipe).bind fun _ => (composed_expectLines ctx _).bind fun _ => .pure _

/-- Whatever is lowered of a statement is composed of the operations of lowering. -/
theorem composed_at (statement : Stmt) :
    RelatedAt (fun {α} (action _ : Lowering α) => Composed .block action) ctx ctx statement where
  heads e _ := composed_lower ctx e
  pipe := composed_pipeLine? ctx _
  checks := composed_expectLines ctx _
  dispatches := rfl
  subject text _ := composed_subjectText ctx text
  isAlias _ _ _ _ _ := rfl

/-- The text of a simple statement may bind an alias, and is composed in a block. -/
theorem composed_simpleText (line : Nat) (pipe : Option String) (statement : Simple) :
    Composed .block (simpleText ctx line pipe statement) :=
  composed_blockCongruence.simple rfl line pipe (fun e _ => composed_lower ctx e) fun _ _ => rfl

/-- Lowering statements changes aliases within the block, and adds to the rest of the state. -/
theorem composed_lowerLines (statements : List Stmt) :
    Composed .block (lowerLines ctx statements) :=
  composed_blockCongruence.lines rfl rfl statements fun statement _ => composed_at ctx statement

theorem composed_lowerText (pipe : Option String) (statement : Stmt) :
    Composed .block (lowerText ctx pipe statement) :=
  composed_blockCongruence.text rfl rfl pipe statement (composed_at ctx statement)
    fun inside _ => composed_at ctx inside

theorem composed_functionText (f : FunctionSource) : Composed .block (functionText ctx f) :=
  composed_blockCongruence.function rfl rfl (fun _ _ => rfl)
    (fun d _ _ => composed_expectDirective ctx d.text) fun statement _ => composed_at ctx statement

end Walk

end Lowering

/-! ## Declarations -/

open AikenForge.Source AikenForge.Lowering

/-- Declaring a function from its source. -/
theorem FunctionDeclaration.composed_ofSource (ctx : Context) (f : FunctionSource)
    (isPublic isMethod : Bool) (docs : Documentation) :
    Composed .block (ofSource ctx f isPublic isMethod docs) :=
  (composed_functionText ctx f).separately.bind fun _ =>
    (Composed.ofReporting (steady_parametersOf _ _ _)).bind fun _ =>
      (Composed.ofReporting (steady_hintText? _ _)).bind fun _ => .pure _

/-- Declaring a test from its source. -/
theorem TestDeclaration.composed_ofSource (ctx : Context) (f : FunctionSource)
    (docs : Documentation) : Composed .block (ofSource ctx f docs) := by
  unfold ofSource
  extract_lets declared
  have hdeclared (u : Unit) : Composed .block (declared u) :=
    (composed_functionText ctx f).separately.bind fun _ => .pure _
  split
  · exact (composed_warn _ _).bind hdeclared
  · exact hdeclared ()

/-- Declaring a constant from its value. -/
theorem ConstantDeclaration.composed_ofValue (ctx : Context) (name : String) (value : Expr)
    (hint : Option Expr) (isPublic : Bool) (docs : Documentation) :
    Composed .block (ofValue ctx name value hint isPublic docs) := by
  refine (Composed.ofReporting (steady_typeOf _ hint value)).bind fun type => ?_
  extract_lets declared
  have hdeclared (u : Unit) : Composed .block (declared u) :=
    (composed_lower ctx value).bind fun _ => .pure _
  split
  · exact (composed_note _ _ _).bind hdeclared
  · exact hdeclared ()

namespace Collect

variable (setting : Setting)

/-- A method of a contract, whatever role it has. -/
theorem composed_method (className contract : String) (datumType : Option String)
    (statement : Stmt) :
    Composed .block (method setting className contract datumType statement) := by
  unfold method
  split
  · split
    · exact .pure _
    · split
      · exact (Composed.ofReporting
          (FunctionDeclaration.steady_ofHandlerSource _ _ _ _ _ _)).bind fun _ => .pure _
      · exact (FunctionDeclaration.composed_ofSource _ _ _ _ _).bind fun _ => .pure _
  · exact .pure _

/-- The declarations of a contract are those of its members, one after the other. -/
theorem composed_contract (className name : String) (body : List Stmt) :
    Composed .block (contract setting className name body) :=
  (Composed.ofReporting (steady_contractDatum setting _ _)).bind fun (datumType, _) =>
    (composed_mapM (composed_method setting className name datumType) body).bind fun _ => .pure _

theorem composed_classDeclarations (header : ClassHeader) (body : List Stmt) :
    Composed .block (classDeclarations setting header body) := by
  unfold classDeclarations
  split
  · exact composed_contract setting _ _ _
  · split
    · exact (Composed.ofReporting (TypeDeclaration.steady_ofEnum _ _ _ _)).bind fun _ => .pure _
    · exact (Composed.ofReporting (TypeDeclaration.steady_ofRecord _ _ _ _ _ _)).bind fun _ =>
        .pure _

theorem composed_functionDeclarations (f : FunctionSource) :
    Composed .block (functionDeclarations setting f) := by
  unfold functionDeclarations
  extract_lets docs name
  split
  · exact (TestDeclaration.composed_ofSource _ _ _).bind fun _ => .pure _
  · exact (FunctionDeclaration.composed_ofSource _ _ _ _ _).bind fun _ => .pure _

theorem composed_aliasDeclarations (name : String) (value : Option Expr) (docs : Documentation) :
    Composed .block (aliasDeclarations setting name value docs) :=
  (Composed.ofReporting (TypeDeclaration.steady_ofAlias _ _ _ _ _ _ _)).bind fun _ => .pure _

theorem composed_constantDeclarations (name : String) (value : Expr) (hint : Option Expr)
    (docs : Documentation) : Composed .block (constantDeclarations setting name value hint docs) :=
  (ConstantDeclaration.composed_ofValue _ _ _ _ _ _).bind fun _ => .pure _

theorem composed_skipVariable (name : String) (line : Nat) :
    Composed .block (skipVariable name line) :=
  (composed_warn _ _).bind fun _ => .pure _

theorem composed_annotatedDeclarations (line : Nat) (name : String) (hint : Expr)
    (value : Option Expr) (docs : Documentation) :
    Composed .block (annotatedDeclarations setting line name hint value docs) := by
  unfold annotatedDeclarations
  split
  · exact composed_aliasDeclarations setting _ _ _
  · split
    · split
      · exact composed_constantDeclarations setting _ _ _ _
      · exact composed_skipVariable _ _
    · exact composed_skipVariable _ _

theorem composed_assignedDeclarations (line : Nat) (name : String) (value : Expr)
    (docs : Documentation) :
    Composed .block (assignedDeclarations setting line name value docs) := by
  unfold assignedDeclarations
  split
  · exact .pure _
  · split
    · exact composed_aliasDeclarations setting _ _ _
    · split
      · exact composed_constantDeclarations setting _ _ _ _
      · exact composed_skipVariable _ _

theorem composed_skipStatement (statement : Stmt) : Composed .block (skipStatement statement) := by
  unfold skipStatement
  split
  · exact (composed_note _ _ _).bind fun _ => .pure _
  · exact (composed_warn _ _).bind fun _ => .pure _

/-- The declarations that a statement of a module gives rise to. -/
theorem composed_statementDeclarations (next : Option Stmt) (statement : Stmt) :
    Composed .block (statementDeclarations setting next statement) := by
  unfold statementDeclarations
  split
  case h_1 => exact .pure _
  case h_2 => exact (Composed.ofReporting (Import.steady_ofNames _ _ _ _)).bind fun _ => .pure _
  case h_3 => exact composed_classDeclarations setting _ _
  case h_4 =>
    split
    · exact composed_skipStatement _
    · exact composed_functionDeclarations setting _
  case h_5 => exact composed_annotatedDeclarations setting _ _ _ _ _
  case h_6 => exact composed_assignedDeclarations setting _ _ _ _
  case h_7 => exact .pure _
  case h_8 => exact composed_skipStatement _

/-- The declarations of a module, statement by statement. -/
theorem composed_declarations (statements : List Stmt) :
    Composed .block (declarations setting statements) := by
  induction statements with
  | nil => exact .pure _
  | cons statement rest ih =>
      exact (composed_statementDeclarations setting _ _).bind fun _ => ih.bind fun _ => .pure _

end Collect

/-- Declaring a whole module from its source text. -/
theorem DeclaredModule.composed_ofSource (options : Options) (name file source : String) :
    Composed .block (ofSource options name file source) := by
  unfold ofSource
  split
  · exact .throw _
  · exact .throw _
  · exact (Composed.report fun journal => journal ++ (Directive.scan source).2).bind fun _ =>
      (Collect.composed_declarations _ _).bind fun _ => .pure _

/-- Bringing one handler to canonical form. -/
theorem FunctionDeclaration.composed_canonicalize (options : Options) (scope : Scope)
    (f : FunctionDeclaration) : Composed .block (f.canonicalize options scope) := by
  unfold canonicalize
  extract_lets parameters returnType
  split
  · exact (composed_note _ _ _).bind fun _ => .pure _
  · exact (composed_functionText _ _).separately.bind fun _ => .pure _

/-- Bringing the handlers of a module to canonical form. -/
theorem DeclaredModule.composed_canonicalize (options : Options) (m : DeclaredModule) :
    Composed .block (m.canonicalize options) := by
  refine (composed_mapM (fun f => ?_) m.functions).bind fun _ => .pure _
  split
  · exact (composed_note _ _ _).bind fun _ => f.composed_canonicalize options m.scope
  · exact .pure _

end AikenForge
