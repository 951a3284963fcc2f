/-
# What collecting declarations ends with

Collecting the declarations of a module fails only for causes that stand in its source: literals,
annotations, directives, and the annotation of a contract's datum. Every declaration that it gives
can be written, every function, method and test of the module is declared with a body that holds the
strings written in it or, for a handler, with the source of that body, and every alias of a literal
annotation is declared with the literals in it.
-/

import AikenForge.Declaration.Collect
import AikenForge.Proofs.Handler.Likeness
import AikenForge.Proofs.Outcome.Body
import AikenForge.Proofs.Outcome.Rendering

namespace AikenForge.Collect

open AikenForge.Source AikenForge.Text AikenForge.Expectation AikenForge.Lowering

/-! ## Harmless modules -/

/-- The annotations of a statement outside its nested statements, and the value that it gives a type
a name for. -/
def typesOf : Stmt → List Expr
  | .simple _ (.annotates _ hint value) => hint :: (if isAliasHint hint then value.toList else [])
  | .simple _ (.assigns _ value) => if TypeDeclaration.isTypeExpression value then [value] else []
  | .function _ header _ => Likeness.signatureHints header
  | _ => []

/-- A statement of a class that annotates a name. -/
def IsProperty (statements : List Stmt) (className name : String) (hint : Expr) : Prop :=
  ∃ line header body, .classDef line header body ∈ statements ∧ header.name = className ∧
    ∃ inner value, .simple inner (.annotates (.name name) hint value) ∈ body

/-- The failures that may come of a module are allowed: those of its literals, of its annotations,
of its directives, and of a property of a contract that is taken for a datum by its name. -/
structure HarmlessModule (fails : Failure → Prop) (setting : Setting)
    (statements : List Stmt) : Prop where
  literals : ∀ statement ∈ nestedAll statements,
    Harmless fails (Expr.all statement.ownExpressions)
  types : ∀ statement ∈ nestedAll statements, ∀ hint ∈ typesOf statement,
    Hint.Harmless setting.context.options.names fails hint
  directives : HarmlessTable setting.context.options.names fails setting.context.directives
  datum : ∀ className contract name hint field failure,
    setting.roles.contract? className = some contract → IsProperty statements className name hint →
    setting.roles.role? (className ++ "." ++ name) = some (.datum field) →
    datumPart hint = .error failure → fails failure

variable {fails : Failure → Prop} {setting : Setting} {statements : List Stmt}
  {base : LoweringState}

/-- The body of a function whose nested statements are among those of a harmless module. -/
theorem HarmlessModule.block (h : HarmlessModule fails setting statements) {body : List Stmt}
    (hbody : nestedAll body ⊆ nestedAll statements) :
    HarmlessBlock setting.context.options.names fails body := by
  intro statement hstatement
  refine ⟨h.literals statement (hbody hstatement), ?_⟩
  rintro line target hint value rfl
  exact h.types _ (hbody hstatement) hint List.mem_cons_self

/-- The annotations of any function in a harmless module resolve, or fail harmlessly. -/
theorem HarmlessModule.signature (h : HarmlessModule fails setting statements) {line : Nat}
    {header : FunctionHeader} {body : List Stmt}
    (hmem : .function line header body ∈ nestedAll statements) :
    Likeness.SignatureEnds setting.context.options.names fails header :=
  fun hint hhint => (Hint.completes_resolve (h.types _ hmem hint hhint)).imp fun _ _ => trivial

/-! ## Sound declarations -/

/-- A declaration that can be written: a type is complete and defined by its text, and a handler is
declared from a source whose body is harmless. -/
def Sound (fails : Failure → Prop) (setting : Setting) : Declaration → Prop
  | .type d => d.IsComplete
  | .function d => d.isHandler = true → ∃ f purpose,
      Likeness.DeclaresHandler setting.context f purpose d ∧
        HarmlessBlock setting.context.options.names fails f.body
  | _ => True

/-- A type that is complete is declared soundly. -/
theorem sound_ofTarget {target : Target} (h : target.isComplete = true) (name : String)
    (typeParameters : Option (List String)) (isPublic isOpaque : Bool) (docs : Documentation) :
    Sound fails setting (.type (.ofTarget name target typeParameters isPublic isOpaque docs)) :=
  ⟨target, rfl, h, rfl⟩

/-! ## What a module declares -/

/-- The context in which the body of a method is lowered: a handler keeps the directives of its
lines, and the transactions of its parameters may have names. -/
def methodContext (setting : Setting) (className : String) (f : FunctionSource) : Context :=
  match setting.roles.role? (className ++ "." ++ f.header.name) with
  | some (.handler purposeName) =>
    Likeness.handlerContext setting.context (Purpose.ofLabel purposeName) f
  | _ => setting.context

/-- The functions, tests and methods of contracts that a module declares, with the context in which
their bodies are lowered. -/
inductive HasBody (setting : Setting) (statements : List Stmt) : FunctionSource → Context → Prop
  | function {f : FunctionSource} (hmem : .function f.line f.header f.body ∈ statements)
      (hsync : f.header.isAsync = false) : HasBody setting statements f setting.context
  | method {f : FunctionSource} {line : Nat} {header : ClassHeader} {members : List Stmt}
      {contract : String} (hclass : .classDef line header members ∈ statements)
      (hcontract : setting.roles.contract? header.name = some contract)
      (hmem : .function f.line f.header f.body ∈ members) (hsync : f.header.isAsync = false) :
      HasBody setting statements f (methodContext setting header.name f)

/-- The state in which the body of a function is lowered: no alias is in force. -/
def bodyState (registry : Registry) : LoweringState :=
  { registry := some registry }

/-- The literal annotations that a module gives a name, by their arguments. -/
inductive NamesLiteral (statements : List Stmt) (name : String) : List Expr → Prop
  | annotated {line : Nat} {hint base index : Expr} (hhint : isAliasHint hint = true)
      (hbase : Hint.baseName? base = some "Literal")
      (hmem : .simple line (.annotates (.name name) hint (some (.subscript base index))) ∈
        statements) :
      NamesLiteral statements name (Hint.genericArgs index)
  | assigned {line : Nat} {base index : Expr} (hname : Naming.isConstructorName name = true)
      (hbase : Hint.baseName? base = some "Literal")
      (hmem : .simple line (.assigns [.name name] (.subscript base index)) ∈ statements) :
      NamesLiteral statements name (Hint.genericArgs index)

/-- A declaration of a function: its text holds the strings written in the body, or it is a handler
whose body is still to be lowered. -/
def Declares (setting : Setting) (base : LoweringState) (f : FunctionSource) (ctx : Context) :
    Declaration → Prop
  | .function d =>
    (d.isHandler = false ∧
      Bears setting.context.options.indent.toNat (writtenFunction ctx base f) d.body) ∨
    ∃ purpose, Likeness.DeclaresHandler setting.context f purpose d ∧
      ctx = Likeness.handlerContext setting.context purpose f
  | .test t => Bears setting.context.options.indent.toNat (writtenFunction ctx base f) t.body
  | _ => False

/-- A declaration of an alias with the literals of its arguments. -/
def DeclaresLiteral (args : List Expr) : Declaration → Prop
  | .type d => ∃ target, d.target = some target ∧ Hint.HoldsLiterals args target
  | _ => False

/-- The declarations of statements can be written, and declare what the statements do. -/
structure Collected (fails : Failure → Prop) (setting : Setting) (base : LoweringState)
    (statements : List Stmt) (found : List Declaration) : Prop where
  sound : ∀ d ∈ found, Sound fails setting d
  bodies : ∀ f ctx, HasBody setting statements f ctx → ∃ d ∈ found, Declares setting base f ctx d
  literals : ∀ name args, NamesLiteral statements name args → ∃ d ∈ found, DeclaresLiteral args d

theorem collected_nil : Collected fails setting base [] [] where
  sound := by simp
  bodies := by
    rintro f ctx h
    cases h with
    | function hmem hsync => cases hmem
    | method hclass hcontract hmem hsync => cases hclass
  literals := by
    rintro name args h
    cases h with
    | annotated hhint hbase hmem => cases hmem
    | assigned hname hbase hmem => cases hmem

/-- A body in a list of statements is in the first or in the rest. -/
theorem HasBody.cons {statement : Stmt} {rest : List Stmt} {f : FunctionSource} {ctx : Context}
    (h : HasBody setting (statement :: rest) f ctx) :
    HasBody setting [statement] f ctx ∨ HasBody setting rest f ctx := by
  cases h with
  | function hmem hsync =>
      rcases List.mem_cons.mp hmem with hmem | hmem
      · exact .inl (.function (by simp [hmem]) hsync)
      · exact .inr (.function hmem hsync)
  | method hclass hcontract hmem hsync =>
      rcases List.mem_cons.mp hclass with hclass | hclass
      · exact .inl (.method (by rw [hclass]; exact List.mem_singleton_self _) hcontract hmem hsync)
      · exact .inr (.method hclass hcontract hmem hsync)

/-- A literal type in a list of statements is in the first or in the rest. -/
theorem NamesLiteral.cons {statement : Stmt} {rest : List Stmt} {name : String} {args : List Expr}
    (h : NamesLiteral (statement :: rest) name args) :
    NamesLiteral [statement] name args ∨ NamesLiteral rest name args := by
  cases h with
  | annotated hhint hbase hmem =>
      rcases List.mem_cons.mp hmem with hmem | hmem
      · exact .inl (.annotated hhint hbase (by rw [hmem]; exact List.mem_singleton_self _))
      · exact .inr (.annotated hhint hbase hmem)
  | assigned hname hbase hmem =>
      rcases List.mem_cons.mp hmem with hmem | hmem
      · exact .inl (.assigned hname hbase (by rw [hmem]; exact List.mem_singleton_self _))
      · exact .inr (.assigned hname hbase hmem)

/-- The declarations of a statement and those of the statements after it. -/
theorem Collected.cons {statement : Stmt} {rest : List Stmt} {found more : List Declaration}
    (h : Collected fails setting base [statement] found)
    (hrest : Collected fails setting base rest more) :
    Collected fails setting base (statement :: rest) (found ++ more) where
  sound := List.forall_mem_append.mpr ⟨h.sound, hrest.sound⟩
  bodies f ctx hbody := by
    rcases hbody.cons with hbody | hbody
    · obtain ⟨d, hd, hdeclares⟩ := h.bodies f ctx hbody
      exact ⟨d, List.mem_append_left _ hd, hdeclares⟩
    · obtain ⟨d, hd, hdeclares⟩ := hrest.bodies f ctx hbody
      exact ⟨d, List.mem_append_right _ hd, hdeclares⟩
  literals name args hnames := by
    rcases hnames.cons with hnames | hnames
    · obtain ⟨d, hd, hdeclares⟩ := h.literals name args hnames
      exact ⟨d, List.mem_append_left _ hd, hdeclares⟩
    · obtain ⟨d, hd, hdeclares⟩ := hrest.literals name args hnames
      exact ⟨d, List.mem_append_right _ hd, hdeclares⟩

/-! ## Types -/

section Types

variable {names : CharacterNames}

/-- An annotation that may be missing is resolved where there is one. -/
theorem completes_resolve? {value : Option Expr}
    (h : ∀ e ∈ value, Hint.Harmless names fails e) :
    Hint.Completes fails (Hint.resolve? names value) := by
  cases value with
  | none => exact .pure rfl
  | some e => exact Hint.completes_resolve (h e rfl)

/-- An alias is declared with the type that its value resolves to. -/
theorem ends_ofAlias (name : String) {value : Option Expr} (typeParameters : Option (List String))
    (isPublic isOpaque : Bool) (docs : Documentation) {gives : Target → Prop}
    (h : Ends (fun _ => True) fails gives (Hint.resolve? names value)) :
    Ends (fun _ => True) fails
      (fun d => ∃ target, gives target ∧
        d = .ofTarget name target typeParameters isPublic isOpaque docs)
      (TypeDeclaration.ofAlias names name value typeParameters isPublic isOpaque docs) := by
  refine Ends.bind h fun target htarget => ?_
  have hdeclared : Ends (fun _ : Journal => True) fails
      (fun d => ∃ target, gives target ∧
        d = TypeDeclaration.ofTarget name target typeParameters isPublic isOpaque docs)
      (pure (TypeDeclaration.ofTarget name target typeParameters isPublic isOpaque docs)) :=
    .pure ⟨target, htarget, rfl⟩
  split
  · split
    · exact (Reporting.ends_warn _ _).bind fun _ _ => hdeclared
    · exact hdeclared
  · exact hdeclared

/-- An enumeration is declared whatever its members are. -/
theorem ends_ofEnum (header : ClassHeader) (body : List Stmt) (isPublic : Bool)
    (docs : Documentation) :
    Ends (fun _ => True) fails (fun d => Sound fails setting (.type d))
      (TypeDeclaration.ofEnum header body isPublic docs) := by
  unfold TypeDeclaration.ofEnum
  split
  · exact (Reporting.ends_warn _ _).bind fun _ _ => .pure (sound_ofTarget rfl _ _ _ _ _)
  · refine .pure (sound_ofTarget ?_ _ _ _ _ _)
    rw [Target.isComplete, Target.allComplete_iff]
    simp [Target.isComplete]

/-- The fields of a record are declared if their annotations resolve. -/
theorem ends_recordFields (className : String) {body : List Stmt}
    (h : ∀ line target hint value, .simple line (.annotates target hint value) ∈ body →
      Hint.Harmless names fails hint) :
    Hint.CompletesFields fails (TypeDeclaration.recordFields names className body) := by
  fun_induction TypeDeclaration.recordFields names className body with
  | case1 => exact .pure rfl
  | case2 line id hint value rest ih =>
      have hhint := Hint.completes_resolve (h line _ hint value List.mem_cons_self)
      have hrest := ih fun l t e v hmem => h l t e v (List.mem_cons_of_mem _ hmem)
      refine Ends.bind hhint fun type htype => Ends.bind hrest fun fields hfields => .pure ?_
      rw [Target.fieldsComplete, htype, hfields]
      rfl
  | case3 line header inner rest ih =>
      exact (Reporting.ends_warn _ _).bind fun _ _ =>
        ih fun l t e v hmem => h l t e v (List.mem_cons_of_mem _ hmem)
  | case4 statement rest _ _ ih =>
      exact ih fun l t e v hmem => h l t e v (List.mem_cons_of_mem _ hmem)

/-- A record is declared if the annotations of its fields resolve. -/
theorem ends_ofRecord (header : ClassHeader) {body : List Stmt} (isPublic isOpaque : Bool)
    (docs : Documentation)
    (h : ∀ line target hint value, .simple line (.annotates target hint value) ∈ body →
      Hint.Harmless names fails hint) :
    Ends (fun _ => True) fails (fun d => Sound fails setting (.type d))
      (TypeDeclaration.ofRecord names header body isPublic isOpaque docs) := by
  refine Ends.bind (ends_recordFields header.name h) fun fields hfields => ?_
  have hdeclared : Ends (fun _ : Journal => True) fails (fun d => Sound fails setting (.type d))
      (pure (TypeDeclaration.ofTarget header.name (.record fields)
        (TypeDeclaration.typeParametersOf header) isPublic isOpaque docs)) :=
    .pure (sound_ofTarget (by rwa [Target.isComplete]) _ _ _ _ _)
  split
  · exact (Reporting.ends_warn _ _).bind fun _ _ => hdeclared
  · exact hdeclared

end Types

/-! ## Imports and constants -/

/-- What an import exposes is read with at most a warning. -/
theorem ends_exposedNames (module : String) (names : List ImportName) :
    Ends (fun _ => True) fails (fun _ => True) (Import.exposedNames module names) := by
  induction names with
  | nil => exact .pure trivial
  | cons n rest ih =>
      have hnames (u : Unit) : Ends (fun _ => True) fails (fun _ => True) (do
          return n.name :: (← Import.exposedNames module rest)) :=
        ih.bind fun _ _ => .pure trivial
      unfold Import.exposedNames
      split
      · exact (Reporting.ends_warn _ _).bind fun _ _ => ih
      split
      · split
        · exact (Reporting.ends_warn _ _).bind fun u _ => hnames u
        · exact hnames ()
      · exact hnames ()

/-- An import is read with at most a warning. -/
theorem ends_ofNames (line : Nat) (module : Option String) (names : List ImportName) (level : Nat) :
    Ends (fun _ => True) fails (fun _ => True) (Import.ofNames line module names level) := by
  unfold Import.ofNames
  split
  · exact (Reporting.ends_warn _ _).bind fun _ _ => .pure trivial
  split
  · exact .pure trivial
  split
  · exact .pure trivial
  · refine (ends_exposedNames _ names).bind fun exposed _ => ?_
    split <;> exact .pure trivial

/-- The type of a constant is its annotation's, or read off its value. -/
theorem ends_typeOf {names : CharacterNames} {hint : Option Expr} (value : Expr)
    (h : ∀ e ∈ hint, Hint.Harmless names fails e) :
    Ends (fun _ => True) fails (fun _ => True) (ConstantDeclaration.typeOf names hint value) := by
  unfold ConstantDeclaration.typeOf
  split
  · exact .pure trivial
  split
  · exact .pure trivial
  · exact Ends.bind (Hint.completes_resolve (h _ rfl)) fun _ _ => .pure trivial

/-- A constant is declared if its annotation resolves and its value is lowered. -/
theorem ends_ofValue (ctx : Context) (name : String) {value : Expr} {hint : Option Expr}
    (isPublic : Bool) (docs : Documentation)
    (hhint : ∀ e ∈ hint, Hint.Harmless ctx.options.names fails e)
    (h : Harmless fails value.subterms) :
    Ends (Alike base) fails (fun _ => True)
      (ConstantDeclaration.ofValue ctx name value hint isPublic docs) := by
  have htext : EndsText ctx base fails (written ctx base value) (lower ctx value) :=
    ends_lower base value h
  have hdeclared (type : Option String) (u : Unit) : Ends (Alike base) fails (fun _ => True) (do
      let text ← lower ctx value
      return ({ name := Naming.constantName name, value := text, type, isPublic, docs } :
        ConstantDeclaration)) :=
    htext.bind fun _ _ => .pure trivial
  refine (ends_ofReporting alike_journal (ends_typeOf value hhint)).bind fun type _ => ?_
  dsimp only
  split
  · exact (ends_note _ _ _).bind fun u _ => hdeclared type u
  · exact hdeclared type ()

/-! ## Functions -/

/-- The type of what a function returns. -/
theorem signature_hintText? {names : CharacterNames} {header : FunctionHeader}
    (h : Likeness.SignatureEnds names fails header) :
    Ends (fun _ => True) fails (fun _ => True)
      (FunctionDeclaration.hintText? names header.returns) :=
  Likeness.ends_hintText? fun e he => h e (List.mem_append_right _ (Option.mem_toList.mpr he))

section Functions

variable {registry : Registry} {f : FunctionSource}

/-- The body of a function is lowered by itself. -/
theorem ends_body {ctx : Context} (h : HarmlessTable ctx.options.names fails ctx.directives)
    (hbody : HarmlessBlock ctx.options.names fails f.body) :
    Ends (Alike (bodyState registry)) fails
      (fun result => Bears ctx.options.indent.toNat
        (writtenFunction ctx (bodyState registry) f) result.1)
      (separately (functionText ctx f)) := by
  have htext : TextFrom ctx (bodyState registry) fails
      (writtenFunction ctx (bodyState registry) f) (functionText ctx f) :=
    textFrom_functionText h hbody
  exact htext.separately (composed_functionText ctx f).uniform

variable (h : HarmlessTable setting.context.options.names fails setting.context.directives)
  (hbody : HarmlessBlock setting.context.options.names fails f.body)

include h hbody

/-- A function is declared with the strings of its body. -/
theorem ends_ofSource
    (hsignature : Likeness.SignatureEnds setting.context.options.names fails f.header)
    (isPublic isMethod : Bool) (docs : Documentation) :
    Ends (Alike (bodyState registry)) fails
      (fun d => d.isHandler = false ∧
        Declares setting (bodyState registry) f setting.context (.function d))
      (FunctionDeclaration.ofSource setting.context f isPublic isMethod docs) := by
  have hparameters := Likeness.ends_parametersOf hsignature isMethod
  have hreturns := signature_hintText? hsignature
  exact (ends_body h hbody).bind fun _ htext =>
    (ends_ofReporting alike_journal hparameters).bind fun _ _ =>
      (ends_ofReporting alike_journal hreturns).bind fun _ _ => .pure ⟨rfl, .inl ⟨rfl, htext⟩⟩

/-- A test is declared with the strings of its body. -/
theorem ends_testBody (docs : Documentation) :
    Ends (Alike (bodyState registry)) fails
      (fun t => Declares setting (bodyState registry) f setting.context (.test t)) (do
        let (body, _) ← separately (functionText setting.context f)
        return ({ name := f.header.name, body, docs } : TestDeclaration)) :=
  (ends_body h hbody).bind fun _ htext => .pure htext

theorem ends_testOfSource (docs : Documentation) :
    Ends (Alike (bodyState registry)) fails
      (fun t => Declares setting (bodyState registry) f setting.context (.test t))
      (TestDeclaration.ofSource setting.context f docs) := by
  unfold TestDeclaration.ofSource
  split
  · exact (ends_warn _ _).bind fun _ _ => ends_testBody h hbody docs
  · exact ends_testBody h hbody docs

end Functions

/-! ## Statements -/

variable {registry : Registry}

/-- The only statement of a list is the function that it is. -/
theorem eq_of_mem_singleton {f g : FunctionSource}
    (h : Stmt.function f.line f.header f.body ∈ [Stmt.function g.line g.header g.body]) :
    f = g := by
  obtain ⟨line, header, body⟩ := f
  obtain ⟨line', header', body'⟩ := g
  cases List.mem_singleton.mp h
  rfl

/-- The one declaration of a function. -/
theorem collected_function {f : FunctionSource} {d : Declaration} (hsound : Sound fails setting d)
    (hdeclares : Declares setting base f setting.context d) :
    Collected fails setting base [.function f.line f.header f.body] [d] where
  sound := by simpa using hsound
  bodies g ctx hbody := by
    cases hbody with
    | function hmem hsync =>
        obtain rfl := eq_of_mem_singleton hmem
        exact ⟨d, List.mem_singleton_self d, hdeclares⟩
    | method hclass hcontract hmem hsync => cases List.mem_singleton.mp hclass
  literals name args hnames := by
    cases hnames with
    | annotated hhint hbase hmem => cases List.mem_singleton.mp hmem
    | assigned hname hbase hmem => cases List.mem_singleton.mp hmem

/-- A function is declared by its role, if its body is harmless. -/
theorem ends_functionDeclarations (h : HarmlessModule fails setting statements) {f : FunctionSource}
    (hmem : .function f.line f.header f.body ∈ statements) :
    Ends (Alike (bodyState registry)) fails (Collected fails setting (bodyState registry)
      [.function f.line f.header f.body])
      (functionDeclarations setting f) := by
  have hbody := h.block (nested_subset hmem)
  unfold functionDeclarations
  dsimp only
  split
  · exact (ends_testOfSource h.directives hbody _).bind fun _ hdeclares =>
      .pure (collected_function trivial hdeclares)
  · refine (ends_ofSource h.directives hbody (h.signature (mem_nestedAll hmem)) _ _ _).bind
      fun d hd => .pure (collected_function (fun hhandler => ?_) hd.2)
    rw [hd.1] at hhandler
    cases hhandler

/-- The declarations of a method declare it and can be written. -/
def MethodCollected (fails : Failure → Prop) (setting : Setting) (base : LoweringState)
    (className : String) (member : Stmt) (found : List Declaration) : Prop :=
  (∀ d ∈ found, Sound fails setting d) ∧
    ∀ f : FunctionSource, member = .function f.line f.header f.body → f.header.isAsync = false →
      ∃ d ∈ found, Declares setting base f (methodContext setting className f) d

/-- What is declared for a method is collected for its class. -/
theorem methodCollected_function {className : String} {f : FunctionSource} {d : Declaration}
    (hsound : Sound fails setting d)
    (hdeclares : Declares setting base f (methodContext setting className f) d) :
    MethodCollected fails setting base className (.function f.line f.header f.body) [d] := by
  refine ⟨by simpa using hsound, fun g hg _ => ⟨d, List.mem_singleton_self d, ?_⟩⟩
  obtain rfl := eq_of_mem_singleton (List.mem_singleton.mpr hg.symm)
  exact hdeclares

/-- A method is declared as a handler, a test or a helper, or it is left out. -/
theorem ends_method (h : HarmlessModule fails setting statements) {line : Nat}
    {header : ClassHeader}
    {members : List Stmt} (hclass : .classDef line header members ∈ statements)
    (contract : String) (datumType : Option String) {member : Stmt} (hmember : member ∈ members) :
    Ends (Alike (bodyState registry)) fails (MethodCollected fails setting (bodyState registry)
      header.name member)
      (method setting header.name contract datumType member) := by
  have hinside : nestedAll members ⊆ nestedAll statements := nested_subset hclass
  cases member with
  | function inner signature body =>
      have hbody := h.block (List.Subset.trans (nested_subset hmember) hinside)
      have hsignature := h.signature (hinside (mem_nestedAll hmember))
      rw [method]
      split
      · rename_i hasync
        exact .pure ⟨by simp, fun f hf hsync => by cases hf; simp [hasync] at hsync⟩
      · dsimp only
        split
        · rename_i purpose docs hrole
          have hcontext : methodContext setting header.name ⟨inner, signature, body⟩ =
              Likeness.handlerContext setting.context (Purpose.ofLabel purpose)
                ⟨inner, signature, body⟩ := by
            simp [methodContext, RoleTable.role?, hrole]
          refine (ends_ofReporting alike_journal (Likeness.ends_ofHandlerSource setting.context
            hsignature contract purpose docs datumType)).bind fun d hd => .pure ?_
          exact methodCollected_function (f := ⟨inner, signature, body⟩)
            (fun _ => ⟨_, _, hd, hbody⟩) (.inr ⟨_, hd, hcontext⟩)
        · rename_i hrole
          have hcontext : methodContext setting header.name ⟨inner, signature, body⟩ =
              setting.context := by
            unfold methodContext RoleTable.role?
            cases hfind : setting.roles.find? (header.name ++ "." ++ signature.name) with
            | none => rfl
            | some entry =>
                obtain ⟨role, docs⟩ := entry
                cases role with
                | handler purpose => exact absurd hfind (hrole purpose docs)
                | _ => rfl
          refine (ends_ofSource h.directives hbody hsignature _ _ _).bind fun d hd => .pure ?_
          refine methodCollected_function (f := ⟨inner, signature, body⟩) (fun hhandler => ?_) ?_
          · rw [hd.1] at hhandler
            cases hhandler
          · rw [hcontext]
            exact hd.2
  | _ => exact .pure ⟨by simp, fun f hf => by cases hf⟩

/-- The datum's type is part of its annotation. -/
theorem datumPart_subset {hint inner : Expr} (h : datumPart hint = .ok inner) :
    inner.subterms ⊆ hint.subterms := by
  intro e he
  unfold datumPart at h
  split at h <;> cases h <;> simp [Expr.subterms, Expr.all, he]

/-- A result that was there already changes no state. -/
theorem ends_liftExcept {α : Type} {gives : α → Prop} {result : Except Failure α}
    (h : Meets fails gives result) :
    Ends (fun _ => True) fails gives (contractDatum.liftExcept result) := by
  cases result with
  | ok value => exact .pure h
  | error failure => exact .throw h

/-- The datum of a contract fails only as the property that is taken for it does. -/
theorem ends_contractDatum (className : String) {members : List Stmt}
    (hdatum : ∀ line name hint value field,
      .simple line (.annotates (.name name) hint value) ∈ members →
      setting.roles.role? (className ++ "." ++ name) = some (.datum field) →
      Meets fails (Hint.Harmless setting.context.options.names fails) (datumPart hint)) :
    Ends (fun _ => True) fails (fun result => ∀ d ∈ result.2, Sound fails setting d)
      (contractDatum setting className members) := by
  fun_induction contractDatum setting className members with
  | case1 => exact .pure (by simp)
  | case2 line id hint value rest name hrole =>
      have hpart := ends_liftExcept (hdatum line id hint value _ List.mem_cons_self hrole)
      refine hpart.bind fun inner hinner => ?_
      have hresolve := Hint.completes_resolve hinner
      split
      · refine (ends_ofAlias _ none true false none hresolve).bind fun d hd => .pure ?_
        obtain ⟨target, htarget, rfl⟩ := hd
        simpa using sound_ofTarget htarget _ _ _ _ _
      · exact Ends.bind hresolve fun _ _ => .pure (by simp)
  | case3 line id hint value rest hrole ih =>
      exact ih fun l n e v field hmem => hdatum l n e v field (List.mem_cons_of_mem _ hmem)
  | case4 statement rest hstatement ih =>
      exact ih fun l n e v field hmem => hdatum l n e v field (List.mem_cons_of_mem _ hmem)

/-- A class, with the declarations of its methods if it is a contract. -/
theorem ends_contract (h : HarmlessModule fails setting statements) {line : Nat}
    {header : ClassHeader} {members : List Stmt}
    (hclass : .classDef line header members ∈ statements)
    {name : String} (hcontract : setting.roles.contract? header.name = some name) :
    Ends (Alike (bodyState registry)) fails (fun found => (∀ d ∈ found, Sound fails setting d) ∧
        ∀ f : FunctionSource, .function f.line f.header f.body ∈ members →
        f.header.isAsync = false →
          ∃ d ∈ found, Declares setting (bodyState registry) f
            (methodContext setting header.name f) d)
      (contract setting header.name name members) := by
  have hdatum : Ends (fun _ => True) fails (fun result => ∀ d ∈ result.2, Sound fails setting d)
      (contractDatum setting header.name members) := by
    apply ends_contractDatum
    intro inner id hint value field hmem hrole
    cases hpart : datumPart hint with
    | error failure =>
        exact h.datum header.name name id hint field failure hcontract
          ⟨line, header, members, hclass, rfl, inner, value, hmem⟩ hrole hpart
    | ok part =>
        intro failure hfaulty
        have hnested := nested_subset hclass (mem_nestedAll hmem)
        exact h.types _ hnested hint List.mem_cons_self failure
          (hfaulty.of_subset (datumPart_subset hpart))
  refine (ends_ofReporting alike_journal hdatum).bind fun result htypes => ?_
  obtain ⟨datumType, types⟩ := result
  have hmethods : ∀ member ∈ members, Ends (Alike (bodyState registry)) fails
      (MethodCollected fails setting (bodyState registry) header.name member)
      (method setting header.name name datumType member) :=
    fun member hmember => ends_method h hclass name datumType hmember
  refine (Ends.mapM hmethods).bind fun found hfound => .pure ⟨?_, ?_⟩
  · intro d hd
    rcases List.mem_append.mp hd with hd | hd
    · exact htypes d hd
    · obtain ⟨group, hgroup, hd⟩ := List.mem_flatten.mp hd
      have hsound : List.Forall₂ (fun _ group => ∀ d ∈ group, Sound fails setting d)
        members found :=
        hfound.imp fun _ _ hcollected => hcollected.1
      exact of_forall₂ hsound group hgroup d hd
  · intro f hmem hsync
    obtain ⟨group, hgroup, hcollected⟩ := exists_of_forall₂ hfound hmem
    obtain ⟨d, hd, hdeclares⟩ := hcollected.2 f rfl hsync
    exact ⟨d, List.mem_append_right _ (List.mem_flatten.mpr ⟨group, hgroup, hd⟩), hdeclares⟩

/-- A class is an enumeration, a contract or a record, and declared as such. -/
theorem ends_classDeclarations (h : HarmlessModule fails setting statements) {line : Nat}
    {header : ClassHeader} {members : List Stmt}
    (hclass : .classDef line header members ∈ statements) :
    Ends (Alike (bodyState registry)) fails (Collected fails setting (bodyState registry)
      [.classDef line header members])
      (classDeclarations setting header members) := by
  have hliterals (name : String) (args : List Expr) :
      ¬ NamesLiteral [.classDef line header members] name args := by
    intro hnames
    cases hnames with
    | annotated hhint hbase hmem => cases List.mem_singleton.mp hmem
    | assigned hname hbase hmem => cases List.mem_singleton.mp hmem
  unfold classDeclarations
  dsimp only
  cases hcontract : setting.roles.contract? header.name with
  | some name =>
      refine (ends_contract h hclass hcontract).imp fun found hfound => ⟨hfound.1, ?_, ?_⟩
      · intro f ctx hbody
        cases hbody with
        | function hmem hsync => cases List.mem_singleton.mp hmem
        | method hother _ hmem hsync =>
            cases List.mem_singleton.mp hother
            exact hfound.2 f hmem hsync
      · exact fun other args hnames => absurd hnames (hliterals other args)
  | none =>
      have hone {d : TypeDeclaration} (hd : Sound fails setting (.type d)) :
          Collected fails setting (bodyState registry) [.classDef line header members]
            [.type d] := by
        refine ⟨by simpa using hd, ?_, fun name args hnames => absurd hnames (hliterals name args)⟩
        intro f ctx hbody
        cases hbody with
        | function hmem hsync => cases List.mem_singleton.mp hmem
        | method hother hsome _ _ =>
            cases List.mem_singleton.mp hother
            rw [hcontract] at hsome
            cases hsome
      have hhints : ∀ inner target hint value,
          .simple inner (.annotates target hint value) ∈ members →
            Hint.Harmless setting.context.options.names fails hint :=
        fun inner target hint value hmem =>
          h.types _ (nested_subset hclass (mem_nestedAll hmem)) hint List.mem_cons_self
      dsimp only
      split
      · exact (ends_ofReporting alike_journal (ends_ofEnum header members _ _)).bind
          fun _ hd => .pure (hone hd)
      · exact (ends_ofReporting alike_journal (ends_ofRecord header _ _ _ hhints)).bind
          fun _ hd => .pure (hone hd)

/-- The declarations of a statement that has no body and names no literal annotation. -/
theorem collected_other {statement : Stmt} {found : List Declaration}
    (hsound : ∀ d ∈ found, Sound fails setting d)
    (hfunction : ∀ line header body, statement ≠ .function line header body)
    (hclass : ∀ line header body, statement ≠ .classDef line header body)
    (hliterals : ∀ name args, NamesLiteral [statement] name args →
      ∃ d ∈ found, DeclaresLiteral args d) :
    Collected fails setting base [statement] found := by
  refine ⟨hsound, fun f ctx hbody => ?_, hliterals⟩
  cases hbody with
  | function hmem hsync => exact absurd (List.mem_singleton.mp hmem).symm (hfunction _ _ _)
  | method hmem _ _ _ => exact absurd (List.mem_singleton.mp hmem).symm (hclass _ _ _)

theorem ends_skipStatement (statement : Stmt) :
    Ends (Alike (bodyState registry)) fails (fun found => found = [])
      (skipStatement statement) := by
  unfold skipStatement
  dsimp only
  split
  · exact (ends_note _ _ _).bind fun _ _ => .pure rfl
  · exact (ends_warn _ _).bind fun _ _ => .pure rfl

theorem ends_skipVariable (name : String) (line : Nat) :
    Ends (Alike (bodyState registry)) fails (fun found => found = []) (skipVariable name line) :=
  (ends_warn _ _).bind fun _ _ => .pure rfl

/-- An alias is declared by a complete type, with the literals of a literal annotation. -/
theorem ends_aliasDeclarations (name : String) {value : Option Expr} (docs : Documentation)
    (h : ∀ e ∈ value, Hint.Harmless setting.context.options.names fails e) :
    Ends (Alike (bodyState registry)) fails (fun found => (∀ d ∈ found, Sound fails setting d) ∧
        ∀ base index, value = some (.subscript base index) → Hint.baseName? base = some "Literal" →
          ∃ d ∈ found, DeclaresLiteral (Hint.genericArgs index) d)
      (aliasDeclarations setting name value docs) := by
  have hresolve : Ends (fun _ => True) fails (fun target => target.isComplete = true ∧
      ∀ base index, value = some (.subscript base index) → Hint.baseName? base = some "Literal" →
        Hint.HoldsLiterals (Hint.genericArgs index) target)
          (Hint.resolve? setting.context.options.names value) := by
    have hliterals : Ends (fun _ => True) (fun _ => True) (fun target =>
        ∀ base index, value = some (.subscript base index) → Hint.baseName? base = some "Literal" →
          Hint.HoldsLiterals (Hint.genericArgs index) target)
            (Hint.resolve? setting.context.options.names value) := by
      by_cases hliteral : ∃ base index, value = some (.subscript base index) ∧
          Hint.baseName? base = some "Literal"
      · obtain ⟨base, index, rfl, hbase⟩ := hliteral
        refine (Hint.ends_resolve_literal index hbase).imp fun target htarget other further heq _ =>
          ?_
        cases heq
        exact htarget
      · exact (ends_somehow _).imp fun _ _ base index heq hbase =>
          absurd ⟨base, index, heq, hbase⟩ hliteral
    exact (completes_resolve? h).and hliterals
  refine (ends_ofReporting alike_journal
    (ends_ofAlias name none _ false docs hresolve)).bind fun d hd => .pure ?_
  obtain ⟨target, htarget, rfl⟩ := hd
  refine ⟨by simpa using sound_ofTarget htarget.1 _ _ _ _ _, fun base index heq hbase => ?_⟩
  exact ⟨_, List.mem_singleton_self _, target, rfl, htarget.2 base index heq hbase⟩

/-- A constant is declared with its type and its value. -/
theorem ends_constantDeclarations (name : String) {value : Expr} {hint : Option Expr}
    (docs : Documentation) (hhint : ∀ e ∈ hint, Hint.Harmless setting.context.options.names fails e)
    (h : Harmless fails value.subterms) :
    Ends (Alike (bodyState registry)) fails (fun found => ∀ d ∈ found, Sound fails setting d)
      (constantDeclarations setting name value hint docs) :=
  (ends_ofValue _ _ _ _ hhint h).bind fun _ _ => .pure (by simp [Sound])

/-- An annotated name is declared by what its annotation says. -/
theorem ends_annotatedDeclarations (h : HarmlessModule fails setting statements) {line : Nat}
    {name : String} {hint : Expr} {value : Option Expr} (docs : Documentation)
    (hmem : .simple line (.annotates (.name name) hint value) ∈ statements) :
    Ends (Alike (bodyState registry)) fails
      (Collected fails setting (bodyState registry)
        [.simple line (.annotates (.name name) hint value)])
      (annotatedDeclarations setting line name hint value docs) := by
  have htypes := h.types _ (mem_nestedAll hmem)
  have hliterals := h.literals _ (mem_nestedAll hmem)
  unfold annotatedDeclarations
  split
  · rename_i halias
    have hvalue : ∀ e ∈ value, Hint.Harmless setting.context.options.names fails e := fun e he =>
      htypes e (List.mem_cons_of_mem _ (by simpa [halias] using he))
    refine (ends_aliasDeclarations name docs hvalue).imp fun found hfound =>
      collected_other hfound.1 (by simp) (by simp) fun other args hnames => ?_
    cases hnames with
    | annotated hhint hbase hsame =>
        cases List.mem_singleton.mp hsame
        exact hfound.2 _ _ rfl hbase
    | assigned hname hbase hsame => cases List.mem_singleton.mp hsame
  · rename_i halias
    -- Without the mark of an alias, the statement names no type.
    have hnothing {found : List Declaration} (hsound : ∀ d ∈ found, Sound fails setting d) :
        Collected fails setting (bodyState registry)
          [.simple line (.annotates (.name name) hint value)] found := by
      refine collected_other hsound (by simp) (by simp) fun other args hnames => ?_
      cases hnames with
      | annotated hhint hbase hsame =>
          cases List.mem_singleton.mp hsame
          exact absurd hhint halias
      | assigned hname hbase hsame => cases List.mem_singleton.mp hsame
    split
    · rename_i value
      split
      · refine (ends_constantDeclarations name docs ?_ ?_).imp fun found hfound => hnothing hfound
        · rintro e ⟨⟩
          exact htypes hint List.mem_cons_self
        · simp only [Stmt.ownExpressions, Simple.expressions, Option.toList_some, Expr.all,
            harmless_append] at hliterals
          exact hliterals.2.2.1
      · exact (ends_skipVariable name line).imp fun found hfound => hnothing (by simp [hfound])
    · exact (ends_skipVariable name line).imp fun found hfound => hnothing (by simp [hfound])

/-- An assigned name is declared by what its value is. -/
theorem ends_assignedDeclarations (h : HarmlessModule fails setting statements) {line : Nat}
    {name : String} {value : Expr} (docs : Documentation)
    (hmem : .simple line (.assigns [.name name] value) ∈ statements) :
    Ends (Alike (bodyState registry)) fails (Collected fails setting (bodyState registry)
      [.simple line (.assigns [.name name] value)])
      (assignedDeclarations setting line name value docs) := by
  have htypes := h.types _ (mem_nestedAll hmem)
  have hliterals := h.literals _ (mem_nestedAll hmem)
  -- A statement that names a literal annotation is taken for an alias.
  have hother {found : List Declaration} (hsound : ∀ d ∈ found, Sound fails setting d)
      (halias : Naming.isConstructorName name = true → ∀ base index, value = .subscript base index →
        Hint.baseName? base = some "Literal" →
          ∃ d ∈ found, DeclaresLiteral (Hint.genericArgs index) d) :
      Collected fails setting (bodyState registry) [.simple line (.assigns [.name name] value)]
        found := by
    refine collected_other hsound (by simp) (by simp) fun other args hnames => ?_
    cases hnames with
    | annotated hhint hbase hsame => cases List.mem_singleton.mp hsame
    | assigned hname hbase hsame =>
        cases List.mem_singleton.mp hsame
        exact halias hname _ _ rfl hbase
  unfold assignedDeclarations
  split
  · rename_i hskipped
    refine .pure (hother (by simp) ?_)
    rintro hname base index rfl -
    have hlist : name = "__all__" := by simpa [isTypeVariable] using hskipped
    rw [hlist] at hname
    exact absurd hname (by decide)
  split
  · rename_i htype
    rw [Bool.and_eq_true] at htype
    have hvalue : ∀ e ∈ some value, Hint.Harmless setting.context.options.names fails e := by
      rintro e ⟨⟩
      exact htypes _ (by simp [typesOf, htype.2])
    refine (ends_aliasDeclarations name docs hvalue).imp fun found hfound => hother hfound.1 ?_
    rintro - base index rfl hbase
    exact hfound.2 base index rfl hbase
  rename_i htype
  have hnotype (found : List Declaration) (hname : Naming.isConstructorName name = true)
      (base index : Expr) (heq : value = .subscript base index)
      (_ : Hint.baseName? base = some "Literal") :
      ∃ d ∈ found, DeclaresLiteral (Hint.genericArgs index) d := by
    subst heq
    simp [hname, TypeDeclaration.isTypeExpression] at htype
  split
  · refine (ends_constantDeclarations name docs (by simp) ?_).imp
      fun found hfound => hother hfound (hnotype found)
    simp only [Stmt.ownExpressions, Simple.expressions, List.cons_append, List.nil_append, Expr.all,
      harmless_append] at hliterals
    exact hliterals.2.1
  · exact (ends_skipVariable name line).imp fun found hfound =>
      hother (by simp [hfound]) (hnotype found)

/-- A statement is collected, whatever comes after it. -/
theorem ends_statementDeclarations (h : HarmlessModule fails setting statements)
    (next : Option Stmt)
    {statement : Stmt} (hmem : statement ∈ statements) :
    Ends (Alike (bodyState registry)) fails (Collected fails setting (bodyState registry)
      [statement])
      (statementDeclarations setting next statement) := by
  unfold statementDeclarations
  split
  · refine .pure (collected_other (by simp [Sound]) (by simp) (by simp) fun name args hnames => ?_)
    cases hnames with
    | annotated hhint hbase hsame => cases List.mem_singleton.mp hsame
    | assigned hname hbase hsame => cases List.mem_singleton.mp hsame
  · refine (ends_ofReporting alike_journal (ends_ofNames _ _ _ _)).bind fun _ _ =>
      .pure (collected_other (by simp [Sound]) (by simp) (by simp) fun name args hnames => ?_)
    cases hnames with
    | annotated hhint hbase hsame => cases List.mem_singleton.mp hsame
    | assigned hname hbase hsame => cases List.mem_singleton.mp hsame
  · exact ends_classDeclarations h hmem
  · rename_i line header body
    split
    · rename_i hasync
      refine (ends_skipStatement _).imp fun found hfound => ?_
      subst hfound
      refine ⟨by simp, fun f ctx hbody => ?_, fun name args hnames => ?_⟩
      · cases hbody with
        | function hsame hsync =>
            cases List.mem_singleton.mp hsame
            rw [hasync] at hsync
            cases hsync
        | method hclass _ _ _ => cases List.mem_singleton.mp hclass
      · cases hnames with
        | annotated hhint hbase hsame => cases List.mem_singleton.mp hsame
        | assigned hname hbase hsame => cases List.mem_singleton.mp hsame
    · exact ends_functionDeclarations h (f := ⟨line, header, body⟩) hmem
  · exact ends_annotatedDeclarations h _ hmem
  · exact ends_assignedDeclarations h _ hmem
  · refine .pure (collected_other (by simp) (by simp) (by simp) fun name args hnames => ?_)
    cases hnames with
    | annotated hhint hbase hsame => cases List.mem_singleton.mp hsame
    | assigned hname hbase hsame => cases List.mem_singleton.mp hsame
  · rename_i himports hfrom hclass hfunction hannotates hassigns hevaluates
    refine (ends_skipStatement _).imp fun found hfound => ?_
    subst hfound
    refine collected_other (by simp) hfunction hclass fun name args hnames => ?_
    cases hnames with
    | annotated hhint hbase hsame =>
        exact absurd (List.mem_singleton.mp hsame).symm (hannotates _ _ _ _)
    | assigned hname hbase hsame => exact absurd (List.mem_singleton.mp hsame).symm (hassigns _ _ _)

/-- Collecting the declarations of a harmless module fails only in ways that are allowed, and gives
declarations that can be written and declare what the module does. -/
theorem ends_declarations (h : HarmlessModule fails setting statements) :
    Ends (Alike (bodyState registry)) fails (Collected fails setting (bodyState registry)
      statements)
      (declarations setting statements) := by
  have hrest (rest : List Stmt) (hsubset : rest ⊆ statements) :
      Ends (Alike (bodyState registry)) fails (Collected fails setting (bodyState registry) rest)
        (declarations setting rest) := by
    induction rest with
    | nil => exact .pure collected_nil
    | cons statement rest ih =>
        have hmem := hsubset List.mem_cons_self
        rw [declarations]
        exact (ends_statementDeclarations h rest.head? hmem).bind fun _ hfound =>
          (ih (List.Subset.trans (List.subset_cons_self _ _) hsubset)).bind fun _ hmore =>
            .pure (hfound.cons hmore)
  exact hrest statements (List.Subset.refl _)

end AikenForge.Collect
