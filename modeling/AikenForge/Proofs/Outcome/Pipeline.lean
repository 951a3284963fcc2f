/-
# What a pipeline ends with

Source that can be read makes a module whose declarations are those of its statements. The handlers
among them are lowered when the module is brought to canonical form, and the module is then written.
So a pipeline fails on such source only for causes that stand in it, and the text that it gives has
what the bodies and the literal aliases of the source call for.
-/

import AikenForge.Pipeline
import AikenForge.Proofs.Outcome.Declaration

namespace AikenForge

open AikenForge.Source AikenForge.Text AikenForge.Lowering AikenForge.Collect

/-- Results can be compared if their errors and values can. -/
instance decidableEqExcept {ε α : Type} [DecidableEq ε] [DecidableEq α] : DecidableEq (Except ε α)
  | .ok a, .ok b => decidable_of_iff (a = b) ⟨congrArg Except.ok, Except.ok.inj⟩
  | .error a, .error b => decidable_of_iff (a = b) ⟨congrArg Except.error, Except.error.inj⟩
  | .ok _, .error _ => isFalse nofun
  | .error _, .ok _ => isFalse nofun

variable {fails : Failure → Prop} {registry : Registry}

/-! ## Declarations by kind -/

namespace DeclaredModule

/-- A declaration is among those of its kind. -/
def Has (m : DeclaredModule) : Declaration → Prop
  | .import i => i ∈ m.imports
  | .type d => d ∈ m.types
  | .constant d => d ∈ m.constants
  | .function f => f ∈ m.functions
  | .test t => t ∈ m.tests

/-- A module has what was added to it, and what it had. -/
theorem has_add {m : DeclaredModule} {d other : Declaration} :
    (m.add d).Has other ↔ m.Has other ∨ other = d := by
  cases d <;> cases other <;> simp [add, Has]

/-- So it is with several declarations. -/
theorem has_foldl_add {m : DeclaredModule} {found : List Declaration} {d : Declaration} :
    (found.foldl add m).Has d ↔ m.Has d ∨ d ∈ found := by
  induction found generalizing m with
  | nil => simp
  | cons first rest ih => rw [List.foldl_cons, ih, has_add, List.mem_cons, or_assoc]

end DeclaredModule

/-! ## Reading -/

namespace Collect

/-- What the statements of a source text are collected with. -/
def settingOf (options : Options) (source : String) (statements : List Stmt) : Setting where
  context :=
    { scope := scopeOf (RoleTable.ofModule statements) statements
      options
      directives := (Directive.scan source).1 }
  roles := RoleTable.ofModule statements
  exports := exports? statements

/-- A module has the declarations of statements, by their kinds. -/
structure IsModule (fails : Failure → Prop) (setting : Setting) (base : LoweringState)
    (statements : List Stmt) (m : DeclaredModule) : Prop where
  scope : m.scope = setting.context.scope
  found : ∃ found, Collected fails setting base statements found ∧ ∀ d, m.Has d ↔ d ∈ found

end Collect

/-- A harmless module that can be read is declared soundly. -/
theorem ends_ofModuleSource {options : Options} {source : String} {statements : List Stmt}
    (hread : readModule options.names source = .ok statements)
    (h : HarmlessModule fails (settingOf options source statements) statements)
    (name file : String) :
    Ends (Alike (bodyState registry)) fails
      (IsModule fails (settingOf options source statements) (bodyState registry) statements)
      (DeclaredModule.ofSource options name file source) := by
  unfold DeclaredModule.ofSource
  rw [hread]
  have hreports : Ends (Alike (bodyState registry)) fails (fun _ => True)
      (modify fun state : LoweringState =>
        { state with journal := state.journal ++ (Directive.scan source).2 }) :=
    ends_modify trivial fun state hstate => alike_journal state _ hstate
  refine hreports.bind fun _ _ => (ends_declarations h).bind fun found hfound => .pure ?_
  refine ⟨DeclaredModule.scope_foldl_add _ _, found, hfound, fun d => ?_⟩
  rw [DeclaredModule.has_foldl_add]
  cases d <;> simp [DeclaredModule.Has]

/-! ## Canonical form -/

/-- What a function is after canonical form: itself, or a handler whose body has been lowered. -/
def Settled (setting : Setting) (base : LoweringState) (d g : FunctionDeclaration) : Prop :=
  (d.isHandler = false → g = d) ∧
    ∀ f purpose, Likeness.DeclaresHandler setting.context f purpose d →
      Bears setting.context.options.indent.toNat
        (writtenFunction (Likeness.handlerContext setting.context purpose f) base f) g.body

section Canonical

variable {setting : Setting} {scope : Scope} {options : Options} {directives : DirectiveTable}
  (hcontext : setting.context = { scope, options, directives })
  (htable : HarmlessTable setting.context.options.names fails setting.context.directives)

include hcontext htable

/-- A sound handler is brought to canonical form. -/
theorem ends_canonicalizeFunction {d : FunctionDeclaration}
    (h : Sound fails setting (.function d)) (hhandler : d.isHandler = true) :
    Ends (Alike (bodyState registry)) fails (Settled setting (bodyState registry) d)
      (d.canonicalize options scope) := by
  obtain ⟨f, purpose, hdeclares, hbody⟩ := h hhandler
  unfold Settled
  rw [hcontext] at htable hdeclares hbody ⊢
  rw [Likeness.canonicalize_eq_of_declares hdeclares]
  let ctx : Context := Likeness.handlerContext { scope, options, directives } purpose f
  have hlowered : Ends (Alike (bodyState registry)) fails
      (fun result => Bears options.indent.toNat
        (writtenFunction ctx (bodyState registry) f) result.1)
      (separately (functionText ctx f)) := ends_body (htable.within _ _) hbody
  refine hlowered.bind fun result hresult =>
    .pure ⟨by simp [hhandler], fun other further hother => ?_⟩
  obtain rfl : f = other := Option.some.inj (hdeclares.source.symm.trans hother.source)
  obtain rfl : purpose = further := Option.some.inj (hdeclares.purpose.symm.trans hother.purpose)
  exact hresult

/-- So is every function of a module, and what is no handler stays. -/
theorem ends_step {d : FunctionDeclaration} (h : Sound fails setting (.function d)) :
    Ends (Alike (bodyState registry)) fails (Settled setting (bodyState registry) d)
      (Canonical.step options scope d) := by
  unfold Canonical.step
  split
  · rename_i hhandler
    exact (ends_note _ _ _).bind fun _ _ => ends_canonicalizeFunction hcontext htable h hhandler
  · rename_i hplain
    refine .pure ⟨fun _ => rfl, fun f purpose hdeclares => absurd ?_ hplain⟩
    rw [FunctionDeclaration.isHandler, hdeclares.purpose]
    rfl

/-- Bringing a module to canonical form settles its functions and keeps the rest. -/
theorem ends_canonicalize {m : DeclaredModule} (hscope : m.scope = scope)
    (h : ∀ d ∈ m.functions, Sound fails setting (.function d)) :
    Ends (Alike (bodyState registry)) fails
      (fun m' => ∃ functions, m' = { m with functions } ∧
        List.Forall₂ (Settled setting (bodyState registry)) m.functions functions)
      (m.canonicalize options) := by
  rw [Canonical.canonicalize_eq, hscope]
  exact (Ends.mapM fun d hd => ends_step hcontext htable (h d hd)).bind fun functions hfunctions =>
    .pure ⟨functions, rfl, hfunctions⟩

end Canonical

/-! ## Writing -/

namespace Collect

/-- A text has what the statements of a module call for: the strings written in the bodies of its
functions, methods and tests, each moved to the right with its block, and the literals of its
aliases, but for one that is the only literal of its alias and has an open bar. -/
structure IsEmission (setting : Setting) (base : LoweringState) (statements : List Stmt)
    (text : String) : Prop where
  bodies : ∀ f ctx, HasBody setting statements f ctx →
    Bears setting.context.options.indent.toNat (writtenFunction ctx base f) text
  literals : ∀ name args, NamesLiteral statements name args →
    ∀ points marked, .constant (.text points marked) ∈ args →
      (args.length = 1 → ¬ TypeDeclaration.HasOpenBar (quotePoints .ascii points).toList) →
      (quotePoints .ascii points).toList <:+: text.toList

/-- The text of a module whose handlers are settled is that of its statements. -/
theorem IsModule.isEmission {setting : Setting} {base : LoweringState} {statements : List Stmt}
    {m : DeclaredModule} (h : IsModule fails setting base statements m)
    {functions : List FunctionDeclaration}
    (hsettled : List.Forall₂ (Settled setting base) m.functions functions) {text : String}
    (htext : { m with functions }.IsText setting.context.options.indent.toNat text) :
    IsEmission setting base statements text := by
  obtain ⟨-, found, hfound, hhas⟩ := h
  constructor
  · intro f ctx hbody
    obtain ⟨d, hd, hdeclares⟩ := hfound.bodies f ctx hbody
    cases d with
    | function d =>
        obtain ⟨g, hg, hplain, hhandler⟩ := exists_of_forall₂ hsettled ((hhas _).mpr hd)
        have hconveys := htext.functions g hg
        rcases hdeclares with ⟨hkind, hbears⟩ | ⟨purpose, hdeclares, rfl⟩
        · rw [hplain hkind] at hconveys
          exact fun s hs => hconveys s (hbears s hs)
        · exact fun s hs => hconveys s (hhandler f purpose hdeclares s hs)
    | test t => exact fun s hs => htext.tests t ((hhas _).mpr hd) s (hdeclares s hs)
    | _ => exact hdeclares.elim
  · intro name args hnames points marked hmem hbar
    obtain ⟨d, hd, hdeclares⟩ := hfound.literals name args hnames
    cases d with
    | type d =>
        obtain ⟨target, htarget, hholds⟩ := hdeclares
        refine htext.types d ((hhas _).mpr hd) points ?_
        rcases hholds points marked hmem with ⟨hlength, rfl⟩ | ⟨members, rfl, hmember⟩
        · exact .inl ⟨htarget, hbar hlength⟩
        · exact .inr ⟨members, htarget, hmember⟩
    | _ => exact hdeclares.elim

end Collect

/-! ## The whole -/

namespace Pipeline

variable {α β : Type} {gives : α → Prop} {further : β → Prop}

/-- A run starts without aliases, and it leaves the mappings of the registry. -/
theorem meets_run {base : LoweringState} {action : Options → Lowering α} (p : Pipeline)
    (hbase : Alike base (bodyState p.registry))
    (h : Ends (Alike base) fails gives (action p.options)) :
    Meets fails gives (run action p).1 ∧ Alike base (bodyState (run action p).2.registry) := by
  obtain ⟨hmeets, hkept⟩ := h { registry := some p.registry, journal := p.journal }
    ⟨hbase.aliases, hbase.mappings⟩
  refine ⟨hmeets, hbase.aliases, ?_⟩
  have hmappings := hbase.mappings.symm.trans hkept.mappings
  change _ = some ((((action p.options).run { registry := some p.registry, journal := p.journal }).2
    |>.registry.getD p.registry).mappings)
  rw [hbase.mappings]
  cases hregistry : ((action p.options).run
      { registry := some p.registry, journal := p.journal }).2.registry with
  | none =>
      rw [hregistry] at hmappings
      cases hmappings
  | some registry =>
      rw [hregistry] at hmappings
      exact hmappings

/-- Two stages one after the other. -/
theorem meets_andThen {first : Except Failure α × Pipeline}
    {next : α → Pipeline → Except Failure β × Pipeline} (h : Meets fails gives first.1)
    (hnext : ∀ value, gives value → Meets fails further (next value first.2).1) :
    Meets fails further (andThen first next).1 := by
  obtain ⟨failure | value, p⟩ := first
  · exact h
  · exact hnext value h

/-- Source that makes no module has no text. -/
theorem transpile_of_readModule_error (p : Pipeline) {source : String} {failure : Failure}
    (name : Option String) (file : String)
    (h : ∀ module, DeclaredModule.ofSource p.options module file source = throw failure) :
    (p.transpile source name file).1 = .error failure := by
  rw [transpile, read, run]
  change (andThen (((DeclaredModule.ofSource p.options _ file source).run.run _).1, _) _).1 = _
  rw [h]
  rfl

/-- A source that cannot be read fails as unreadable, at its line. -/
theorem transpile_of_malformed (p : Pipeline) {source : String} {line : Nat}
    (h : readModule p.options.names source = .error (.malformed line)) (name : Option String)
    (file : String) :
    (p.transpile source name file).1 = .error (.unreadable file line) :=
  p.transpile_of_readModule_error name file fun _ => by rw [DeclaredModule.ofSource, h]

/-- A source with a NUL fails for that. -/
theorem transpile_of_nul (p : Pipeline) {source : String}
    (h : readModule p.options.names source = .error .nul) (name : Option String) (file : String) :
    (p.transpile source name file).1 = .error .nul :=
  p.transpile_of_readModule_error name file fun _ => by rw [DeclaredModule.ofSource, h]

/-- Source that can be read fails only for causes that stand in it, and its text has what its
statements call for. -/
theorem meets_transpile (p : Pipeline) {source : String} {statements : List Stmt}
    (hread : readModule p.options.names source = .ok statements)
    (h : HarmlessModule fails (settingOf p.options source statements) statements)
    (name : Option String) (file : String) :
    Meets fails
      (IsEmission (settingOf p.options source statements) (bodyState p.registry) statements)
      (transpile source name file p).1 := by
  have hstart : Alike (bodyState p.registry) (bodyState p.reset.registry) := ⟨rfl, rfl⟩
  have hmodule (module : String) : Ends (Alike (bodyState p.registry)) fails
      (IsModule fails (settingOf p.options source statements) (bodyState p.registry) statements)
      (DeclaredModule.ofSource p.options module file source) :=
    ends_ofModuleSource hread h module file
  have hparsing : Meets fails _ (p.reset.read source name file).1 ∧
      Alike (bodyState p.registry) (bodyState (p.reset.read source name file).2.registry) :=
    meets_run p.reset hstart (hmodule _)
  obtain ⟨hparsed, hbase⟩ := hparsing
  refine meets_andThen hparsed fun m hm => ?_
  obtain ⟨found, hfound, hhas⟩ := hm.found
  have hfunctions : ∀ d ∈ m.functions, Sound fails (settingOf p.options source statements)
      (.function d) := fun d hd => hfound.sound _ ((hhas (.function d)).mp hd)
  have hcomplete : ∀ d ∈ m.types, d.IsComplete :=
    fun d hd => hfound.sound _ ((hhas (.type d)).mp hd)
  have hcanonical : Ends (Alike (bodyState p.registry)) fails _ (m.canonicalize p.options) :=
    ends_canonicalize rfl h.directives hm.scope hfunctions
  refine meets_andThen (meets_run _ hbase hcanonical).1 fun m' hm' => ?_
  obtain ⟨functions, rfl, hsettled⟩ := hm'
  obtain ⟨text, htext, hisText⟩ := DeclaredModule.exists_render p.options _
    (m := { m with functions }) hcomplete
  change Meets fails _ (DeclaredModule.render p.options _ { m with functions })
  rw [htext]
  exact hm.isEmission hsettled hisText

end Pipeline

end AikenForge
