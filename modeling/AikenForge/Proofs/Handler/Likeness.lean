/-
# Handlers are lowered like helpers

A method of a contract is a handler or a helper. A helper is lowered where it is read, with the
directives of the whole module and without alias roots. A handler is lowered later, with the
directives of its own lines and with its parameters as alias roots. As long as no statement names
the transaction of a parameter, the text and the records of the body come out the same: every line
that lowering looks up lies inside the method, and the roots are asked for a value that is assigned
to a name and nothing else.
-/

import AikenForge.Proofs.Ending
import AikenForge.Proofs.Handler.Idempotent

namespace AikenForge.Likeness

open AikenForge.Source AikenForge.Lowering AikenForge.Expectation

/-! ## Lines -/

/-- Inside its range, the part of a table has the directives of the table. -/
theorem onLine_within (table : DirectiveTable) {first last line : Nat} (hfirst : first ≤ line)
    (hlast : line ≤ last) : (table.within first last).onLine line = table.onLine line := by
  have hlookup : (table.within first last).lookup line = table.lookup line := by
    induction table with
    | nil => rfl
    | cons entry rest ih =>
        obtain ⟨bound, directives⟩ := entry
        unfold DirectiveTable.within at ih ⊢
        by_cases hbound : line = bound
        · subst hbound
          simp [hfirst, hlast]
        · have hskip : (line == bound) = false := by simpa using hbound
          rw [List.filter_cons]
          split
          · rw [List.lookup_cons, List.lookup_cons, hskip]
            exact ih
          · rw [List.lookup_cons, hskip]
            exact ih
  unfold DirectiveTable.onLine
  rw [hlookup]

/-- The first line of a header is that of its first decorator, or its own. -/
theorem foldl_min_le (decorators : List Decorator) (start : Nat) :
    decorators.foldl (fun first d => min first d.line) start ≤ start ∧
      ∀ d ∈ decorators, decorators.foldl (fun first d => min first d.line) start ≤ d.line := by
  induction decorators generalizing start with
  | nil => simp
  | cons d rest ih =>
      obtain ⟨hstart, hrest⟩ := ih (min start d.line)
      rw [List.foldl_cons]
      refine ⟨by omega, ?_⟩
      intro other hother
      rcases List.mem_cons.mp hother with rfl | hother
      · omega
      · exact hrest other hother

/-- No line of a header lies before the function's range. -/
theorem lineRange_le {f : FunctionSource} {line : Nat} (h : line ∈ f.headLines) :
    (FunctionDeclaration.lineRange f).1 ≤ line := by
  obtain ⟨hstart, hrest⟩ := foldl_min_le f.header.decorators f.line
  rcases List.mem_append.mp h with h | h
  · obtain ⟨d, hd, rfl⟩ := List.mem_map.mp h
    exact hrest d hd
  · rw [List.mem_singleton.mp h]
    exact hstart

/-- A function as the source has it: no line of its header lies after its end, and every statement
of its body, at any depth, lies between the first line of the header and the end. -/
structure IsPlaced (f : FunctionSource) : Prop where
  header : ∀ line ∈ f.headLines, line ≤ f.header.endLine
  body : ∀ statement ∈ nestedAll f.body,
    (FunctionDeclaration.lineRange f).1 ≤ statement.line ∧ statement.line ≤ f.header.endLine

/-! ## Parameters -/

/-- The names of the declared parameters of a function. -/
def declaredNames (isMethod : Bool) (header : FunctionHeader) : List String :=
  (FunctionDeclaration.positionalParameters isMethod header.parameters ++
    header.parameters.keywordOnly).map Parameter.name

/-- The names of the parameters of a handler, as declared and by the convention of its purpose. -/
def handlerNames (purpose : Purpose) (header : FunctionHeader) : List String :=
  declaredNames true header ++ (purpose.canonicalParameters
    ((declaredNames true header).map fun name => { name })).map ParameterDeclaration.name

/-- Trailing parameters have the same names whatever the types are. -/
theorem map_name_addTrailing {parameters others : List ParameterDeclaration}
    (h : parameters.map ParameterDeclaration.name = others.map ParameterDeclaration.name)
    (position : Nat) (trailing : List ParameterDeclaration) :
    (Purpose.addTrailing position parameters trailing).map ParameterDeclaration.name =
      (Purpose.addTrailing position others trailing).map ParameterDeclaration.name := by
  have hlength : parameters.length = others.length := by simpa using congrArg List.length h
  induction trailing generalizing position parameters others with
  | nil => exact h
  | cons p rest ih =>
      rw [Purpose.addTrailing, Purpose.addTrailing, hlength]
      split
      · exact ih (by simp [h]) _ (by simp [hlength])
      · exact ih h _ hlength

/-- The names of the canonical parameters follow from the names of the declared ones. -/
theorem map_name_canonicalParameters (purpose : Purpose)
    {parameters others : List ParameterDeclaration}
    (h : parameters.map ParameterDeclaration.name = others.map ParameterDeclaration.name) :
    (purpose.canonicalParameters parameters).map ParameterDeclaration.name =
      (purpose.canonicalParameters others).map ParameterDeclaration.name := by
  have htyped : (purpose.typeLeading parameters).map ParameterDeclaration.name =
      (purpose.typeLeading others).map ParameterDeclaration.name := by
    rw [Canonical.map_name_typeLeading, Canonical.map_name_typeLeading, h]
  unfold Purpose.canonicalParameters
  split
  · rfl
  · split
    · exact map_name_addTrailing htyped _ _
    · exact htyped

/-- Typing the datum renames nothing. -/
@[simp]
theorem map_name_typeDatum (datumType : Option String) (parameters : List ParameterDeclaration) :
    (FunctionDeclaration.typeDatum datumType parameters).map ParameterDeclaration.name =
      parameters.map ParameterDeclaration.name := by
  unfold FunctionDeclaration.typeDatum
  split
  · rfl
  · split
    · split <;> rfl
    · rfl

section Signature

variable {names : CharacterNames} {fails : Failure → Prop} {header : FunctionHeader}

/-- The annotations of a signature that are read: those of the parameters that are kept, and that of
the result. -/
def signatureHints (header : FunctionHeader) : List Expr :=
  (header.parameters.positionalOnly ++ header.parameters.regular ++
    header.parameters.keywordOnly).filterMap Parameter.hint ++ header.returns.toList

/-- Every annotation of a signature resolves with failures of one kind only. -/
def SignatureEnds (names : CharacterNames) (fails : Failure → Prop) (header : FunctionHeader) :
    Prop :=
  ∀ hint ∈ signatureHints header,
    Ends (fun _ => True) fails (fun _ => True) (Hint.resolve names hint)

/-- An annotation is written if it resolves. -/
theorem ends_hintText? {hint : Option Expr}
    (h : ∀ e ∈ hint, Ends (fun _ => True) fails (fun _ => True) (Hint.resolve names e)) :
    Ends (fun _ => True) fails (fun _ => True) (FunctionDeclaration.hintText? names hint) := by
  cases hint with
  | none => exact .pure trivial
  | some e => exact (h e rfl).bind fun _ _ => .pure trivial

/-- The parameters of a method are those of its signature, perhaps without the first. -/
theorem positionalParameters_subset (isMethod : Bool) (parameters : Parameters) :
    FunctionDeclaration.positionalParameters isMethod parameters ⊆
      parameters.positionalOnly ++ parameters.regular := by
  unfold FunctionDeclaration.positionalParameters
  dsimp only
  split
  · rename_i first rest heq
    rw [heq]
    split
    · exact List.subset_cons_self _ _
    · exact List.Subset.refl _
  · exact List.nil_subset _

/-- The parameters are declared with their names, if their annotations resolve. -/
theorem ends_parametersOf (h : SignatureEnds names fails header) (isMethod : Bool) :
    Ends (fun _ => True) fails
      (fun declared => declared.map ParameterDeclaration.name = declaredNames isMethod header)
      (FunctionDeclaration.parametersOf names isMethod header) := by
  unfold FunctionDeclaration.parametersOf
  extract_lets parameters declared
  have hread (p : Parameter)
      (hp : p ∈ FunctionDeclaration.positionalParameters isMethod parameters ++
        parameters.keywordOnly) :
      Ends (fun _ => True) fails (fun declared : ParameterDeclaration => declared.name = p.name) (do
        return { name := p.name, type := ← FunctionDeclaration.hintText? names p.hint }) := by
    have hmem : p ∈ parameters.positionalOnly ++ parameters.regular ++ parameters.keywordOnly := by
      rcases List.mem_append.mp hp with hp | hp
      · exact List.mem_append_left _ (positionalParameters_subset isMethod parameters hp)
      · exact List.mem_append_right _ hp
    refine (ends_hintText? fun e he => h e ?_).bind fun _ _ => .pure rfl
    exact List.mem_append_left _ (List.mem_filterMap.mpr ⟨p, hmem, he⟩)
  have hdeclared (u : Unit) : Ends (fun _ => True) fails
      (fun declared => declared.map ParameterDeclaration.name = declaredNames isMethod header)
      (declared u) := by
    refine (Ends.mapM hread).imp fun declared hpairs => ?_
    have hnames : List.Forall₂ Eq
        ((FunctionDeclaration.positionalParameters isMethod parameters ++
          parameters.keywordOnly).map Parameter.name)
        (declared.map ParameterDeclaration.name) :=
      List.forall₂_map_left_iff.mpr (List.forall₂_map_right_iff.mpr
        (hpairs.imp fun _ _ => Eq.symm))
    rw [List.forall₂_eq_eq_eq] at hnames
    exact hnames.symm
  split
  · exact (Reporting.ends_warn _ _).bind fun u _ => hdeclared u
  · exact hdeclared ()

end Signature

/-! ## Both paths -/

/-- No statement of a body, at any depth, assigns to a name the transaction of one of these
names. -/
def NamesNoTransaction (names : List String) (body : List Stmt) : Prop :=
  ∀ statement ∈ nestedAll body, ∀ line simple, statement = .simple line simple →
    ∀ p ∈ names, simple.namedValue? ≠ some (.attribute (.name p) transactionLabel)

/-- Without a transaction among the named values, no value is an alias, whatever the roots are. -/
theorem isTransactionAlias_eq_false {ctx : Context} {value : Expr}
    (h : ∀ p ∈ ctx.aliasRoots, value ≠ .attribute (.name p) transactionLabel) :
    isTransactionAlias ctx value = false := by
  unfold isTransactionAlias
  split
  · rename_i root label
    rw [Bool.and_eq_false_iff]
    by_cases hlabel : label = transactionLabel
    · subst hlabel
      right
      rw [← Bool.not_eq_true, List.contains_iff_mem]
      exact fun hroot => h root hroot rfl
    · left
      simpa using hlabel
  · rfl

/-- A function is lowered alike with the directives of its own lines and with these parameter names
as roots. -/
theorem functionText_within {ctx : Context} (hroots : ctx.aliasRoots = []) {f : FunctionSource}
    (hplaced : IsPlaced f) {names : List String} (hfree : NamesNoTransaction names f.body) :
    functionText { ctx with
        directives := ctx.directives.within (FunctionDeclaration.lineRange f).1 f.header.endLine
        aliasRoots := names } f =
      functionText ctx f := by
  refine functionText_relocate ?_ ?_
  · intro line hline
    exact onLine_within ctx.directives (lineRange_le hline) (hplaced.header line hline)
  · intro statement hstatement
    obtain ⟨hfirst, hlast⟩ := hplaced.body statement hstatement
    refine ⟨onLine_within ctx.directives hfirst hlast, ?_⟩
    rintro line simple hsimple value hvalue
    have hnone : isTransactionAlias ctx value = false :=
      isTransactionAlias_eq_false (by simp [hroots])
    rw [hnone]
    apply isTransactionAlias_eq_false
    rintro p hp rfl
    exact hfree statement hstatement line simple hsimple p hp hvalue

/-- A declared handler: it keeps its source, the directives of its own lines and its purpose, and
its parameters have their names. -/
structure DeclaresHandler (ctx : Context) (f : FunctionSource) (purpose : Purpose)
    (declared : FunctionDeclaration) : Prop where
  source : declared.source = some f
  directives : declared.directives =
    ctx.directives.within (FunctionDeclaration.lineRange f).1 f.header.endLine
  purpose : declared.purpose = some purpose
  names : declared.parameters.map ParameterDeclaration.name = declaredNames true f.header

/-- A handler is declared if the annotations of its signature resolve. -/
theorem ends_ofHandlerSource {fails : Failure → Prop} (ctx : Context) {f : FunctionSource}
    (h : SignatureEnds ctx.options.names fails f.header) (contract purposeName : String)
    (docs : Documentation)
    (datumType : Option String) :
    Ends (fun _ => True) fails (DeclaresHandler ctx f (Purpose.ofLabel purposeName))
      (FunctionDeclaration.ofHandlerSource ctx f contract purposeName docs datumType) := by
  refine (ends_parametersOf h true).bind fun declared hnames => ?_
  refine (ends_hintText? fun e he => h e ?_).bind fun _ _ => .pure ⟨rfl, rfl, rfl, ?_⟩
  · exact List.mem_append_right _ (Option.mem_toList.mpr he)
  · rw [map_name_typeDatum, hnames]

/-- A method taken as a helper gives a declaration where it is read. -/
def HelperGives (ctx : Context) (f : FunctionSource) (isPublic isMethod : Bool)
    (docs : Documentation) (state : LoweringState) (helper : FunctionDeclaration) : Prop :=
  ∃ after, Yields (FunctionDeclaration.ofSource ctx f isPublic isMethod docs) state helper after

/-- A method taken as a handler gives a declaration: it is declared where it is read, and brought to
canonical form from a later state. -/
def HandlerGives (ctx : Context) (f : FunctionSource) (contract purposeName : String)
    (docs : Documentation) (datumType : Option String) (journal : Journal) (state : LoweringState)
    (handler : FunctionDeclaration) : Prop :=
  ∃ declared journal' after,
    (FunctionDeclaration.ofHandlerSource ctx f contract purposeName docs datumType).run journal =
      (.ok declared, journal') ∧
    Yields (declared.canonicalize ctx.options ctx.scope) state handler after

section Paths

variable {ctx : Context} {f : FunctionSource} {contract purposeName : String}
  {docs : Documentation} {datumType : Option String} {isPublic isMethod : Bool} {journal : Journal}
  {state : LoweringState} {g : FunctionDeclaration}

/-- What lowering the body of a function by itself gives. -/
def bodyResult (ctx : Context) (f : FunctionSource) (state : LoweringState) :
    Except Failure (String × Records) :=
  (outcome (separately (functionText ctx f)) state).1

/-- A helper has the body that its source is lowered to. -/
theorem bodyResult_of_helper (h : HelperGives ctx f isPublic isMethod docs state g) :
    bodyResult ctx f state = .ok (g.body, g.records) := by
  obtain ⟨after, hrun⟩ := h
  obtain ⟨⟨body, records⟩, between, hbody, hrun⟩ := yields_bind.mp hrun
  obtain ⟨parameters, _, -, hrun⟩ := yields_bind.mp hrun
  obtain ⟨returnType, _, -, hpure⟩ := yields_bind.mp hrun
  obtain ⟨rfl, -⟩ := yields_pure.mp hpure
  exact congrArg Prod.fst hbody

/-- A body that can be lowered makes a helper. -/
theorem exists_helper (hsignature : SignatureEnds ctx.options.names (fun _ => False) f.header)
    {result : String × Records} (h : bodyResult ctx f state = .ok result) :
    ∃ helper, HelperGives ctx f isPublic isMethod docs state helper := by
  have hends : Ends (fun _ => True) (fun _ => False) (fun _ => True) (do
      let parameters ←
        ofReporting (FunctionDeclaration.parametersOf ctx.options.names isMethod f.header)
      let returnType ←
        ofReporting (FunctionDeclaration.hintText? ctx.options.names f.header.returns)
      return { name := f.header.name, parameters, body := result.1, returnType, isPublic, docs
               records := result.2 : FunctionDeclaration }) := by
    refine (ends_ofReporting (fun _ _ h => h) (ends_parametersOf hsignature isMethod)).bind
      fun _ _ => ?_
    refine (ends_ofReporting (fun _ _ h => h) (ends_hintText? fun e he => hsignature e ?_)).bind
      fun _ _ => .pure trivial
    exact List.mem_append_right _ (Option.mem_toList.mpr he)
  obtain ⟨helper, after, hrest⟩ :=
    hends.exists_ok (outcome (separately (functionText ctx f)) state).2 trivial
  have hbody : Yields (separately (functionText ctx f)) state result _ := Prod.ext h rfl
  exact ⟨helper, after, .bind hbody hrest⟩

/-- The context in which a declared handler is lowered. -/
def handlerContext (ctx : Context) (purpose : Purpose) (f : FunctionSource) : Context :=
  { ctx with
    directives := ctx.directives.within (FunctionDeclaration.lineRange f).1 f.header.endLine
    aliasRoots := handlerNames purpose f.header }

/-- A declared handler is brought to canonical form in the context of its own lines and
parameters. -/
theorem canonicalize_eq_of_declares {options : Options} {scope : Scope}
    {directives : DirectiveTable}
    {purpose : Purpose} {declared : FunctionDeclaration}
    (h : DeclaresHandler { scope, options, directives } f purpose declared) :
    declared.canonicalize options scope = do
      let (body, records) ←
        separately (functionText (handlerContext { scope, options, directives } purpose f) f)
      return { declared with
        parameters := purpose.canonicalParameters declared.parameters
        returnType := some ((declared.returnType.bind nonEmpty?).getD "Bool")
        body, records } := by
  have hroots : (declared.parameters ++
      purpose.canonicalParameters declared.parameters).map ParameterDeclaration.name =
        handlerNames purpose f.header := by
    have hnames : declared.parameters.map ParameterDeclaration.name =
        ((declaredNames true f.header).map fun name =>
          ({ name } : ParameterDeclaration)).map ParameterDeclaration.name := by
      simp [h.names, Function.comp_def]
    rw [List.map_append, h.names, map_name_canonicalParameters purpose hnames]
    rfl
  unfold FunctionDeclaration.canonicalize
  simp only [h.source, h.directives, h.purpose, Option.getD_some, hroots]
  rfl

section Handler

variable {options : Options} {scope : Scope} {directives : DirectiveTable}

/-- A handler has the body that its source is lowered to in that context. -/
theorem bodyResult_of_handler
    (h : HandlerGives { scope, options, directives } f contract purposeName docs datumType journal
      state g) :
    bodyResult (handlerContext { scope, options, directives } (Purpose.ofLabel purposeName) f) f
      state = .ok (g.body, g.records) := by
  obtain ⟨declared, journal', after, hdeclared, hrun⟩ := h
  have hhandler := (ends_ofHandlerSource { scope, options, directives }
    (fun _ _ => ends_somehow _) contract purposeName docs datumType).of_ok trivial hdeclared
  rw [canonicalize_eq_of_declares hhandler] at hrun
  obtain ⟨⟨body, records⟩, between, hbody, hpure⟩ := yields_bind.mp hrun
  obtain ⟨rfl, -⟩ := yields_pure.mp hpure
  exact congrArg Prod.fst hbody

/-- A body that can be lowered makes a handler. -/
theorem exists_handler (hsignature : SignatureEnds options.names (fun _ => False) f.header)
    {result : String × Records}
    (h : bodyResult
      (handlerContext { scope, options, directives } (Purpose.ofLabel purposeName) f) f
      state = .ok result) :
    ∃ handler, HandlerGives { scope, options, directives } f contract purposeName docs datumType
      journal state handler := by
  have hends := ends_ofHandlerSource { scope, options, directives } hsignature contract purposeName
    docs datumType
  obtain ⟨declared, journal', hdeclared⟩ := hends.exists_ok journal trivial
  have hcanonical := canonicalize_eq_of_declares (hends.of_ok trivial hdeclared)
  have hbody : Yields (separately (functionText
      (handlerContext { scope, options, directives } (Purpose.ofLabel purposeName) f) f)) state
      result _ := Prod.ext h rfl
  have hyields : ∃ handler after,
      Yields (declared.canonicalize options scope) state handler after := by
    rw [hcanonical]
    exact ⟨_, _, .bind hbody .pure⟩
  obtain ⟨handler, after, hrun⟩ := hyields
  exact ⟨handler, declared, journal', after, hdeclared, hrun⟩

end Handler

end Paths

/-- A method of the source whose statements name no transaction of a parameter is lowered alike as a
handler and as a helper: when both succeed, they have the same body and the same records, and if the
annotations of its signature resolve, one succeeds exactly when the other does. The two are lowered
at different times, from states that agree on the table of builtins. -/
theorem handler_like_helper (scope : Scope) (options : Options) (directives : DirectiveTable)
    (f : FunctionSource) (contract purposeName : String) (datumType : Option String)
    (docs docs' : Documentation) (isPublic isMethod : Bool) (journal : Journal)
    {reading transforming : LoweringState} (hplaced : IsPlaced f)
    (hfree : NamesNoTransaction (handlerNames (Purpose.ofLabel purposeName) f.header) f.body)
    (hbuiltins : builtins? reading = builtins? transforming) :
    (∀ helper handler,
      HelperGives { scope, options, directives } f isPublic isMethod docs reading helper →
      HandlerGives { scope, options, directives } f contract purposeName docs' datumType journal
        transforming handler →
      handler.body = helper.body ∧ handler.records = helper.records) ∧
    (SignatureEnds options.names (fun _ => False) f.header →
      ((∃ helper,
        HelperGives { scope, options, directives } f isPublic isMethod docs reading helper) ↔
        ∃ handler, HandlerGives { scope, options, directives } f contract purposeName docs'
          datumType journal transforming handler)) := by
  let ctx : Context := { scope, options, directives }
  -- Both paths turn on the same result of lowering the body.
  have hsame : bodyResult (handlerContext ctx (Purpose.ofLabel purposeName) f) f transforming =
      bodyResult ctx f reading := by
    unfold bodyResult handlerContext
    rw [functionText_within rfl hplaced hfree]
    exact separately_congr (composed_functionText ctx f) hbuiltins.symm
  constructor
  · intro helper handler hhelper hhandler
    have hresult := (bodyResult_of_handler hhandler).symm.trans
      (hsame.trans (bodyResult_of_helper hhelper))
    simpa using hresult
  · intro hsignature
    constructor
    · rintro ⟨helper, hhelper⟩
      exact exists_handler hsignature (hsame.trans (bodyResult_of_helper hhelper))
    · rintro ⟨handler, hhandler⟩
      exact exists_helper hsignature (hsame.symm.trans (bodyResult_of_handler hhandler))

/-- A method with a decorator, whose body names a transaction that is not that of a parameter. -/
def checking : FunctionSource where
  line := 4
  header := ⟨"spend", false, .mk [] [.mk "self" none none, .mk "datum" none none,
    .mk "redeemer" none none] none [] none, none, [⟨3, .name "validator"⟩], 7⟩
  body := [.simple 5 (.assigns [.name "tx"] (.attribute (.name "context") "transaction")),
    .simple 7 (.returns (some (.attribute (.name "tx") "fee")))]

/-- An expectation above the last statement of the method, and one after its end. -/
def checkingDirectives : DirectiveTable :=
  [(7, [⟨.expect, "redeemer", 6⟩]), (9, [⟨.expect, "datum", 8⟩])]

/-- The body of the method, with the expectation before its last line. -/
def checkingBody : String :=
  "let tx = context.transaction\n" ++
    "expect(redeemer, \"Expected value but found None\")\n" ++
    "tx.fee"

theorem handler_like_helper_checking :
    ∃ helper handler,
      HelperGives { directives := checkingDirectives } checking false true none {} helper ∧
      HandlerGives { directives := checkingDirectives } checking "Vault" "spend" none none [] {}
        handler ∧
      helper.body = checkingBody ∧ handler.body = helper.body ∧
      handler.records = helper.records := by
  have hplaced : IsPlaced checking := by
    constructor <;>
      simp [checking, FunctionSource.headLines, nestedAll, nested, FunctionDeclaration.lineRange,
        Stmt.line]
  have hfree : NamesNoTransaction (handlerNames (Purpose.ofLabel "spend") checking.header)
      checking.body := by
    have hnames : "context" ∉ handlerNames (Purpose.ofLabel "spend") checking.header := by decide
    intro statement hstatement line simple hsimple p hp
    simp only [checking, nestedAll, nested, List.nil_append, List.mem_cons, List.not_mem_nil,
      or_false] at hstatement
    rcases hstatement with rfl | rfl <;> cases hsimple
    · rintro ⟨⟩
      exact hnames hp
    · simp [Simple.namedValue?]
  have hsignature : SignatureEnds (fun _ => none) (fun _ => False) checking.header := by
    simp [SignatureEnds, signatureHints, checking, Parameters.positionalOnly, Parameters.regular,
      Parameters.keywordOnly, Parameter.hint]
  have hlowered : (outcome
    (FunctionDeclaration.ofSource { directives := checkingDirectives } checking
      false true none) {}).1.toOption.map FunctionDeclaration.body = some checkingBody := by
    decide +kernel
  rcases hrun : outcome (FunctionDeclaration.ofSource { directives := checkingDirectives } checking
    false true none) {} with ⟨failure | helper, after⟩
  · rw [hrun] at hlowered
    cases hlowered
  · rw [hrun] at hlowered
    have hhelper : HelperGives { directives := checkingDirectives } checking false true none {}
      helper := ⟨after, hrun⟩
    have hboth := handler_like_helper {} {} checkingDirectives checking "Vault" "spend" none none
      none false true [] hplaced hfree (rfl : builtins? {} = builtins? {})
    obtain ⟨handler, hhandler⟩ := (hboth.2 hsignature).mp ⟨helper, hhelper⟩
    have hbody : helper.body = checkingBody := Option.some.inj hlowered
    exact ⟨helper, handler, hhelper, hhandler, hbody, hboth.1 helper handler hhelper hhandler⟩

end AikenForge.Likeness
