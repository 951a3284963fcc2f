/-
# What lowering a body ends with

The walk over all statements of a body: a step lemma for each way in which statements are put
together, and from them the whole block, by recursion over the statements. The text of a function's
body follows.
-/

import AikenForge.Proofs.Outcome.Statement

namespace AikenForge.Lowering

open AikenForge.Source AikenForge.Text AikenForge.Expectation
open AikenForge.Frame (reachedState)

variable {ctx : Context} {base : LoweringState} {fails : Failure → Prop}
  {strings others : List CodePoints}

/-! ## Harmless blocks -/

/-- All statements inside a statement are harmless. -/
def HarmlessInside (names : CharacterNames) (fails : Failure → Prop) (statement : Stmt) : Prop :=
  ∀ inner ∈ nested statement, HarmlessStatement names fails inner

/-- A block is harmless statement by statement. -/
theorem harmlessBlock_cons {names : CharacterNames} {statement : Stmt} {rest : List Stmt} :
    HarmlessBlock names fails (statement :: rest) ↔ HarmlessStatement names fails statement ∧
      HarmlessInside names fails statement ∧ HarmlessBlock names fails rest := by
  simp only [HarmlessBlock, HarmlessInside, nestedAll, List.forall_mem_cons, List.forall_mem_append]

/-- The test of a harmless branch is harmless. -/
theorem HarmlessStatement.test {names : CharacterNames} {line : Nat} {test : Expr}
    {body orelse : List Stmt}
    (h : HarmlessStatement names fails (.branch line test body orelse)) :
    Harmless fails test.subterms := by
  simpa [Stmt.ownExpressions, Expr.all] using h.literals

/-- What is lowered for the statements of a block. -/
abbrev BlockEnds (ctx : Context) (base : LoweringState) (fails : Failure → Prop)
    (statements : List Stmt) : Prop :=
  LinesFrom ctx base fails (writtenIn ctx (arrivals ctx base .whole statements))
    (lowerLines ctx statements)

/-- What is lowered for a single branch that goes on a chain. -/
abbrev FurtherEnds (ctx : Context) (base : LoweringState) (fails : Failure → Prop)
    (statements : List Stmt) : Prop :=
  continuesChain ctx statements = true →
    EndsText ctx base fails (writtenIn ctx (arrivals ctx base .further statements))
      (lowerFirst ctx statements)

/-- What is lowered for a single branch that goes on a dispatch. -/
abbrev ClausesEnd (ctx : Context) (base : LoweringState) (fails : Failure → Prop)
    (statements : List Stmt) : Prop :=
  isSingleBranch statements = true →
    EndsClauses ctx base fails (writtenIn ctx (arrivals ctx base .clause statements))
      (firstClauses ctx statements)

/-- The strings that are written in a statement between what its line asks for, if they are those of
the state `inside`; a pipe may stand in for its value. -/
def writtenText (ctx : Context) (inside : LoweringState) (standing : Option (List CodePoints))
    (statement : Stmt) : List CodePoints :=
  writtenDispatch ctx inside statement ++ (writtenOwn ctx inside standing statement ++
    writtenIn ctx (arrivalsInside ctx inside .whole statement))

/-- What is lowered for a statement between what its line asks for. -/
abbrev TextEnds (ctx : Context) (inside : LoweringState) (fails : Failure → Prop)
    (statement : Stmt) : Prop :=
  ∀ standing pipe, StandsIn ctx.options.indent.toNat standing pipe →
    TextFrom ctx inside fails (writtenText ctx inside standing statement)
      (lowerText ctx pipe statement)

/-! ## Steps -/

section Steps

variable {line : Nat} {test : Expr} {body orelse : List Stmt}

/-- A block ends with its lines joined. -/
theorem BlockEnds.text {statements : List Stmt} (h : BlockEnds ctx base fails statements) :
    EndsText ctx base fails (writtenIn ctx (arrivals ctx base .whole statements))
      (blockText (lowerLines ctx statements)) :=
  ends_blockText (composed_lowerLines ctx statements) h

/-- A branch by its test, its body and its alternative. -/
theorem ends_branch (line : Nat) (htest : Harmless fails test.subterms)
    (hbody : BlockEnds ctx base fails body) (hfirst : FurtherEnds ctx base fails orelse)
    (hlines : BlockEnds ctx base fails orelse) :
    EndsText ctx base fails (written ctx base test ++
      (writtenIn ctx (arrivals ctx base .whole body) ++
      writtenIn ctx
        (arrivals ctx base (if continuesChain ctx orelse then .further else .whole) orelse)))
      (branchText ctx line test (lowerLines ctx body)
        ⟨orelse, lowerFirst ctx orelse, lowerLines ctx orelse⟩) := by
  apply ends_branchText line htest hbody.text
  · rintro rfl
    rfl
  · intro hcontinues
    rw [if_pos hcontinues]
    exact hfirst hcontinues
  · intro hcontinues
    rw [if_neg (by simpa using hcontinues)]
    exact hlines.text

/-- A link of a dispatched chain by its test, its body and what follows. -/
theorem ends_clauses (htest : Harmless fails test.subterms)
    (hbody : BlockEnds ctx base fails body) (hfirst : ClausesEnd ctx base fails orelse)
    (hlines : BlockEnds ctx base fails orelse) :
    EndsClauses ctx base fails (written ctx base test ++
      (writtenIn ctx (arrivals ctx base .whole body) ++
      writtenIn ctx (arrivals ctx base (if isSingleBranch orelse then .clause else .whole) orelse)))
      (chainClauses ctx test (lowerLines ctx body) orelse (firstClauses ctx orelse)
        (lowerLines ctx orelse)) := by
  apply ends_chainClauses htest hbody.text
  · intro hsingle
    rw [if_pos hsingle]
    exact hfirst hsingle
  · intro hsingle
    rw [if_neg (by simpa using hsingle)]
    exact hlines.text
  · rintro rfl
    rfl

/-- A branch that no directive dispatches, as a further one or as a whole. -/
theorem writtenIn_branch {way : Way} (hway : way ≠ .clause)
    (hsubject : whenSubject? ctx line = none) :
    writtenIn ctx (arrivalsInside ctx base way (.branch line test body orelse)) =
      writtenIn ctx (arrivals ctx base .whole body) ++
        writtenIn ctx (arrivals ctx base (if continuesChain ctx orelse then .further else .whole)
          orelse) := by
  simp [arrivalsInside, writtenIn_append, Way.alternative, hway, hsubject]

/-- A branch that is dispatched, as a further clause or by its own directive. -/
theorem writtenIn_dispatch {way : Way}
    (hway : way = .clause ∨ (whenSubject? ctx line).isSome = true) :
    writtenIn ctx (arrivalsInside ctx base way (.branch line test body orelse)) =
      writtenIn ctx (arrivals ctx base .whole body) ++
        writtenIn ctx (arrivals ctx base (if isSingleBranch orelse then .clause else .whole)
          orelse) := by
  simp only [arrivalsInside, writtenIn_append, Way.alternative, hway, if_true]

theorem writtenSubject_of_none (hsubject : whenSubject? ctx line = none) :
    writtenSubject ctx base line = [] := by
  simp [writtenSubject, hsubject]

/-- A branch outside of its own line, reached as a further one or as a further clause. -/
theorem writtenIn_single {way : Way} (hway : way ≠ .whole) :
    writtenIn ctx (arrivals ctx base way [.branch line test body orelse]) =
      written ctx base test ++
        writtenIn ctx (arrivalsInside ctx base way (.branch line test body orelse)) := by
  simp [arrivals, writtenIn_cons, writtenAt, writtenOwn, Arrival.inside, hway]

/-- An empty text holds no string. -/
theorem eq_nil_of_isEmpty {width : Nat} {text : String} (h : Bears width strings text)
    (hempty : text.isEmpty = true) : strings = [] := by
  apply List.eq_nil_iff_forall_not_mem.mpr
  intro s hs
  exact (h s hs).ne_empty (by simpa using hempty)

/-- A guard with statements after it changes the aliases of the names that it binds only; any other
statement leaves the state that lowering it as a whole does. -/
theorem stateAfter_whole {statement : Stmt} {rest : List Stmt}
    (h : (isGuard ctx statement && !rest.isEmpty) = false) :
    stateAfter ctx base statement rest =
      reachedState (around ctx statement fun pipe => lowerText ctx pipe statement) base := by
  rw [stateAfter, h, if_neg Bool.false_ne_true]

/-- What is written in a whole statement. -/
theorem writtenIn_whole {statement : Stmt} {after : LoweringState} (others : List Arrival) :
    writtenIn ctx (⟨statement, .whole, base, after⟩ ::
        (arrivalsInside ctx (dropped statement.ownBoundNames base) .whole statement ++ others)) =
      (writtenExpectations ctx after statement.line ++
        writtenText ctx (dropped statement.ownBoundNames base)
          (writtenStanding ctx base statement.line) statement) ++ writtenIn ctx others := by
  simp [writtenIn_cons, writtenIn_append, writtenAt, writtenText, Arrival.inside]

/-- A statement that is no guard with statements after it is lowered as a whole. -/
theorem ends_lowerLines_whole {statement : Stmt} {rest : List Stmt}
    (hguard : (isGuard ctx statement && !rest.isEmpty) = false)
    (htable : HarmlessTable ctx.options.names fails ctx.directives)
    (htext : TextEnds ctx (dropped statement.ownBoundNames base) fails statement)
    (hlines : BlockEnds ctx (stateAfter ctx base statement rest) fails rest) :
    BlockEnds ctx base fails (statement :: rest) := by
  have hway : Way.after ctx statement rest = .whole := by
    cases rest with
    | nil => simp [Way.after, continuesChain]
    | cons next others =>
        have hno : isGuard ctx statement = false := by simpa using hguard
        simp [Way.after, hno]
  have hafter : stateAfter ctx base statement [] = stateAfter ctx base statement rest := by
    rw [stateAfter_whole hguard, stateAfter_whole (by simp)]
  have haround := textFrom_around htable fun pipe hpipe => htext _ pipe hpipe
  rw [hafter] at haround
  unfold BlockEnds
  rw [lowerLines, hguard, arrivals, hway]
  dsimp only
  rw [Arrival.inside, if_pos rfl, writtenIn_whole]
  rw [stateAfter_whole hguard] at hlines haround ⊢
  refine haround.bind (composed_around ctx statement fun pipe =>
    composed_lowerText ctx pipe statement).uniform fun text htext =>
      hlines.then fun texts htexts _ => .pure ?_
  split
  · rename_i hempty
    rw [eq_nil_of_isEmpty htext hempty]
    exact htexts
  · exact htext.cons htexts

/-- A guard takes the statements after it as its alternative. -/
theorem ends_lowerLines_guard {rest : List Stmt} (hrest : rest ≠ [])
    (hguard : isGuard ctx (.branch line test body []) = true)
    (htable : HarmlessTable ctx.options.names fails ctx.directives)
    (htest : Harmless fails test.subterms)
    (hlines : ∀ base, BlockEnds ctx base fails body ∧ FurtherEnds ctx base fails rest ∧
      BlockEnds ctx base fails rest) :
    BlockEnds ctx base fails (.branch line test body [] :: rest) := by
  have hboth : (isGuard ctx (.branch line test body []) && !rest.isEmpty) = true := by
    simp [hguard, hrest]
  have hsubject : whenSubject? ctx line = none := by
    rw [isGuard, Bool.and_eq_true] at hguard
    simpa using hguard.2
  have hway : Way.after ctx (.branch line test body []) rest =
      if continuesChain ctx rest then .further else .whole := by
    simp [Way.after, hguard]
  unfold BlockEnds
  rw [lowerLines, hboth, arrivals, hway, stateAfter, hboth, if_pos rfl]
  dsimp only
  rw [Arrival.inside, if_pos rfl, writtenIn_whole]
  -- The rest is lowered from the state in which the branch is.
  set inside := dropped (Stmt.ownBoundNames (.branch line test body [])) base with hinside
  obtain ⟨hbody, hfirst, hrest⟩ := hlines inside
  have hexpects : EndsLines ctx inside fails (writtenExpectations ctx inside line)
      (expectLines ctx line) := ends_expectLines htable line
  have hbranch := ends_branch line htest hbody hfirst hrest
  refine .drop (.of_ends (hexpects.bind fun expects hexpects => hbranch.bind fun text htext =>
    .pure ?_))
  have hall := hexpects.append htext.among
  simpa [writtenText, writtenDispatch, writtenSubject_of_none hsubject, writtenOwn, arrivalsInside,
    arrivals, Way.alternative, writtenIn_append, Stmt.line, continuesChain] using hall

/-- A statement of which only the nested statements are lowered. -/
theorem textEnds_nested {statement : Stmt} {parts : List (Lowering (List String))}
    (hown : ∀ standing,
      writtenDispatch ctx base statement ++ writtenOwn ctx base standing statement = [])
    (htext : ∀ pipe, lowerText ctx pipe statement = nestedText statement parts)
    (h : EndsParts ctx (dropped statement.blockTargets base) fails
      (writtenIn ctx (arrivalsInside ctx base .whole statement)) parts) :
    TextEnds ctx base fails statement := by
  intro standing pipe _
  rw [htext, writtenText, ← List.append_assoc, hown, List.nil_append]
  exact textFrom_nestedText statement h

end Steps

/-! ## All statements -/

mutual

/-- Lowering a block fails only as the literals and annotations in it do, and its lines hold the
strings that are written in it. -/
theorem ends_lowerLines (htable : HarmlessTable ctx.options.names fails ctx.directives)
    (base : LoweringState) : ∀ statements : List Stmt,
    HarmlessBlock ctx.options.names fails statements → BlockEnds ctx base fails statements
  | [], _ => .pure (bearsAmong_nil _ _)
  | statement :: rest, h => by
      obtain ⟨hstatement, hinside, hrest⟩ := harmlessBlock_cons.mp h
      have hlines (base : LoweringState) := ends_lowerLines htable base rest hrest
      cases statement with
      | branch line test body orelse =>
          by_cases hguard : (isGuard ctx (.branch line test body orelse) && !rest.isEmpty) = true
          · obtain ⟨hisGuard, hnonempty⟩ := (Bool.and_eq_true _ _).mp hguard
            cases orelse with
            | nil =>
                have hbody : HarmlessBlock ctx.options.names fails body :=
                  fun inner hinner => hinside inner (List.mem_append_left _ hinner)
                exact ends_lowerLines_guard (by simpa using hnonempty) hisGuard htable
                  hstatement.test
                  fun base => ⟨ends_lowerLines htable base body hbody,
                    ends_lowerFirst htable base rest hrest, hlines base⟩
            | cons _ _ => cases hisGuard
          · exact ends_lowerLines_whole (by simpa using hguard) htable
              (ends_lowerText htable _ _ hstatement hinside) (hlines _)
      | _ =>
          exact ends_lowerLines_whole rfl htable (ends_lowerText htable _ _ hstatement hinside)
            (hlines _)

/-- A harmless statement ends with its strings, by induction on the statement. -/
theorem ends_lowerText (htable : HarmlessTable ctx.options.names fails ctx.directives)
    (base : LoweringState) :
    ∀ statement : Stmt, HarmlessStatement ctx.options.names fails statement →
    HarmlessInside ctx.options.names fails statement → TextEnds ctx base fails statement
  | .simple line statement, h, _ => by
      intro standing pipe hpipe
      simpa [lowerText, writtenText, writtenDispatch, writtenOwn, arrivalsInside, writtenIn] using
        textFrom_simpleText hpipe h
  | .branch line test body orelse, h, hinside => by
      intro standing pipe _
      obtain ⟨hbody, horelse⟩ := List.forall_mem_append.mp hinside
      have hlines := ends_lowerLines htable base body hbody
      have helse := ends_lowerLines htable base orelse horelse
      rw [lowerText, writtenText, writtenDispatch, writtenOwn]
      cases hsubject : whenSubject? ctx line with
      | none =>
          rw [writtenSubject_of_none hsubject, List.nil_append,
            writtenIn_branch (by decide) hsubject]
          exact .of_ends (ends_branch line h.test hlines
            (ends_lowerFirst htable base orelse horelse)
            helse)
      | some subject =>
          have hway : Way.whole = .clause ∨ (whenSubject? ctx line).isSome = true :=
            .inr (by rw [hsubject, Option.isSome_some])
          have htext : EndsText ctx base fails (writtenSubject ctx base line)
              (subjectText ctx subject) := ends_subjectText htable hsubject
          have hclauses :=
            ends_clauses h.test hlines (ends_firstClauses htable base orelse horelse) helse
          rw [writtenIn_dispatch hway]
          exact .of_ends (htext.bind fun _ htext => hclauses.bind fun _ hclauses =>
            ends_whenText htext hclauses)
  | .select line subject cases, h, hinside => by
      intro standing pipe _
      have hliterals := h.literals
      rw [Stmt.ownExpressions, Expr.all, harmless_append] at hliterals
      have hsubject : EndsText ctx base fails (written ctx base subject) (lower ctx subject) :=
        ends_lower base subject hliterals.1
      have hcases := ends_lowerCases htable base cases hliterals.2 hinside
      simp only [lowerText, writtenText, writtenDispatch, writtenOwn, arrivalsInside,
        List.nil_append,
        List.append_assoc]
      exact .of_ends (hcases.bind fun _ hclauses => hsubject.bind fun _ htext =>
        ends_whenText htext hclauses)
  | .forLoop _ _ _ _ body orelse, _, hinside | .whileLoop _ _ body orelse, _, hinside => by
      obtain ⟨hbody, horelse⟩ := List.forall_mem_append.mp hinside
      apply textEnds_nested (by simp [writtenDispatch, writtenOwn]) fun _ => by rw [lowerText]
      rw [arrivalsInside, writtenIn_append]
      exact .cons (ends_lowerEach htable _ body hbody)
        (endsParts_singleton (ends_lowerEach htable _ orelse horelse))
  | .context _ _ _ body, _, hinside | .function _ _ body, _, hinside
  | .classDef _ _ body, _, hinside => by
      apply textEnds_nested (by simp [writtenDispatch, writtenOwn]) fun _ => by rw [lowerText]
      rw [arrivalsInside]
      exact endsParts_singleton (ends_lowerEach htable _ body hinside)
  | .attempt _ _ body handlers orelse finals, _, hinside => by
      obtain ⟨hbody, hinside⟩ := List.forall_mem_append.mp hinside
      obtain ⟨horelse, hinside⟩ := List.forall_mem_append.mp hinside
      obtain ⟨hhandlers, hfinals⟩ := List.forall_mem_append.mp hinside
      apply textEnds_nested (by simp [writtenDispatch, writtenOwn]) fun _ => by rw [lowerText]
      rw [arrivalsInside, writtenIn_append, writtenIn_append, writtenIn_append]
      exact .cons (ends_lowerEach htable _ body hbody)
        (.cons (ends_lowerEach htable _ orelse horelse)
          (.cons (ends_lowerHandlers htable _ handlers hhandlers)
            (endsParts_singleton (ends_lowerEach htable _ finals hfinals))))

/-- The further part of a chain. -/
theorem ends_lowerFirst (htable : HarmlessTable ctx.options.names fails ctx.directives)
    (base : LoweringState) : ∀ statements : List Stmt,
    HarmlessBlock ctx.options.names fails statements → FurtherEnds ctx base fails statements
  | [], _, hcontinues => by cases hcontinues
  | [.branch line test body orelse], h, hcontinues => by
      have hsubject : whenSubject? ctx line = none := by simpa [continuesChain] using hcontinues
      obtain ⟨hstatement, hinside, -⟩ := harmlessBlock_cons.mp h
      obtain ⟨hbody, horelse⟩ := List.forall_mem_append.mp hinside
      rw [writtenIn_single (by decide), writtenIn_branch (by decide) hsubject]
      exact ends_branch line hstatement.test (ends_lowerLines htable base body hbody)
        (ends_lowerFirst htable base orelse horelse) (ends_lowerLines htable base orelse horelse)
  | [.simple ..], _, hcontinues | [.select ..], _, hcontinues | [.forLoop ..], _, hcontinues
  | [.whileLoop ..], _, hcontinues | [.context ..], _, hcontinues | [.attempt ..], _, hcontinues
  | [.function ..], _, hcontinues | [.classDef ..], _, hcontinues => by cases hcontinues
  | statement :: _ :: _, _, hcontinues => by cases statement <;> cases hcontinues

/-- The further links of a dispatched chain. -/
theorem ends_firstClauses (htable : HarmlessTable ctx.options.names fails ctx.directives)
    (base : LoweringState) : ∀ statements : List Stmt,
    HarmlessBlock ctx.options.names fails statements → ClausesEnd ctx base fails statements
  | [], _, hsingle => by cases hsingle
  | [.branch line test body orelse], h, _ => by
      obtain ⟨hstatement, hinside, -⟩ := harmlessBlock_cons.mp h
      obtain ⟨hbody, horelse⟩ := List.forall_mem_append.mp hinside
      rw [writtenIn_single (by decide), writtenIn_dispatch (.inl rfl)]
      exact ends_clauses hstatement.test (ends_lowerLines htable base body hbody)
        (ends_firstClauses htable base orelse horelse) (ends_lowerLines htable base orelse horelse)
  | [.simple ..], _, hsingle | [.select ..], _, hsingle | [.forLoop ..], _, hsingle
  | [.whileLoop ..], _, hsingle | [.context ..], _, hsingle | [.attempt ..], _, hsingle
  | [.function ..], _, hsingle | [.classDef ..], _, hsingle => by cases hsingle
  | statement :: _ :: _, _, hsingle => by cases statement <;> cases hsingle

/-- The cases of a `match`. -/
theorem ends_lowerCases (htable : HarmlessTable ctx.options.names fails ctx.directives)
    (base : LoweringState) : ∀ cases : List Case,
    Harmless fails (Expr.all (Stmt.caseExpressions cases)) →
    (∀ inner ∈ nestedCases cases, HarmlessStatement ctx.options.names fails inner) →
    EndsClauses ctx base fails
      (writtenCases ctx base cases ++ writtenIn ctx (arrivalsCases ctx base cases))
      (lowerCases ctx cases)
  | [], _, _ => .pure (bearsAmong_nil _ _)
  | .mk pattern guard body :: rest, h, hinside => by
      simp only [Stmt.caseExpressions, all_append, harmless_append] at h
      obtain ⟨⟨⟨hpattern, hguard⟩, -⟩, hrest⟩ := h
      obtain ⟨hbody, hinside⟩ := List.forall_mem_append.mp hinside
      rw [lowerCases, writtenCases, arrivalsCases, writtenIn_append]
      have hbody := (ends_lowerLines htable base body hbody).text
      refine (ends_caseClause hpattern hguard hbody).bind fun clause hclause =>
        (ends_lowerCases htable base rest hrest hinside).bind fun clauses hclauses => .pure ?_
      -- The strings of the bodies come after those of all patterns and guards.
      have hall := hclause.cons hclauses
      simp only [bearsAmong_append, List.map_cons] at hall ⊢
      obtain ⟨⟨hpattern, hguard, hbody⟩, hcases, hbodies⟩ := hall
      exact ⟨⟨hpattern, hguard, hcases⟩, hbody, hbodies⟩

/-- Statements that are lowered without a look at how they chain. -/
theorem ends_lowerEach (htable : HarmlessTable ctx.options.names fails ctx.directives)
    (base : LoweringState) : ∀ statements : List Stmt,
    HarmlessBlock ctx.options.names fails statements →
    EndsLines ctx base fails (writtenIn ctx (arrivalsEach ctx base statements))
      (lowerEach ctx statements)
  | [], _ => .pure (bearsAmong_nil _ _)
  | statement :: rest, h => by
      obtain ⟨hstatement, hinside, hrest⟩ := harmlessBlock_cons.mp h
      have htext : TextEnds ctx (dropped statement.ownBoundNames base) fails statement :=
        ends_lowerText htable _ statement hstatement hinside
      have haround := textFrom_around htable fun pipe hpipe =>
        htext (writtenStanding ctx base statement.line) pipe hpipe
      have hcomposed := composed_around ctx statement fun pipe =>
        composed_lowerText ctx pipe statement
      rw [lowerEach, arrivalsEach]
      rw [Arrival.inside, if_pos rfl, writtenIn_whole]
      exact (haround.inBlock hcomposed.uniform).bind fun _ htext =>
        (ends_lowerEach htable base rest hrest).bind fun _ htexts => .pure (htext.cons htexts)

theorem ends_lowerHandlers (htable : HarmlessTable ctx.options.names fails ctx.directives)
    (base : LoweringState) : ∀ handlers : List Handler,
    (∀ inner ∈ nestedHandlers handlers, HarmlessStatement ctx.options.names fails inner) →
    EndsLines ctx base fails (writtenIn ctx (arrivalsHandlers ctx base handlers))
      (lowerHandlers ctx handlers)
  | [], _ => .pure (bearsAmong_nil _ _)
  | .mk _ _ body :: rest, hinside => by
      obtain ⟨hbody, hinside⟩ := List.forall_mem_append.mp hinside
      rw [lowerHandlers, arrivalsHandlers, writtenIn_append]
      exact (ends_lowerLines htable base body hbody).text.bind fun _ htext =>
        (ends_lowerHandlers htable base rest hinside).bind fun _ htexts => .pure (htext.cons htexts)

end

/-! ## Functions -/

/-- The checks at the start of a function. -/
theorem ends_headerLines (name : String) {directives : List Directive}
    (h : ∀ d ∈ directives, HarmlessText ctx.options.names fails d.text) :
    EndsLines ctx base fails
      ((directives.filter fun d => d.kind = .expect).flatMap fun d =>
        writtenExpectation ctx base d.text)
      (headerLines ctx name directives) := by
  have hlines : EndsLines ctx base fails
      ((directives.filter fun d => d.kind = .expect).flatMap fun d =>
        writtenExpectation ctx base d.text)
      (directives.mapM fun d => do
        if d.kind = .expect then expectDirective ctx d.text
        else
          warn .statements ("Ignoring @" ++ d.kind.label ++ " directive above function " ++ name)
          return "") := by
    induction directives with
    | nil => exact .pure (bearsAmong_nil _ _)
    | cons d rest ih =>
        have hrest := ih fun other hother => h other (List.mem_cons_of_mem _ hother)
        rw [List.mapM_cons, List.filter_cons]
        by_cases hkind : d.kind = .expect
        · have hfirst : EndsText ctx base fails (writtenExpectation ctx base d.text)
              (expectDirective ctx d.text) := ends_expectDirective (h d List.mem_cons_self)
          simp only [hkind, decide_true, if_true, List.flatMap_cons]
          exact hfirst.bind fun _ htext => hrest.bind fun _ htexts => .pure (htext.cons htexts)
        · have hignored : EndsText ctx base fails [] (do
              warn .statements ("Ignoring @" ++ d.kind.label ++
                " directive above function " ++ name)
              return "") := (ends_warn _ _).bind fun _ _ => .pure (bears_nil _ _)
          simp only [hkind, decide_false, if_false, Bool.false_eq_true]
          exact hignored.bind fun _ htext => hrest.bind fun _ htexts => .pure (htext.cons htexts)
  exact hlines.bind fun _ hlines => .pure hlines.filter

/-- A block is no less harmless without its documentation. -/
theorem HarmlessBlock.withoutDocumentation {names : CharacterNames} {statements : List Stmt}
    (h : HarmlessBlock names fails statements) :
    HarmlessBlock names fails (Lowering.withoutDocumentation statements) := by
  cases statements with
  | nil => exact h
  | cons statement rest =>
      rw [Lowering.withoutDocumentation]
      split
      · exact (harmlessBlock_cons.mp h).2.2
      · exact h

/-- Lowering the body of a function fails only as the literals and annotations in it do, and its
text holds the strings that are written in it. -/
theorem textFrom_functionText (htable : HarmlessTable ctx.options.names fails ctx.directives)
    {f : FunctionSource} (h : HarmlessBlock ctx.options.names fails f.body) :
    TextFrom ctx base fails (writtenFunction ctx base f) (functionText ctx f) := by
  have habove : ∀ d ∈ f.headLines.flatMap ctx.directives.onLine,
      HarmlessText ctx.options.names fails d.text := by
    intro d hd
    obtain ⟨line, -, hd⟩ := List.mem_flatMap.mp hd
    exact htable.onLine hd d.text List.mem_cons_self
  have hbody := (ends_lowerLines htable base _ h.withoutDocumentation).map
    fun _ hlines => hlines.joinLines
  refine .after (ends_headerLines f.header.name habove) fun expects hexpects =>
    hbody.then fun body hbody _ => .pure ?_
  unfold writtenFunction
  split
  · rename_i hempty
    rw [eq_nil_of_isEmpty hbody hempty, List.append_nil]
    exact hexpects.joinLines
  · exact (hexpects.append hbody.among).joinLines

end AikenForge.Lowering
