/-
# The scope of aliases

Lowering statements with aliases is lowering what inlining makes of them without any: a load is
written as the transaction exactly where the binding that lowering takes note of reaches it. So
aliases have the scope of the source wherever inlining by all bindings gives the same statements.
Bindings that lowering does not take note of make the difference, and a captured name is one of
them.
-/

import Mathlib.Data.List.Forall2
import AikenForge.Proofs.Alias.Binding

namespace AikenForge.Inlining

open AikenForge.Source AikenForge.Lowering AikenForge.Text AikenForge.Expectation

variable {ctx : Context} {names : List String} {env env' : Env}

/-! ## Blocks -/

/-- What a line dispatches on does not depend on the roots. -/
theorem whenSubject?_rootless (line : Nat) :
    whenSubject? (rootless ctx) line = whenSubject? ctx line :=
  rfl

/-- So whether a statement is a guard does not. -/
theorem isGuard_rootless (statement : Stmt) :
    isGuard (rootless ctx) statement = isGuard ctx statement :=
  isGuard_congr (whenSubject?_rootless statement.line)

/-- Nor does whether a chain goes on. -/
theorem continuesChain_rootless (statements : List Stmt) :
    continuesChain (rootless ctx) statements = continuesChain ctx statements :=
  continuesChain_congr fun statement _ => whenSubject?_rootless statement.line

/-- A block restores the aliases on both sides. -/
theorem keeps_blockText {lines bareLines : Lowering (List String)}
    (h : Follows ctx names env Abreast lines bareLines) :
    Keeps ctx names env (blockText lines) (blockText bareLines) :=
  follows_inBlock (h.map _)

/-- What a line asks for goes around the statement in the same way on both sides. -/
theorem follows_around (happart : DirectivesApart ctx names) {statement bareStatement : Stmt}
    (hline : bareStatement.line = statement.line) {text bareText : Option String → Lowering String}
    (h : ∀ pipe, pipe.isSome = hasPipe ctx statement.line →
      Follows ctx names (ended heeded statement.ownBoundNames env) (Tracks ctx names env')
        (text pipe)
        (bareText pipe)) :
    Follows ctx names env (Tracks ctx names env') (around ctx statement text)
      (around (rootless ctx) bareStatement bareText) := by
  unfold around
  rw [hline]
  refine (keeps_pipeLine? happart statement.line).bind fun pipe hpipe => ?_
  refine (follows_dropAliases _ _).then fun _ => ?_
  refine (h pipe (reaches_pipeLine? hpipe)).then fun text => ?_
  exact (keeps_expectLines happart statement.line).thenPure _

/-- A branch with an alternative that corresponds. -/
theorem keeps_branchText (line : Nat) (test : Expr) {body bareBody : Lowering (List String)}
    {alternative bareAlternative : Alternative}
    (hbody : Follows ctx names env Abreast body bareBody)
    (hempty : bareAlternative.statements.isEmpty = alternative.statements.isEmpty)
    (hcontinues : continuesChain ctx bareAlternative.statements =
      continuesChain ctx alternative.statements)
    (hchain : continuesChain ctx alternative.statements = true →
      Keeps ctx names env alternative.chain bareAlternative.chain)
    (hlines : continuesChain ctx alternative.statements = false →
      Follows ctx names env Abreast alternative.lines bareAlternative.lines) :
    Keeps ctx names env (branchText ctx line test body alternative)
      (branchText (rootless ctx) line (inline heeded ctx env test) bareBody bareAlternative) := by
  refine keeps_congruence.branch (options_rootless ctx) line hempty ?_
    (keeps_lower_rootless ctx names test env) (keeps_blockText hbody) hchain
    fun hblock => keeps_blockText (hlines hblock)
  rw [continuesChain_rootless, hcontinues]

/-- One link of a dispatched chain. -/
theorem keeps_chainClauses (test : Expr) {body bareBody lines bareLines : Lowering (List String)}
    {orelse bareOrelse : List Stmt} {chain bareChain : Lowering (List WhenClause)}
    (hbody : Follows ctx names env Abreast body bareBody)
    (hempty : bareOrelse.isEmpty = orelse.isEmpty)
    (hsingle : isSingleBranch bareOrelse = isSingleBranch orelse)
    (hchain : isSingleBranch orelse = true → Keeps ctx names env chain bareChain)
    (hlines : isSingleBranch orelse = false → Follows ctx names env Abreast lines bareLines) :
    Keeps ctx names env (chainClauses ctx test body orelse chain lines)
      (chainClauses (rootless ctx) (inline heeded ctx env test) bareBody bareOrelse bareChain
        bareLines) :=
  keeps_congruence.clauses hempty hsingle (keeps_lower_rootless ctx names test env)
    (keeps_blockText hbody) hchain fun hblock => keeps_blockText (hlines hblock)

/-- A case of a `match`, with its pattern, its guard and its body. -/
theorem keeps_caseClause (pattern : Pattern) (guard : Option Expr)
    {body bareBody : Lowering (List String)} (hbody : Follows ctx names env Abreast body bareBody) :
    Keeps ctx names env (caseClause ctx pattern guard body)
      (caseClause (rootless ctx) (inlinePattern heeded ctx env pattern)
        (guard.map (inline heeded ctx env)) bareBody) := by
  refine keeps_congruence.clause (keeps_lowerPattern ctx names pattern env) ?_
    (keeps_blockText hbody)
  cases guard with
  | none => exact .none
  | some guard => exact .some (keeps_lower_rootless ctx names guard env)

/-- A statement with blocks of its own: in all of them its targets have ended. -/
theorem follows_nestedText (statement bareStatement : Stmt)
    {parts bareParts : List (Lowering (List String))}
    (h : List.Forall₂ (Keeps ctx names (ended heeded statement.blockTargets env)) parts bareParts) :
    Follows ctx names env (Tracks ctx names (ended heeded statement.blockTargets env))
      (nestedText statement parts) (nestedText bareStatement bareParts) :=
  Follows.then (keeps_warn ..) fun _ => (follows_dropAliases _ _).then fun _ =>
    (keeps_congruence.sequence h).thenPure _

/-- In a statement that is lowered as a whole its own names have ended. -/
theorem inside_whole (env : Env) (statement : Stmt) :
    inside heeded env .whole statement = ended heeded statement.ownBoundNames env :=
  if_pos (.inl rfl)

/-- In a further part of a chain no name has ended yet. -/
theorem inside_of_ne (env : Env) {way : Way} (h : way ≠ .whole) (statement : Stmt) :
    inside heeded env way statement = env := by
  unfold inside
  rw [if_neg]
  simp [h, heeded]

/-- What is no guard, or the last statement, is lowered as a whole. -/
theorem after_eq_whole {statement : Stmt} {rest : List Stmt}
    (h : (isGuard ctx statement && !rest.isEmpty) = false) :
    Way.after ctx statement rest = .whole := by
  unfold Way.after
  cases rest with
  | nil => simp [continuesChain]
  | cons first rest =>
      rw [List.isEmpty_cons, Bool.not_false, Bool.and_true] at h
      simp [h]

/-- A guard binds nothing for what is after it. -/
theorem afterStatement_of_isGuard {statement : Stmt} (h : isGuard ctx statement = true)
    (env : Env) :
    afterStatement heeded ctx env statement = env := by
  cases statement with
  | branch => exact ended_heeded_nil env
  | _ => cases h

/-- Outside of a dispatch an alternative is a further branch exactly if it continues the chain. -/
theorem alternative_of_none {way : Way} (hway : way ≠ .clause) {line : Nat}
    (hsubject : whenSubject? ctx line = none) (orelse : List Stmt) :
    way.alternative ctx line orelse = if continuesChain ctx orelse then .further else .whole := by
  simp [Way.alternative, hway, hsubject]

/-- In a dispatch an alternative is a further clause exactly if it is a single branch. -/
theorem alternative_of_dispatch {way : Way} {line : Nat}
    (h : way = .clause ∨ (whenSubject? ctx line).isSome) (orelse : List Stmt) :
    way.alternative ctx line orelse = if isSingleBranch orelse then .clause else .whole :=
  if_pos h

/-- All statements of a list fit. -/
abbrev AllFit (ctx : Context) (names : List String) (statements : List Stmt) : Prop :=
  ∀ statement ∈ statements, Fits ctx names statement

/-- Statements fit one by one, with all that is inside them. -/
theorem allFit_cons {statement : Stmt} {rest : List Stmt}
    (h : AllFit ctx names (nestedAll (statement :: rest))) :
    AllFit ctx names (statement :: nested statement) ∧ AllFit ctx names (nestedAll rest) := by
  rw [nestedAll, ← List.cons_append] at h
  exact List.forall_mem_append.mp h

/-! ## Statements -/

mutual

/-- The lines of a list of statements, by induction; `env` moves on from statement to statement. -/
theorem follows_lowerLines (happart : DirectivesApart ctx names) :
    ∀ (statements : List Stmt) (env : Env), AllFit ctx names (nestedAll statements) →
    Follows ctx names env Abreast (lowerLines ctx statements)
      (lowerLines (rootless ctx) (inlineLines heeded ctx env .whole statements))
  | [], _, _ => (keeps_pure _).abreast
  | statement :: rest, env, hfits => by
      obtain ⟨hinner, houter⟩ := allFit_cons hfits
      have hrest := fun env => follows_lowerLines happart rest env houter
      have hfirst := fun env => keeps_lowerFirst happart rest env houter
      have hstatement := fun env pipe => follows_lowerText happart statement env pipe hinner
      have hbranch := fun env alternative bareAlternative =>
        keeps_lowerBranch_instead happart statement env alternative bareAlternative hinner
      rw [inlineLines, lowerLines, lowerLines, isGuard_rootless, isGuard_inlineStatement,
        isEmpty_inlineLines, inside_whole]
      split
      · -- What follows a guard becomes its alternative, as a chain or as a block.
        rename_i hguard
        rw [Bool.and_eq_true] at hguard
        rw [afterStatement_of_isGuard hguard.1, line_inlineStatement]
        refine (follows_dropAliases _ _).then fun _ => ?_
        refine (keeps_expectLines happart statement.line).then fun expects => ?_
        refine ((hbranch _ _ _ ?_ ?_ ?_ ?_).thenPure _).abreast
        · exact isEmpty_inlineLines ..
        · exact continuesChain_inlineLines ..
        · intro hcontinues
          rw [Way.after, hguard.1, hcontinues]
          exact hfirst _ hcontinues
        · intro hcontinues
          rw [Way.after, hguard.1, hcontinues]
          exact hrest _
      · rename_i hguard
        rw [after_eq_whole (Bool.not_eq_true _ ▸ hguard)]
        refine (follows_around happart (line_inlineStatement ..) fun pipe hpipe =>
          hstatement _ pipe hpipe).then fun text => ?_
        exact (hrest _).thenPure _

/-- A branch whose alternative is given. -/
theorem keeps_lowerBranch_instead (happart : DirectivesApart ctx names) :
    ∀ (statement : Stmt) (env : Env) (alternative bareAlternative : Alternative),
    AllFit ctx names (statement :: nested statement) →
    bareAlternative.statements.isEmpty = alternative.statements.isEmpty →
    continuesChain ctx bareAlternative.statements = continuesChain ctx alternative.statements →
    (continuesChain ctx alternative.statements = true →
      Keeps ctx names env alternative.chain bareAlternative.chain) →
    (continuesChain ctx alternative.statements = false →
      Follows ctx names env Abreast alternative.lines bareAlternative.lines) →
    Keeps ctx names env (lowerBranch ctx (some alternative) statement)
      (lowerBranch (rootless ctx) (some bareAlternative)
        (inlineStatement heeded ctx env .whole statement))
  | .branch line test body orelse, env, _, _, hfits, hempty, hcontinues, hchain, hlines =>
      keeps_branchText line test
        (follows_lowerLines happart body env fun s hs => hfits s (by simp [nested, hs]))
        hempty hcontinues hchain hlines
  | .simple .., _, _, _, _, _, _, _, _ | .select .., _, _, _, _, _, _, _, _
  | .forLoop .., _, _, _, _, _, _, _, _ | .whileLoop .., _, _, _, _, _, _, _, _
  | .context .., _, _, _, _, _, _, _, _ | .attempt .., _, _, _, _, _, _, _, _
  | .function .., _, _, _, _, _, _, _, _ | .classDef .., _, _, _, _, _, _, _, _ => keeps_pure _

/-- A further branch of a chain. -/
theorem keeps_lowerBranch (happart : DirectivesApart ctx names) :
    ∀ (statement : Stmt) (env : Env), AllFit ctx names (statement :: nested statement) →
    continuesChain ctx [statement] = true →
    Keeps ctx names env (lowerBranch ctx none statement)
      (lowerBranch (rootless ctx) none (inlineStatement heeded ctx env .further statement))
  | .branch line test body orelse, env, hfits, hcontinues => by
      have hbody := follows_lowerLines happart body env fun s hs => hfits s (by simp [nested, hs])
      have hfirst := keeps_lowerFirst happart orelse env fun s hs => hfits s (by simp [nested, hs])
      have hlines := follows_lowerLines happart orelse env
        fun s hs => hfits s (by simp [nested, hs])
      have hway := alternative_of_none (by decide : Way.further ≠ .clause)
        (Option.isNone_iff_eq_none.mp hcontinues) orelse
      rw [inlineStatement, hway, lowerBranch, lowerBranch, Option.getD_none, Option.getD_none]
      refine keeps_branchText line test hbody (isEmpty_inlineLines ..)
        (continuesChain_inlineLines ..) (fun hchain => ?_) fun hchain => ?_
      · rw [if_pos hchain]
        exact hfirst hchain
      · rw [if_neg (Bool.not_eq_true _ ▸ hchain)]
        exact hlines
  | .simple .., _, _, h | .select .., _, _, h | .forLoop .., _, _, h | .whileLoop .., _, _, h
  | .context .., _, _, h | .attempt .., _, _, h | .function .., _, _, h | .classDef .., _,
      _, h => by
      cases h

/-- The further part of a chain is a block of its own. -/
theorem keeps_lowerFirst (happart : DirectivesApart ctx names) :
    ∀ (statements : List Stmt) (env : Env), AllFit ctx names (nestedAll statements) →
    continuesChain ctx statements = true →
    Keeps ctx names env (lowerFirst ctx statements)
      (lowerFirst (rootless ctx) (inlineLines heeded ctx env .further statements))
  | [], _, _, _ => keeps_pure _
  | [statement], env, hfits, hcontinues => by
      rw [inlineLines, inside_of_ne env (by decide)]
      exact keeps_lowerBranch happart statement env (allFit_cons hfits).1 hcontinues
  | statement :: _ :: _, _, _, hcontinues => by cases statement <;> cases hcontinues

/-- A statement as a whole; what it binds ends for the statements after it. -/
theorem follows_lowerText (happart : DirectivesApart ctx names) :
    ∀ (statement : Stmt) (env : Env) (pipe : Option String),
    AllFit ctx names (statement :: nested statement) →
    pipe.isSome = hasPipe ctx statement.line →
    Follows ctx names env (Tracks ctx names (afterStatement heeded ctx env statement))
      (Lowering.lowerText ctx pipe statement)
      (Lowering.lowerText (rootless ctx) pipe (inlineStatement heeded ctx env .whole statement))
  | .simple line statement, env, pipe, hfits, hpipe =>
      follows_simpleText line hpipe statement (hfits _ (by simp))
  | .branch line test body orelse, env, pipe, hfits, _ => by
      have hbody := follows_lowerLines happart body env fun s hs => hfits s (by simp [nested, hs])
      have hfirst := keeps_lowerFirst happart orelse env fun s hs => hfits s (by simp [nested, hs])
      have hclauses := keeps_firstClauses happart orelse env
        fun s hs => hfits s (by simp [nested, hs])
      have hlines := follows_lowerLines happart orelse env
        fun s hs => hfits s (by simp [nested, hs])
      have hafter : afterStatement heeded ctx env (.branch line test body orelse) = env :=
        ended_heeded_nil env
      rw [hafter, inlineStatement, Lowering.lowerText, Lowering.lowerText, whenSubject?_rootless]
      cases hsubject : whenSubject? ctx line with
      | some subject =>
          rw [alternative_of_dispatch (.inr (by simp [hsubject]))]
          refine (keeps_subjectText happart hsubject).then fun subject => ?_
          refine Follows.then (keeps_chainClauses test hbody (isEmpty_inlineLines ..)
            (isSingleBranch_inlineLines ..) (fun hsingle => ?_) fun hsingle => ?_) fun clauses =>
              keeps_congruence.dispatch (options_rootless ctx) _ _
          · rw [if_pos hsingle]
            exact hclauses hsingle
          · rw [if_neg (Bool.not_eq_true _ ▸ hsingle)]
            exact hlines
      | none =>
          rw [alternative_of_none (by decide) hsubject]
          refine keeps_branchText line test hbody (isEmpty_inlineLines ..)
            (continuesChain_inlineLines ..) (fun hchain => ?_) fun hchain => ?_
          · rw [if_pos hchain]
            exact hfirst hchain
          · rw [if_neg (Bool.not_eq_true _ ▸ hchain)]
            exact hlines
  | .select line subject cases, env, pipe, hfits, _ => by
      have hcases := keeps_lowerCases happart cases env fun s hs => hfits s (by simp [nested, hs])
      have hafter : afterStatement heeded ctx env (.select line subject cases) = env :=
        ended_heeded_nil env
      rw [hafter, inlineStatement, Lowering.lowerText, Lowering.lowerText, lower_rootless]
      exact hcases.then fun clauses => (keeps_lower ctx names subject env).then fun _ =>
        keeps_congruence.dispatch (options_rootless ctx) _ _
  | .forLoop line isAsync target iterable body orelse, env, pipe, hfits, _ => by
      have hbody := fun env => keeps_lowerEach happart body env
        fun s hs => hfits s (by simp [nested, hs])
      have horelse := fun env => keeps_lowerEach happart orelse env
        fun s hs => hfits s (by simp [nested, hs])
      exact follows_nestedText (.forLoop line isAsync target iterable body orelse) _
        (.cons (hbody _) (.cons (horelse _) .nil))
  | .whileLoop line test body orelse, env, pipe, hfits, _ => by
      have hbody := fun env => keeps_lowerEach happart body env
        fun s hs => hfits s (by simp [nested, hs])
      have horelse := fun env => keeps_lowerEach happart orelse env
        fun s hs => hfits s (by simp [nested, hs])
      exact follows_nestedText (.whileLoop line test body orelse) _
        (.cons (hbody _) (.cons (horelse _) .nil))
  | .context line isAsync items body, env, pipe, hfits, _ => by
      have hbody := fun env => keeps_lowerEach happart body env
        fun s hs => hfits s (by simp [nested, hs])
      exact follows_nestedText (.context line isAsync items body) _
        (.cons (hbody _) .nil)
  | .attempt line isGroup body handlers orelse finals, env, pipe, hfits, _ => by
      have hbody := fun env => keeps_lowerEach happart body env
        fun s hs => hfits s (by simp [nested, hs])
      have horelse := fun env => keeps_lowerEach happart orelse env
        fun s hs => hfits s (by simp [nested, hs])
      have hhandlers := fun env => keeps_lowerHandlers happart handlers env
        fun s hs => hfits s (by simp [nested, hs])
      have hfinals := fun env => keeps_lowerEach happart finals env
        fun s hs => hfits s (by simp [nested, hs])
      exact follows_nestedText (.attempt line isGroup body handlers orelse finals) _
        (.cons (hbody _) (.cons (horelse _) (.cons (hhandlers _) (.cons (hfinals _) .nil))))
  | .function line header body, env, pipe, hfits, _ => by
      have hbody := fun env => keeps_lowerEach happart body env
        fun s hs => hfits s (by simp [nested, hs])
      exact follows_nestedText (.function line header body) _
        (.cons (hbody _) .nil)
  | .classDef line header body, env, pipe, hfits, _ => by
      have hbody := fun env => keeps_lowerEach happart body env
        fun s hs => hfits s (by simp [nested, hs])
      exact follows_nestedText (.classDef line header body) _
        (.cons (hbody _) .nil)

/-- A further clause of a dispatched chain. -/
theorem keeps_branchClauses (happart : DirectivesApart ctx names) :
    ∀ (statement : Stmt) (env : Env), AllFit ctx names (statement :: nested statement) →
    Keeps ctx names env (branchClauses ctx statement)
      (branchClauses (rootless ctx) (inlineStatement heeded ctx env .clause statement))
  | .branch line test body orelse, env, hfits => by
      have hbody := follows_lowerLines happart body env fun s hs => hfits s (by simp [nested, hs])
      have hclauses := keeps_firstClauses happart orelse env
        fun s hs => hfits s (by simp [nested, hs])
      have hlines := follows_lowerLines happart orelse env
        fun s hs => hfits s (by simp [nested, hs])
      rw [inlineStatement, alternative_of_dispatch (.inl rfl)]
      refine keeps_chainClauses test hbody (isEmpty_inlineLines ..) (isSingleBranch_inlineLines ..)
        (fun hsingle => ?_) fun hsingle => ?_
      · rw [if_pos hsingle]
        exact hclauses hsingle
      · rw [if_neg (Bool.not_eq_true _ ▸ hsingle)]
        exact hlines
  | .simple .., _, _ | .select .., _, _ | .forLoop .., _, _ | .whileLoop .., _, _
  | .context .., _, _ | .attempt .., _, _ | .function .., _, _ | .classDef .., _, _ => keeps_pure _

/-- The further links of a dispatched chain. -/
theorem keeps_firstClauses (happart : DirectivesApart ctx names) :
    ∀ (statements : List Stmt) (env : Env), AllFit ctx names (nestedAll statements) →
    isSingleBranch statements = true →
    Keeps ctx names env (firstClauses ctx statements)
      (firstClauses (rootless ctx) (inlineLines heeded ctx env .clause statements))
  | [], _, _, _ => keeps_pure _
  | [statement], env, hfits, _ => by
      rw [inlineLines, inside_of_ne env (by decide)]
      exact keeps_branchClauses happart statement env (allFit_cons hfits).1
  | statement :: _ :: _, _, _, hsingle => by cases statement <;> cases hsingle

/-- The cases of a `match`, each from the names that stood before it. -/
theorem keeps_lowerCases (happart : DirectivesApart ctx names) :
    ∀ (cases : List Case) (env : Env), AllFit ctx names (nestedCases cases) →
    Keeps ctx names env (lowerCases ctx cases)
      (lowerCases (rootless ctx) (inlineCases heeded ctx env cases))
  | [], _, _ => keeps_pure _
  | .mk pattern guard body :: rest, env, hfits => by
      have hbody := follows_lowerLines happart body env
        fun s hs => hfits s (by simp [nestedCases, hs])
      have hrest := keeps_lowerCases happart rest env
        fun s hs => hfits s (by simp [nestedCases, hs])
      have hcaptures : ended heeded (heeded.captures pattern) env = env := ended_heeded_nil env
      rw [inlineCases, hcaptures]
      exact (keeps_caseClause pattern guard hbody).then fun _ => hrest.thenPure _

/-- Statements that are lowered without a look at how they chain. -/
theorem keeps_lowerEach (happart : DirectivesApart ctx names) :
    ∀ (statements : List Stmt) (env : Env), AllFit ctx names (nestedAll statements) →
    Keeps ctx names env (lowerEach ctx statements)
      (lowerEach (rootless ctx) (inlineEach heeded ctx env statements))
  | [], _, _ => keeps_pure _
  | statement :: rest, env, hfits => by
      obtain ⟨hinner, houter⟩ := allFit_cons hfits
      have hrest := keeps_lowerEach happart rest env houter
      have hstatement := fun env pipe => follows_lowerText happart statement env pipe hinner
      rw [inlineEach, inside_whole]
      refine Follows.then (follows_inBlock (follows_around happart (line_inlineStatement ..)
        fun pipe hpipe => hstatement _ pipe hpipe).abreast) fun _ => ?_
      exact hrest.thenPure _

/-- What catches failures, each from the names that stood before it. -/
theorem keeps_lowerHandlers (happart : DirectivesApart ctx names) :
    ∀ (handlers : List Handler) (env : Env), AllFit ctx names (nestedHandlers handlers) →
    Keeps ctx names env (lowerHandlers ctx handlers)
      (lowerHandlers (rootless ctx) (inlineHandlers heeded ctx env handlers))
  | [], _, _ => keeps_pure _
  | .mk exception name body :: rest, env, hfits => by
      have hbody := follows_lowerLines happart body env
        fun s hs => hfits s (by simp [nestedHandlers, hs])
      have hrest := keeps_lowerHandlers happart rest env
        fun s hs => hfits s (by simp [nestedHandlers, hs])
      have hhandler : ended heeded (heeded.handler name) env = env := ended_heeded_nil env
      rw [inlineHandlers, hhandler]
      exact (keeps_blockText hbody).then fun _ => hrest.thenPure _

end

/-! ## Scope -/

/-- Two runs give the same result and collect the same. -/
def SameAnswer {α : Type} (run bareRun : Except Failure α × LoweringState) : Prop :=
  run.1 = bareRun.1 ∧ Abreast run.2 bareRun.2

/-- Runs that match give the same answer, and the journals are not looked at. -/
theorem Matches.sameAnswer {α : Type} {run bareRun : Except Failure α × LoweringState}
    (h : Matches Abreast run bareRun) : SameAnswer run bareRun := by
  cases h with
  | ok value h => exact ⟨rfl, h⟩
  | error failure h => exact ⟨rfl, h⟩

/-- The names that statements make aliases, at any depth. -/
def aliasNames (ctx : Context) (statements : List Stmt) : List String :=
  (nestedAll statements).filterMap (aliasName? ctx)

/-- Directives have nothing to do with the aliases of statements: they load none of them, and no
pipe directive stands above an assignment that combines a name with a value, where it is not
heard. -/
structure Separate (ctx : Context) (statements : List Stmt) : Prop where
  loads : DirectivesApart ctx (aliasNames ctx statements)
  combined : ∀ statement ∈ nestedAll statements, combinesPiped ctx statement = false

/-- In separate statements every alias is among the names considered, and every directive apart. -/
theorem Separate.allFit {statements : List Stmt} (h : Separate ctx statements) :
    AllFit ctx (aliasNames ctx statements) (nestedAll statements) := by
  intro statement hmem
  refine ⟨fun name hname => ?_, h.combined statement hmem⟩
  exact List.mem_filterMap.mpr ⟨statement, hmem, hname⟩

/-- Without directives statements are separate. -/
theorem separate_of_no_directives (h : ctx.directives = []) (statements : List Stmt) :
    Separate ctx statements := by
  have honLine (line : Nat) : ctx.directives.onLine line = [] := by
    rw [h]
    rfl
  refine ⟨fun line d hd => ?_, fun statement _ => ?_⟩
  · rw [honLine] at hd
    cases hd
  · have hpipe (line : Nat) : hasPipe ctx line = false := by
      unfold hasPipe DirectiveTable.ofKind
      rw [honLine]
      rfl
    unfold combinesPiped
    split
    · exact hpipe _
    · rfl

/-- A state without aliases is where both sides start. -/
theorem tracks_start {state : LoweringState} (h : state.aliases = []) :
    Tracks ctx names (fun _ => none) state state := by
  refine ⟨⟨rfl, rfl⟩, fun name => ?_, h, fun name hname => ?_⟩
  · rw [h]
    rfl
  · cases hname

variable (ctx)

/-- Lowering statements answers as lowering what inlining makes of them, in a context and from a
state without aliases: a load is written as the transaction that its name stands for exactly where
the bindings that lowering takes note of let it, and as the name otherwise. Where inlining by all
bindings gives the same statements, aliases have the scope that the source gives them. -/
theorem lowerLines_answers_inlined (statements : List Stmt) (hseparate : Separate ctx statements)
    {state : LoweringState} (hstate : state.aliases = []) :
    SameAnswer (outcome (lowerLines ctx statements) state)
        (outcome (lowerLines (rootless ctx) (inlined heeded ctx statements)) state) ∧
      (inlined lexical ctx statements = inlined heeded ctx statements →
        SameAnswer (outcome (lowerLines ctx statements) state)
          (outcome (lowerLines (rootless ctx) (inlined lexical ctx statements)) state)) := by
  have hanswer : SameAnswer (outcome (lowerLines ctx statements) state)
      (outcome (lowerLines (rootless ctx) (inlined heeded ctx statements)) state) :=
    (follows_lowerLines hseparate.loads statements _ hseparate.allFit
      (tracks_start hstate)).sameAnswer
  refine ⟨hanswer, fun hequal => ?_⟩
  rw [hequal]
  exact hanswer

/-- A context in which the transaction of `p` may have other names. -/
def oneRoot : Context :=
  { aliasRoots := ["p"] }

/-- The binding of `tx` to the transaction of `p`. -/
def bindsAlias : Stmt :=
  .simple 1 (.assigns [.name "tx"] (.attribute (.name "p") "transaction"))

/-- An alias that a block binds again, a function takes as a parameter, and a call loads. -/
def shadowedAlias : List Stmt :=
  [bindsAlias,
   .branch 2 (.name "c")
     [.simple 3 (.assigns [.name "tx"] (.name "other")),
       .simple 4 (.returns (some (.name "tx")))] [],
   .simple 5 (.returns (some (.call (.name "fold")
     [.lambda (.mk [] [.mk "tx" none none] none [] none) (.name "tx"), .name "tx"] [])))]

/-- The lambda is written `fn(tx) { tx }`, and the name after it as the transaction of `p`. -/
theorem lowerLines_answers_inlined_shadowed :
    Separate oneRoot shadowedAlias ∧
      inlined lexical oneRoot shadowedAlias = inlined heeded oneRoot shadowedAlias ∧
      SameAnswer (outcome (lowerLines oneRoot shadowedAlias) {})
        (outcome (lowerLines (rootless oneRoot) (inlined lexical oneRoot shadowedAlias)) {}) ∧
      (outcome (lowerLines oneRoot shadowedAlias) {}).1 =
        .ok ["if c \x7b\n  let tx = other\n  tx\n\x7d else \x7b\n" ++
          "  fold(fn(tx) \x7b tx \x7d, p.transaction)\n\x7d"] := by
  have hseparate : Separate oneRoot shadowedAlias := separate_of_no_directives rfl _
  have hequal : inlined lexical oneRoot shadowedAlias = inlined heeded oneRoot shadowedAlias := rfl
  exact ⟨hseparate, hequal,
    (lowerLines_answers_inlined oneRoot shadowedAlias hseparate rfl).2 hequal, rfl⟩

/-- A `match` that captures the name of an alias: it is written `when d { tx => p.transaction, }`,
although the name that its clause loads is the one that its pattern binds. -/
theorem lowerLines_captured_alias :
    (outcome (lowerLines oneRoot [bindsAlias, .select 2 (.name "d")
      [.mk (.capture (some "tx")) none [.simple 4 (.returns (some (.name "tx")))]]]) {}).1 =
        .ok ["when d \x7b\n  tx => p.transaction,\n\x7d"] ∧
    (outcome (lowerLines (rootless oneRoot) (inlined lexical oneRoot
      [bindsAlias, .select 2 (.name "d")
        [.mk (.capture (some "tx")) none [.simple 4 (.returns (some (.name "tx")))]]])) {}).1 =
        .ok ["when d \x7b\n  tx => tx,\n\x7d"] :=
  ⟨rfl, rfl⟩

-- The root of an alias is bound again, and the alias goes on standing for the transaction of the
-- new value.
example : (outcome (lowerLines oneRoot [bindsAlias,
    .simple 2 (.assigns [.name "p"] (.name "q")), .simple 3 (.returns (some (.name "tx")))]) {}).1 =
      .ok ["let p = q", "p.transaction"] :=
  rfl

end AikenForge.Inlining
