/-
# A dispatched chain and the branches it stands for

A chain of branches is lowered in one of two ways: as branches, one in the `else` of the other, or,
under a when directive, as the clauses of a dispatch. Both ways lower the same conditions and the
same bodies in the same order, so they are one traversal of the chain with two layouts of what it
gives. The traversal is steady, hence it gives the same from every state with the same aliases and
mappings, and in particular from before and from after the subject of the dispatch.

What the two layouts select is compared under all truth values of the conditions. They agree exactly
if no condition has an empty text, because a clause with an empty guard is written without one.
-/

import AikenForge.Proofs.Guard
import AikenForge.Proofs.Steady

namespace AikenForge.Dispatch

open AikenForge.Source AikenForge.Lowering AikenForge.Guard

/-- A chain of branches with conditions and bodies of some kind. It may end with an alternative. -/
inductive Cascade (C B : Type)
  | only (condition : C) (body : B)
  | either (condition : C) (body orelse : B)
  | next (condition : C) (body : B) (further : Cascade C B)

namespace Cascade

variable {C B : Type}

/-- The conditions with their bodies, in order. -/
def arms : Cascade C B → List (C × B)
  | only condition body | either condition body _ => [(condition, body)]
  | next condition body further => (condition, body) :: further.arms

/-- The last alternative, if there is one. -/
def orelse? : Cascade C B → Option B
  | only .. => none
  | either _ _ orelse => some orelse
  | next _ _ further => further.orelse?

/-- Two chains have the same shape, and their conditions and bodies are related one by one. -/
inductive Corresponds {C B C' B' : Type} (R : C → C' → Prop) (S : B → B' → Prop) :
    Cascade C B → Cascade C' B' → Prop
  | only {condition : C} {condition' : C'} {body : B} {body' : B'} :
      R condition condition' → S body body' →
      Corresponds R S (.only condition body) (.only condition' body')
  | either {condition : C} {condition' : C'} {body orelse : B} {body' orelse' : B'} :
      R condition condition' → S body body' → S orelse orelse' →
      Corresponds R S (.either condition body orelse) (.either condition' body' orelse')
  | next {condition : C} {condition' : C'} {body : B} {body' : B'} {further : Cascade C B}
      {further' : Cascade C' B'} :
      R condition condition' → S body body' → Corresponds R S further further' →
      Corresponds R S (.next condition body further) (.next condition' body' further')

/-! ## Layouts and what they select -/

/-- The layout as branches. -/
def text (ctx : Context) : Cascade String String → String
  | only condition body => "if " ++ condition ++ " " ++ braced ctx body
  | either condition body orelse =>
    "if " ++ condition ++ " " ++ braced ctx body ++ " else " ++ braced ctx orelse
  | next condition body further =>
    "if " ++ condition ++ " " ++ braced ctx body ++ " else " ++ further.text ctx

/-- The layout as clauses: one with each condition as its guard, and one without a guard for the
last alternative. -/
def clauses (cascade : Cascade String String) : List WhenClause :=
  (cascade.arms.map fun arm => ⟨.wildcard, arm.2, some arm.1⟩) ++
    cascade.orelse?.toList.map fun orelse => ⟨.wildcard, orelse, none⟩

/-- The place of the branch that is taken where the conditions have these truth values. -/
def taken (truth : Nat → Bool) : Cascade C B → Option Nat
  | only .. => if truth 0 then some 0 else none
  | either .. => if truth 0 then some 0 else some 1
  | next _ _ further =>
    if truth 0 then some 0 else (further.taken fun place => truth (place + 1)).map (· + 1)

end Cascade

/-- Whether a clause is taken that matches every value: it is written without a guard, or its guard
holds. -/
def takes (indent : Int) (clause : WhenClause) (holds : Bool) : Bool :=
  clause.render indent == bareText indent clause || holds

/-- The place of the first clause that is taken where the guards have these truth values. -/
def firstMatch (indent : Int) (truth : Nat → Bool) : List WhenClause → Option Nat
  | [] => none
  | clause :: rest =>
    if takes indent clause (truth 0) then some 0
    else (firstMatch indent (fun place => truth (place + 1)) rest).map (· + 1)

/-- A clause with a guard is taken if the guard holds, or has no text. -/
theorem takes_some (indent : Int) (pattern : ClausePattern) (body guard : String) (holds : Bool) :
    takes indent ⟨pattern, body, some guard⟩ holds = (guard.isEmpty || holds) := by
  unfold takes
  congr 1
  rw [Bool.eq_iff_iff, beq_iff_eq, String.isEmpty_iff]
  exact render_eq_bareText_iff rfl

/-- A clause without a guard is always taken. -/
theorem takes_none (indent : Int) (pattern : ClausePattern) (body : String) (holds : Bool) :
    takes indent ⟨pattern, body, none⟩ holds = true := by
  have hbare : WhenClause.render indent ⟨pattern, body, none⟩ =
      bareText indent ⟨pattern, body, none⟩ :=
    render_eq indent _
  simp [takes, hbare]

/-- The clauses of a chain select what its branches select, whatever the conditions come to, exactly
if each condition has a text. -/
theorem firstMatch_clauses_iff (indent : Int) (cascade : Cascade String String) :
    (∀ truth, firstMatch indent truth cascade.clauses = cascade.taken truth) ↔
      ∀ arm ∈ cascade.arms, arm.1 ≠ "" := by
  induction cascade with
  | only condition body =>
      have hselect (truth : Nat → Bool) :
          firstMatch indent truth (Cascade.only condition body).clauses =
            if condition.isEmpty || truth 0 then some 0 else none := by
        simp [Cascade.clauses, Cascade.arms, Cascade.orelse?, firstMatch, takes_some]
      simp only [hselect, Cascade.taken, Cascade.arms, List.mem_singleton, forall_eq]
      constructor
      · intro h hempty
        simpa [hempty] using h fun _ => false
      · intro h truth
        simp [h]
  | either condition body orelse =>
      have hselect (truth : Nat → Bool) :
          firstMatch indent truth (Cascade.either condition body orelse).clauses =
            if condition.isEmpty || truth 0 then some 0 else some 1 := by
        simp [Cascade.clauses, Cascade.arms, Cascade.orelse?, firstMatch, takes_some, takes_none]
      simp only [hselect, Cascade.taken, Cascade.arms, List.mem_singleton, forall_eq]
      constructor
      · intro h hempty
        simpa [hempty] using h fun _ => false
      · intro h truth
        simp [h]
  | next condition body further ih =>
      have hselect (truth : Nat → Bool) :
          firstMatch indent truth (Cascade.next condition body further).clauses =
            if condition.isEmpty || truth 0 then some 0
            else (firstMatch indent (fun place => truth (place + 1)) further.clauses).map
              (· + 1) := by
        simp [Cascade.clauses, Cascade.arms, Cascade.orelse?, firstMatch, takes_some]
      simp only [hselect, Cascade.taken, Cascade.arms, List.forall_mem_cons]
      rw [← ih]
      constructor
      · intro h
        have hcondition : condition ≠ "" := by
          intro hempty
          have hfirst := h fun _ => false
          simp [hempty, eq_comm (a := some 0)] at hfirst
        refine ⟨hcondition, fun truth => ?_⟩
        -- The further conditions count where the first one does not hold.
        have hlater := h fun place => place.casesOn false truth
        simpa [hcondition, Option.map_inj_right] using hlater
      · rintro ⟨hcondition, hfurther⟩ truth
        simp [hcondition, hfurther]

-- Without a text the first condition guards nothing, so the dispatch never comes to the
-- alternative.
example : firstMatch 2 (fun _ => false) (Cascade.either "" "a" "b").clauses = some 0 ∧
    (Cascade.either "" "a" "b").taken (fun _ => false) = some 1 := by
  decide

/-! ## One traversal, two layouts -/

variable (ctx : Context)

/-- A statement is a chain of branches with these conditions and bodies, and no further branch of it
has a when directive of its own. -/
inductive Chained : Stmt → Cascade Expr (List Stmt) → Prop
  | only (line : Nat) (test : Expr) (body : List Stmt) :
      Chained (.branch line test body []) (.only test body)
  | either (line : Nat) (test : Expr) (body : List Stmt) {orelse : List Stmt} :
      orelse ≠ [] → isSingleBranch orelse = false →
      Chained (.branch line test body orelse) (.either test body orelse)
  | next (line : Nat) (test : Expr) (body : List Stmt) {further : Stmt}
      {chain : Cascade Expr (List Stmt)} :
      whenSubject? ctx further.line = none → Chained further chain →
      Chained (.branch line test body [further]) (.next test body chain)

/-- Lower the conditions and the bodies of a chain, each condition before its body. -/
def lowerCascade : Cascade Expr (List Stmt) → Lowering (Cascade String String)
  | .only test body => do
    let condition ← lower ctx test
    let body ← blockText (lowerLines ctx body)
    return .only condition body
  | .either test body orelse => do
    let condition ← lower ctx test
    let body ← blockText (lowerLines ctx body)
    let orelse ← blockText (lowerLines ctx orelse)
    return .either condition body orelse
  | .next test body further => do
    let condition ← lower ctx test
    let body ← blockText (lowerLines ctx body)
    let further ← lowerCascade further
    return .next condition body further

/-- Lowering a chain part by part leaves the aliases. -/
theorem steady_lowerCascade (chain : Cascade Expr (List Stmt)) :
    Steady (lowerCascade ctx chain) := by
  have hblock (body : List Stmt) : Steady (blockText (lowerLines ctx body)) :=
    steady_blockText (composed_lowerLines ctx body)
  have hpure (cascade : Cascade String String) : Steady (pure cascade) :=
    (Composed.pure cascade).steady
  induction chain with
  | only test body =>
      exact (steady_lower ctx test).bind fun _ => (hblock body).bind fun _ => hpure _
  | either test body orelse =>
      exact (steady_lower ctx test).bind fun _ => (hblock body).bind fun _ =>
        (hblock orelse).bind fun _ => hpure _
  | next test body further ih =>
      exact (steady_lower ctx test).bind fun _ => (hblock body).bind fun _ =>
        ih.bind fun _ => hpure _

variable {ctx}

/-- A further branch is a branch. -/
theorem Chained.isSingleBranch {further : Stmt} {chain : Cascade Expr (List Stmt)}
    (h : Chained ctx further chain) : isSingleBranch [further] = true := by
  cases h <;> rfl

/-- A chain goes on in a further branch whose line dispatches on nothing. -/
theorem Chained.continuesChain {further : Stmt} {chain : Cascade Expr (List Stmt)}
    (h : Chained ctx further chain) (hwhen : whenSubject? ctx further.line = none) :
    continuesChain ctx [further] = true := by
  cases h <;> simpa [Lowering.continuesChain, Stmt.line] using hwhen

/-- The text of a chain of branches is the layout of what the traversal gives. A warning is reported
where there is no last alternative. -/
theorem Chained.lowerBranch_eq {statement : Stmt} {chain : Cascade Expr (List Stmt)}
    (h : Chained ctx statement chain) :
    ∃ warning : Option String, lowerBranch ctx none statement = do
      let cascade ← lowerCascade ctx chain
      warning.forM (warn .statements)
      return cascade.text ctx := by
  induction h with
  | only line test body =>
      refine ⟨some ("if without else at line " ++ toString line), ?_⟩
      simp [lowerBranch, branchText, lowerCascade, Cascade.text]
  | @either line test body orelse hne hsingle =>
      refine ⟨none, ?_⟩
      have hchain : Lowering.continuesChain ctx orelse = false := by
        unfold Lowering.continuesChain
        split
        · simp [Lowering.isSingleBranch] at hsingle
        · rfl
      simp [lowerBranch, branchText, lowerCascade, Cascade.text, hne, hchain]
  | next line test body hwhen hfurther ih =>
      obtain ⟨warning, hlater⟩ := ih
      refine ⟨warning, ?_⟩
      simp [lowerBranch, branchText, lowerCascade, Cascade.text, hfurther.continuesChain hwhen,
        lowerFirst, hlater]

/-- The clauses of a dispatched chain are the other layout. -/
theorem Chained.branchClauses_eq {statement : Stmt} {chain : Cascade Expr (List Stmt)}
    (h : Chained ctx statement chain) :
    branchClauses ctx statement = Cascade.clauses <$> lowerCascade ctx chain := by
  induction h with
  | only line test body =>
      simp [branchClauses, chainClauses, lowerCascade, Cascade.clauses, Cascade.arms,
        Cascade.orelse?, Lowering.isSingleBranch]
  | either line test body hne hsingle =>
      simp [branchClauses, chainClauses, lowerCascade, Cascade.clauses, Cascade.arms,
        Cascade.orelse?, hne, hsingle]
  | next line test body hwhen hfurther ih =>
      simp [branchClauses, chainClauses, lowerCascade, hfurther.isSingleBranch, firstClauses, ih,
        Cascade.clauses, Cascade.arms, Cascade.orelse?]

/-- A chain whose line has a when directive is dispatched: first what it dispatches on, then its
clauses. -/
theorem Chained.lowerText_eq {line : Nat} {test : Expr} {body orelse : List Stmt}
    {chain : Cascade Expr (List Stmt)} {subject : String} (pipe : Option String)
    (h : Chained ctx (.branch line test body orelse) chain)
    (hwhen : whenSubject? ctx line = some subject) :
    lowerText ctx pipe (.branch line test body orelse) = (do
      let subject ← subjectText ctx subject
      let cascade ← lowerCascade ctx chain
      whenText ctx subject cascade.clauses) := by
  have hclauses := h.branchClauses_eq
  rw [branchClauses] at hclauses
  simp only [lowerText, hwhen, hclauses, bind_map_left]

variable (ctx) in
/-- What lowering gives for the conditions and the bodies of a chain, from every state alike. -/
def Given (base : LoweringState) : Cascade Expr (List Stmt) → Cascade String String → Prop :=
  Cascade.Corresponds (fun test text => Gives base (lower ctx test) text)
    (fun body text => Gives base (blockText (lowerLines ctx body)) text)

/-- Conditions and bodies that were lowered are what the chain gives. -/
theorem given_of_yields {base before after : LoweringState} {chain : Cascade Expr (List Stmt)}
    {cascade : Cascade String String} (halike : Alike base before)
    (h : Yields (lowerCascade ctx chain) before cascade after) : Given ctx base chain cascade := by
  have hblock (body : List Stmt) : Steady (blockText (lowerLines ctx body)) :=
    steady_blockText (composed_lowerLines ctx body)
  induction chain generalizing before after cascade with
  | only test body =>
      obtain ⟨_, _, htest, h⟩ := yields_bind.mp h
      obtain ⟨_, _, hbody, h⟩ := yields_bind.mp h
      obtain ⟨rfl, -⟩ := yields_pure.mp h
      obtain ⟨hcondition, halike⟩ := (steady_lower ctx test).gives_next halike htest
      exact .only hcondition ((hblock body).gives_next halike hbody).1
  | either test body orelse =>
      obtain ⟨_, _, htest, h⟩ := yields_bind.mp h
      obtain ⟨_, _, hbody, h⟩ := yields_bind.mp h
      obtain ⟨_, _, horelse, h⟩ := yields_bind.mp h
      obtain ⟨rfl, -⟩ := yields_pure.mp h
      obtain ⟨hcondition, halike⟩ := (steady_lower ctx test).gives_next halike htest
      obtain ⟨hbody, halike⟩ := (hblock body).gives_next halike hbody
      exact .either hcondition hbody ((hblock orelse).gives_next halike horelse).1
  | next test body further ih =>
      obtain ⟨_, _, htest, h⟩ := yields_bind.mp h
      obtain ⟨_, _, hbody, h⟩ := yields_bind.mp h
      obtain ⟨_, _, hfurther, h⟩ := yields_bind.mp h
      obtain ⟨rfl, -⟩ := yields_pure.mp h
      obtain ⟨hcondition, halike⟩ := (steady_lower ctx test).gives_next halike htest
      obtain ⟨hbody, halike⟩ := (hblock body).gives_next halike hbody
      exact .next hcondition hbody (ih halike hfurther)

/-- Once the subject of a dispatched chain has its text, the dispatch and the branches fail in the
same way, or both are layouts of the same conditions and bodies: the texts that lowering gives for
those of the source, one by one and in order. The dispatch that is recorded has a clause for each
condition, guarded by it, and one without a guard for the last alternative, if there is one. Clauses
and branches select the same under all truth values of the conditions exactly if no condition is
without a text. -/
theorem dispatch_agrees_with_branches (pipe : Option String) {line : Nat} {test : Expr}
    {body orelse : List Stmt} {chain : Cascade Expr (List Stmt)} {subject scrutinee : String}
    {before between : LoweringState} (hchain : Chained ctx (.branch line test body orelse) chain)
    (hwhen : whenSubject? ctx line = some subject)
    (hsubject : Yields (subjectText ctx subject) before scrutinee between) :
    (∃ failure,
      (outcome (lowerBranch ctx none (.branch line test body orelse)) before).1 = .error failure ∧
      (outcome (lowerText ctx pipe (.branch line test body orelse)) before).1 = .error failure) ∨
    ∃ cascade, Given ctx before chain cascade ∧
      (∃ after, Yields (lowerBranch ctx none (.branch line test body orelse)) before
        (cascade.text ctx) after) ∧
      (∃ after, Yields (lowerText ctx pipe (.branch line test body orelse)) before
          (WhenExpression.render ctx.options.indent ⟨scrutinee, cascade.clauses⟩) after ∧
        after.records.whens.getLast? = some ⟨scrutinee, cascade.clauses⟩) ∧
      ((∀ truth, firstMatch ctx.options.indent truth cascade.clauses = cascade.taken truth) ↔
        ∀ arm ∈ cascade.arms, arm.1 ≠ "") := by
  obtain ⟨warning, hbranches⟩ := hchain.lowerBranch_eq
  obtain ⟨-, hbetween⟩ := (steady_subjectText ctx subject).gives_next (.refl before) hsubject
  obtain ⟨result, _, first, second, hfirst, hsecond, -⟩ :=
    steady_lowerCascade ctx chain before between hbetween
  rw [hbranches, hchain.lowerText_eq pipe hwhen]
  cases result with
  | error failure =>
      refine .inl ⟨failure, ?_, ?_⟩
      · rw [outcome_bind, hfirst]
      · rw [outcome_bind, hsubject]
        simp only [outcome_bind, hsecond]
  | ok cascade =>
      refine .inr ⟨cascade, given_of_yields (.refl before) hfirst, ?_, ?_,
        firstMatch_clauses_iff _ cascade⟩
      · cases warning with
        | none => exact ⟨first, .bind hfirst .pure⟩
        | some warning => exact ⟨_, .bind hfirst (.bind (yields_modify.mpr rfl) .pure)⟩
      · obtain ⟨text, after, hdispatch⟩ :=
          exists_yields_whenText ctx scrutinee cascade.clauses second
        obtain ⟨rfl, hwhens⟩ := yields_whenText ctx hdispatch
        exact ⟨after, .bind hsubject (.bind hsecond hdispatch), by simp [hwhens]⟩

/-- A chain of two conditions and an alternative. -/
def grading : Stmt :=
  .branch 2 (.name "low") [.simple 3 (.returns (some (.name "a")))]
    [.branch 4 (.compare (.name "n") [.mk .gt (.name "k")])
      [.simple 5 (.returns (some (.name "b")))] [.simple 7 (.returns (some (.name "c")))]]

/-- A when directive above the chain. -/
def grades : Context :=
  { directives := [(2, [⟨.when, "n", 1⟩])] }

/-- The chain is `if low { a } else if n > k { b } else { c }`, and the dispatch
`when n { _ if low => a, _ if n > k => b, _ => c, }`. -/
theorem dispatch_agrees_with_branches_grading :
    whenSubject? grades 2 = some "n" ∧
      (∃ between, Yields (subjectText grades "n") {} "n" between) ∧
      ∃ chain, Chained grades grading chain ∧ ∃ cascade, Given grades {} chain cascade ∧
        cascade.text grades =
          "if low \x7b\n  a\n\x7d else if n > k \x7b\n  b\n\x7d else \x7b\n  c\n\x7d" ∧
        WhenExpression.render 2 ⟨"n", cascade.clauses⟩ =
          "when n \x7b\n  _ if low => a,\n  _ if n > k => b,\n  _ => c,\n\x7d" ∧
        ((∀ truth, firstMatch 2 truth cascade.clauses = cascade.taken truth) ↔
          ∀ arm ∈ cascade.arms, arm.1 ≠ "") := by
  have hchain : Chained grades grading _ := .next 2 _ _ rfl (.either 4 _ _ (by simp) rfl)
  obtain ⟨between, hsubject⟩ : ∃ between, Yields (subjectText grades "n") {} "n" between := ⟨_, rfl⟩
  have hbranches : (outcome (lowerBranch grades none grading) {}).1 = .ok
      "if low \x7b\n  a\n\x7d else if n > k \x7b\n  b\n\x7d else \x7b\n  c\n\x7d" := rfl
  have hdispatch : (outcome (lowerText grades none grading) {}).1 = .ok
      "when n \x7b\n  _ if low => a,\n  _ if n > k => b,\n  _ => c,\n\x7d" := rfl
  refine ⟨rfl, ⟨between, hsubject⟩, _, hchain, ?_⟩
  obtain ⟨failure, hfailure, -⟩ | ⟨cascade, hgiven, ⟨_, htext⟩, ⟨_, hwhen, -⟩, hselect⟩ :=
    dispatch_agrees_with_branches none hchain rfl hsubject
  · cases hbranches.symm.trans hfailure
  · refine ⟨cascade, hgiven, ?_, ?_, hselect⟩
    · exact (Except.ok.inj (hbranches.symm.trans (congrArg Prod.fst htext))).symm
    · exact (Except.ok.inj (hdispatch.symm.trans (congrArg Prod.fst hwhen))).symm

end AikenForge.Dispatch
