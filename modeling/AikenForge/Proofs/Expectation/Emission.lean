/-
# How often an expectation is checked

The checks of a line are emitted once for each time the line is looked up: for each line of a
function's header, and for each statement that is lowered as a whole and starts on the line. A
branch that continues a chain of branches, or that is a further clause of a dispatch, is not lowered
as a whole, so the directives above it are not heard; and two statements that start on one line both
look it up.
-/

import AikenForge.Proofs.Expectation.Layout

namespace AikenForge.Expectation

open AikenForge.Source AikenForge.Text AikenForge.Lowering

variable {ctx : Context}

/-! ## Functions -/

/-- Lines that were looked up, each with its checks. -/
structure Lookups (ctx : Context) (lines : List Nat) (found : List (Nat × List Check)) : Prop where
  lines : found.map Prod.fst = lines
  answers : ∀ entry ∈ found, Answers ctx entry.1 (expectations ctx entry.1) entry.2

/-- The texts of the directives of lines are the lines of the checks of these. -/
def LaidHeader (ctx : Context) (lines : List Nat) (texts bareTexts : List String)
    (checks : List Check) : Prop :=
  ∃ found, Lookups ctx lines found ∧ checks = found.flatMap Prod.snd ∧
    (texts.filter fun text => !text.isEmpty) = checks.map (Check.text ctx) ∧
    (bareTexts.filter fun text => !text.isEmpty) = []

theorem LaidHeader.cons {line : Nat} {lines : List Nat}
    {texts bareTexts furtherTexts bareFurther : List String} {checks further : List Check}
    (h : Writes ctx line (expectations ctx line) texts bareTexts checks)
    (h' : LaidHeader ctx lines furtherTexts bareFurther further) :
    LaidHeader ctx (line :: lines) (texts ++ furtherTexts) (bareTexts ++ bareFurther)
      (checks ++ further) := by
  obtain ⟨found, hfound, rfl, htexts, hbare⟩ := h'
  refine ⟨(line, checks) :: found, ⟨?_, ?_⟩, rfl, ?_, ?_⟩
  · rw [List.map_cons, hfound.lines]
  · intro entry hmem
    obtain rfl | hmem := List.mem_cons.mp hmem
    · exact h.answers
    · exact hfound.answers entry hmem
  · rw [List.filter_append, h.texts, htexts, List.map_append]
  · rw [List.filter_append, h.bare, hbare, List.append_nil]

/-- Each line of a header is looked up, and only its expect directives are heard. -/
theorem follows_headerLines (name : String) (lines : List Nat) :
    Follows (headerLines ctx name (lines.flatMap ctx.directives.onLine))
      (headerLines (withoutExpects ctx) name (lines.flatMap (withoutExpects ctx).directives.onLine))
      fun texts bareTexts checks => ∃ found, Lookups ctx lines found ∧
        checks = found.flatMap Prod.snd ∧ texts = checks.map (Check.text ctx) ∧ bareTexts = [] := by
  unfold headerLines
  refine @Follows.bind_pure _ _ (LaidHeader ctx lines) _ _ _ _ _ ?_ fun _ _ _ hheader => hheader
  induction lines with
  | nil => exact follows_pure ⟨[], ⟨rfl, by simp⟩, rfl, rfl, rfl⟩
  | cons line lines ih =>
      rw [List.flatMap_cons, List.flatMap_cons, List.mapM_append, List.mapM_append,
        onLine_withoutExpects]
      refine (follows_mapM_directives ctx line _ ?_ ?_).bind
        fun texts bareTexts checks _ hwrites => ?_
      · intro directive _ hkind
        rw [if_pos hkind]
        exact follows_expectDirective ctx line hkind
      · intro directive _ hkind
        rw [if_neg hkind, if_neg hkind, expectation?, if_neg hkind]
        exact (follows_of_composed (composed_warn _ _)).same_bind fun _ =>
          follows_pure (writes_empty ctx line)
      · refine ih.bind_pure fun others bareOthers further hothers => ?_
        exact hothers.cons hwrites

/-- What a run of a function's body emits, beside what a run without expect directives emits: the
checks of the header above the body, the checks of statements inserted in it, and the records of all
these checks among those of the run. -/
structure Emission (ctx : Context) (f : FunctionSource) (before : LoweringState) (text : String)
    (after : LoweringState) where
  header : List (Nat × List Check)
  visits : List Visit
  body : String
  -- What the run without expect directives gives.
  bare : String
  bareAfter : LoweringState
  added : List ExpectExpression
  bareAdded : List ExpectExpression
  runs : Yields (functionText (withoutExpects ctx) f) before bare bareAfter
  headed : Lookups ctx f.headLines header
  above : text = stack (joinLines ((header.flatMap Prod.snd).map (Check.text ctx))) body
  inserted : Inserted ctx visits body bare
  reached : visits.map Visit.statement = whole (reached ctx .whole (withoutDocumentation f.body))
  adds : Adds before after added
  bareAdds : Adds before bareAfter bareAdded
  records : added.Perm
    (bareAdded ++ (header.flatMap Prod.snd ++ visits.flatMap Visit.checks).flatMap Check.records)

/-- All checks that are emitted. -/
def Emission.checks {f : FunctionSource} {before after : LoweringState} {text : String}
    (emission : Emission ctx f before text after) : List Check :=
  emission.header.flatMap Prod.snd ++ emission.visits.flatMap Visit.checks

/-- A function that was lowered has an account of its checks. -/
theorem exists_emission {f : FunctionSource} {before after : LoweringState} {text : String}
    (hrun : Yields (functionText ctx f) before text after) :
    Nonempty (Emission ctx f before text after) := by
  have hfollows : Follows (functionText ctx f) (functionText (withoutExpects ctx) f)
      fun text bare checks => ∃ header visits body, Lookups ctx f.headLines header ∧
        text = stack (joinLines ((header.flatMap Prod.snd).map (Check.text ctx))) body ∧
        Inserted ctx visits body bare ∧
        visits.map Visit.statement = whole (reached ctx .whole (withoutDocumentation f.body)) ∧
        checks.Perm (header.flatMap Prod.snd ++ visits.flatMap Visit.checks) := by
    refine (follows_headerLines f.header.name f.headLines).bind
      fun lines bareLines checks _ hheader => ?_
    obtain ⟨header, hlookups, rfl, rfl, rfl⟩ := hheader
    refine (Follows.map joinLines
      ((follows_lowerLines _).mono fun _ _ _ hlaid => hlaid.laid)).bind_pure
      fun body bareBody further hlaid => ?_
    obtain ⟨visits, hvisits, hreached, hchecks⟩ := hlaid
    refine ⟨header, visits, body, hlookups, ?_, ?_, hreached, ?_⟩
    · exact joinLines_below body (empty_notMem_checks ctx _)
    · rw [joinLines_below bareBody (by simp)]
      exact hvisits
    · exact hchecks.append_left _
  obtain ⟨bare, bareAfter, checks, added, bareAdded, hbare, -, hrelated, hadds, hbareAdds, hperm⟩ :=
    hfollows before before text after (.refl before) hrun
  obtain ⟨header, visits, body, hlookups, habove, hinserted, hreached, hchecks⟩ := hrelated
  exact ⟨{
    header, visits, body, bare, bareAfter, added, bareAdded
    runs := hbare
    headed := hlookups
    above := habove
    inserted := hinserted
    reached := hreached
    adds := hadds
    bareAdds := hbareAdds
    records := hperm.trans ((hchecks.flatMap_right _).append_left _) }⟩

/-! ## Emitted once -/

/-- Every statement that is visited has its checks. -/
theorem Inserted.answers {visits : List Visit} {text bare : String}
    (h : Inserted ctx visits text bare) : ∀ visit ∈ visits,
      Answers ctx visit.statement.line (expectations ctx visit.statement.line)
        visit.checks := by
  induction h with
  | same => simp
  | append _ _ ih ih' | stacked _ _ ih ih' =>
      intro visit hmem
      exact (List.mem_append.mp hmem).elim (ih visit) (ih' visit)
  | indented _ _ ih | clause _ _ _ _ ih => exact ih
  | statement hanswers _ _ ih =>
      intro visit hmem
      obtain rfl | hmem := List.mem_cons.mp hmem
      · exact hanswers
      · exact ih visit hmem

/-- A visit is a lookup of the line on which its statement starts. -/
def Visit.lookup (visit : Visit) : Nat × List Check :=
  (visit.statement.line, visit.checks)

/-- The checks for a line are those that it asks for, as often as it was looked up. -/
theorem Lookups.sources_filter {lines : List Nat} {found : List (Nat × List Check)}
    (h : Lookups ctx lines found) (line : Nat) :
    ((found.flatMap Prod.snd).filter fun check => check.line == line).map Check.source =
      (List.replicate (lines.count line) (expectations ctx line)).flatten := by
  obtain ⟨rfl, hanswers⟩ := h
  induction found with
  | nil => rfl
  | cons entry found ih =>
      have hentry := hanswers entry List.mem_cons_self
      specialize ih fun other hmem => hanswers other (List.mem_cons_of_mem _ hmem)
      rw [List.flatMap_cons, List.filter_append, List.map_append, ih, List.map_cons,
        List.count_cons]
      by_cases hline : entry.1 = line
      · have hall : (entry.2.filter fun check => check.line == line) = entry.2 := by
          rw [List.filter_eq_self]
          intro check hmem
          simp [hentry.lines check hmem, hline]
        rw [hall, hentry.sources, hline]
        simp [List.replicate_succ]
      · have hnone : (entry.2.filter fun check => check.line == line) = [] := by
          rw [List.filter_eq_nil_iff]
          intro check hmem
          simp [hentry.lines check hmem, hline]
        simp [hnone, hline]

/-- Repeating something that is not empty gives the same only if it is done once. -/
theorem flatten_replicate_eq_iff {α : Type} {items : List α} (h : items ≠ []) (count : Nat) :
    (List.replicate count items).flatten = items ↔ count = 1 := by
  constructor
  · intro heq
    have hlength := congrArg List.length heq
    have hpos : 0 < items.length := List.length_pos_iff.mpr h
    rw [List.length_flatten, List.map_replicate, List.sum_replicate_nat] at hlength
    exact Nat.eq_of_mul_eq_mul_right hpos (hlength.trans (Nat.one_mul _).symm)
  · rintro rfl
    simp

/-- A body of a function, at any depth, consists of statements that are reached in one way each. A
run emits the checks of the header above the body and those of the statements that are lowered as a
whole inside it, and each check that is emitted is recorded. The readable expect directives of a
line are emitted once each, in order, exactly if the line is looked up once: if it is one line of
the header, or if one statement that is lowered as a whole starts on it. -/
theorem expectations_emitted_once_iff (ctx : Context) (f : FunctionSource)
    (before after : LoweringState) (text : String)
    (hrun : Yields (functionText ctx f) before text after) :
    (reached ctx .whole (withoutDocumentation f.body)).map Prod.fst =
      nestedAll (withoutDocumentation f.body) ∧
    ∃ emission : Emission ctx f before text after,
      ∀ line, expectations ctx line ≠ [] →
        ((emission.checks.filter fun check => check.line == line).map Check.source =
            expectations ctx line ↔
          f.headLines.count line +
            ((whole (reached ctx .whole (withoutDocumentation f.body))).map Stmt.line).count line =
            1) := by
  obtain ⟨emission⟩ := exists_emission hrun
  refine ⟨map_fst_reached ctx .whole _, emission, fun line hline => ?_⟩
  have hvisits : Lookups ctx (emission.visits.map fun visit => visit.statement.line)
      (emission.visits.map Visit.lookup) := by
    refine ⟨by simp [Visit.lookup], ?_⟩
    intro entry hmem
    obtain ⟨visit, hvisit, rfl⟩ := List.mem_map.mp hmem
    exact emission.inserted.answers visit hvisit
  have hlines : (emission.visits.map fun visit => visit.statement.line) =
      (whole (reached ctx .whole (withoutDocumentation f.body))).map Stmt.line := by
    rw [← emission.reached, List.map_map]
    rfl
  have hchecks : emission.visits.flatMap Visit.checks =
      (emission.visits.map Visit.lookup).flatMap Prod.snd := by
    rw [List.flatMap_map]
    rfl
  rw [Emission.checks, List.filter_append, List.map_append, emission.headed.sources_filter, hchecks,
    hvisits.sources_filter, hlines, ← List.flatten_append, List.replicate_append_replicate]
  exact flatten_replicate_eq_iff hline _

/-- A function without parameters and decorators on its first line. -/
def plainFunction (body : List Stmt) : FunctionSource :=
  ⟨1, ⟨"f", false, .empty, none, [], 9⟩, body⟩

/-- Two directives, above the first line and above the third. -/
def twoExpects : Context :=
  { directives := [(1, [⟨.expect, "a", 0⟩]), (3, [⟨.expect, "b", 2⟩])] }

/-- A guard on the third line and the rest after it. -/
def guardedBody : List Stmt :=
  [.branch 3 (.name "c") [.simple 4 (.returns (some (.name "x")))] [],
    .simple 5 (.returns (some (.name "y")))]

/-- A directive above a function and one above a guard in it are emitted once. -/
theorem expectations_emitted_once_iff_guard :
    ∃ text after, Yields (functionText twoExpects (plainFunction guardedBody)) {} text after ∧
      ∃ emission : Emission twoExpects (plainFunction guardedBody) {} text after,
        (emission.checks.filter fun check => check.line == 1).map Check.source = [.name "a"] ∧
        (emission.checks.filter fun check => check.line == 3).map Check.source = [.name "b"] := by
  obtain ⟨text, after, hrun⟩ : ∃ text after,
      Yields (functionText twoExpects (plainFunction guardedBody)) {} text after :=
    ⟨_, _, rfl⟩
  obtain ⟨-, emission, honce⟩ :=
    expectations_emitted_once_iff twoExpects (plainFunction guardedBody) {} after text hrun
  have hfirst : expectations twoExpects 1 = [.name "a"] := rfl
  have hthird : expectations twoExpects 3 = [.name "b"] := rfl
  refine ⟨text, after, hrun, emission, ?_, ?_⟩
  · rw [← hfirst]
    exact (honce 1 (by simp [hfirst])).mpr rfl
  · rw [← hthird]
    exact (honce 3 (by simp [hthird])).mpr rfl

/-- A directive above a further branch of a chain can be read, but it is not recorded and not
emitted: the text is `if a { x } else if b { y } else { z }`. -/
theorem functionText_further_branch_drops_expectation :
    expectations { directives := [(5, [⟨.expect, "c", 4⟩])] } 5 = [.name "c"] ∧
      ∃ after, Yields (functionText { directives := [(5, [⟨.expect, "c", 4⟩])] }
        (plainFunction [.branch 2 (.name "a") [.simple 3 (.returns (some (.name "x")))]
          [.branch 5 (.name "b") [.simple 6 (.returns (some (.name "y")))]
            [.simple 8 (.returns (some (.name "z")))]]])) {}
        "if a \x7b\n  x\n\x7d else if b \x7b\n  y\n\x7d else \x7b\n  z\n\x7d" after ∧
        after.records.expects = [] :=
  ⟨rfl, _, rfl, rfl⟩

-- Two statements on one line both look it up, so the check is emitted twice.
example : ∃ after, Yields (functionText { directives := [(3, [⟨.expect, "c", 2⟩])] }
    (plainFunction [.simple 3 (.assigns [.name "x"] (.name "a")),
      .simple 3 (.returns (some (.name "x")))])) {}
    ("expect(c, \"Expected value but found None\")\nlet x = a\n" ++
      "expect(c, \"Expected value but found None\")\nx") after :=
  ⟨_, rfl⟩

end AikenForge.Expectation
