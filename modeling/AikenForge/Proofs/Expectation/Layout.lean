/-
# Statements with their checks

Each form of statement is lowered to a text in which the checks of the statements inside it stand
where they belong. The forms are taken one at a time, and the recursion of lowering puts them
together: the checks of a block are those of the statements in it that are lowered as a whole.
-/

import AikenForge.Proofs.Expectation.Comparison
import AikenForge.Proofs.Expectation.Reached

namespace AikenForge.Expectation

open AikenForge.Source AikenForge.Text AikenForge.Lowering

variable {ctx : Context}

/-! ## Texts with the checks of their statements -/

/-- A text with the checks of these statements inserted, and no other checks. -/
def Laid (ctx : Context) (statements : List Stmt) (text bare : String)
    (checks : List Check) : Prop :=
  ∃ visits, Inserted ctx visits text bare ∧ visits.map Visit.statement = statements ∧
    checks.Perm (visits.flatMap Visit.checks)

/-- A text without checks is the same on both sides. -/
theorem Laid.of_same {text bare : String} {checks : List Check} (h : Same text bare checks) :
    Laid ctx [] text bare checks := by
  obtain ⟨rfl, rfl⟩ := h
  exact ⟨[], .same text, rfl, .refl _⟩

/-- Two texts put together in one of the ways in which checks stay where they are. -/
theorem Laid.combine {first second : List Stmt} {left bareLeft right bareRight : String}
    {text bare : String} {checks further : List Check} (h : Laid ctx first left bareLeft checks)
    (h' : Laid ctx second right bareRight further)
    (hjoin : ∀ visits others, Inserted ctx visits left bareLeft →
      Inserted ctx others right bareRight →
      Inserted ctx (visits ++ others) text bare) :
    Laid ctx (first ++ second) text bare (checks ++ further) := by
  obtain ⟨visits, hvisits, hfirst, hchecks⟩ := h
  obtain ⟨others, hothers, hsecond, hfurther⟩ := h'
  refine ⟨visits ++ others, hjoin visits others hvisits hothers, ?_, ?_⟩
  · rw [List.map_append, hfirst, hsecond]
  · rw [List.flatMap_append]
    exact hchecks.append hfurther

/-- A text changed in one of the ways in which checks stay where they are. -/
theorem Laid.change {statements : List Stmt} {text bare text' bare' : String} {checks : List Check}
    (h : Laid ctx statements text bare checks)
    (hchange : ∀ visits, Inserted ctx visits text bare → Inserted ctx visits text' bare') :
    Laid ctx statements text' bare' checks := by
  obtain ⟨visits, hvisits, hrest⟩ := h
  exact ⟨visits, hchange visits hvisits, hrest⟩

/-- The order in which checks are counted does not matter. -/
theorem Laid.perm {statements : List Stmt} {text bare : String} {checks checks' : List Check}
    (h : Laid ctx statements text bare checks) (hperm : checks'.Perm checks) :
    Laid ctx statements text bare checks' := by
  obtain ⟨visits, hvisits, hstatements, hchecks⟩ := h
  exact ⟨visits, hvisits, hstatements, hperm.trans hchecks⟩

/-- A statement with its checks above its own text. -/
theorem Laid.statement {statement : Stmt} {statements : List Stmt} {own bareOwn : String}
    {checks further : List Check} (h : Laid ctx statements own bareOwn checks)
    (hown : OwnText (withoutExpects ctx) statement bareOwn)
    (hanswers : Answers ctx statement.line (expectations ctx statement.line) further) :
    Laid ctx (statement :: statements)
      (stack (joinLines (further.map (Check.text ctx))) own) bareOwn (checks ++ further) := by
  obtain ⟨visits, hvisits, hstatements, hchecks⟩ := h
  refine ⟨⟨statement, further⟩ :: visits, .statement hanswers hown hvisits,
    by simp [hstatements], ?_⟩
  rw [List.flatMap_cons]
  exact List.perm_append_comm.trans (hchecks.append_left further)

/-- Lines that are not empty, with checks inserted. -/
structure LaidLines (ctx : Context) (statements : List Stmt) (lines bareLines : List String)
    (checks : List Check) : Prop where
  laid : Laid ctx statements (joinLines lines) (joinLines bareLines) checks
  lines : "" ∉ lines
  bareLines : "" ∉ bareLines

/-- A text above lines, without a line of its own if it is empty. -/
theorem joinLines_above {lines : List String} (text : String) (h : "" ∉ lines) :
    joinLines (if text.isEmpty then lines else text :: lines) = stack text (joinLines lines) := by
  by_cases hempty : text = ""
  · simp [hempty]
  · rw [if_neg (by simpa using hempty), joinLines_cons hempty h]

theorem empty_notMem_above {lines : List String} (text : String) (h : "" ∉ lines) :
    "" ∉ if text.isEmpty then lines else text :: lines := by
  by_cases hempty : text = ""
  · simpa [hempty] using h
  · rw [if_neg (by simpa using hempty)]
    simp [h, Ne.symm hempty]

/-- A text below lines, without a line of its own if it is empty. -/
theorem joinLines_below {lines : List String} (text : String) (h : "" ∉ lines) :
    joinLines (if text.isEmpty then lines else lines ++ [text]) = stack (joinLines lines) text := by
  by_cases hempty : text = ""
  · simp [hempty]
  · rw [if_neg (by simpa using hempty), joinLines_append h (by simpa using Ne.symm hempty)]
    simp [joinLines]

/-- A text above lines, unless it is empty. -/
theorem LaidLines.cons {first second : List Stmt} {text bare : String}
    {lines bareLines : List String}
    {checks further : List Check} (h' : LaidLines ctx second lines bareLines further)
    (h : Laid ctx first text bare checks) :
    LaidLines ctx (first ++ second) (if text.isEmpty then lines else text :: lines)
      (if bare.isEmpty then bareLines else bare :: bareLines) (checks ++ further) := by
  refine ⟨?_, empty_notMem_above text h'.lines, empty_notMem_above bare h'.bareLines⟩
  rw [joinLines_above text h'.lines, joinLines_above bare h'.bareLines]
  exact h.combine h'.laid fun visits others hvisits hothers => hvisits.stacked hothers

/-- Texts with checks inserted, where empty ones do not count. -/
def LaidTexts (ctx : Context) (statements : List Stmt) (texts bareTexts : List String)
    (checks : List Check) : Prop :=
  Laid ctx statements (joinLines (texts.filter fun text => !text.isEmpty))
    (joinLines (bareTexts.filter fun text => !text.isEmpty)) checks

/-- Clauses with checks inserted in their bodies. -/
def LaidClauses (ctx : Context) (statements : List Stmt) (clauses bareClauses : List WhenClause)
    (checks : List Check) : Prop :=
  ∃ visits, InsertedClauses ctx visits clauses bareClauses ∧
    visits.map Visit.statement = statements ∧ checks.Perm (visits.flatMap Visit.checks)

/-- A clause is empty on one side only if its body is there as well. -/
theorem LaidClauses.cons {first second : List Stmt} {text bare : String}
    {clauses bareClauses : List WhenClause} {checks further : List Check} (pattern : ClausePattern)
    (guard : Option String) (h : Laid ctx first text bare checks)
    (h' : LaidClauses ctx second clauses bareClauses further) :
    LaidClauses ctx (first ++ second) (⟨pattern, text, guard⟩ :: clauses)
      (⟨pattern, bare, guard⟩ :: bareClauses) (checks ++ further) := by
  obtain ⟨visits, hvisits, hfirst, hchecks⟩ := h
  obtain ⟨others, hothers, hsecond, hfurther⟩ := h'
  refine ⟨visits ++ others, .cons pattern guard hvisits hothers, ?_, ?_⟩
  · rw [List.map_append, hfirst, hsecond]
  · rw [List.flatMap_append]
    exact hchecks.append hfurther

theorem laidClauses_nil : LaidClauses ctx [] [] [] [] :=
  ⟨[], .nil, rfl, .refl _⟩

/-- The texts of one part and of another. -/
theorem LaidTexts.append {first second : List Stmt}
    {texts bareTexts furtherTexts bareFurther : List String}
    {checks further : List Check} (h : LaidTexts ctx first texts bareTexts checks)
    (h' : LaidTexts ctx second furtherTexts bareFurther further) :
    LaidTexts ctx (first ++ second) (texts ++ furtherTexts) (bareTexts ++ bareFurther)
      (checks ++ further) := by
  refine h.combine h' fun visits others hvisits hothers => ?_
  rw [List.filter_append, List.filter_append,
    joinLines_append (empty_notMem_filter _) (empty_notMem_filter _),
    joinLines_append (empty_notMem_filter _) (empty_notMem_filter _)]
  exact hvisits.stacked hothers

theorem laidTexts_singleton {statements : List Stmt} {text bare : String} {checks : List Check}
    (h : Laid ctx statements text bare checks) : LaidTexts ctx statements [text] [bare] checks := by
  unfold LaidTexts
  rw [joinLines_filter_singleton, joinLines_filter_singleton]
  exact h

/-! ## The forms of statements -/

/-- The lines of checks above a text. -/
theorem joinLines_checks (checks : List Check) (text : String) :
    joinLines ((checks.map (Check.text ctx) ++ [text]).filter fun line => !line.isEmpty) =
      stack (joinLines (checks.map (Check.text ctx))) text := by
  have hchecks : ((checks.map (Check.text ctx)).filter fun line => !line.isEmpty) =
      checks.map (Check.text ctx) := by
    rw [List.filter_eq_self]
    intro line hmem
    obtain ⟨check, -, rfl⟩ := List.mem_map.mp hmem
    simp [check.text_ne ctx]
  rw [List.filter_append, hchecks,
    joinLines_append (empty_notMem_checks ctx checks) (empty_notMem_filter _),
    joinLines_filter_singleton]

/-- A whole statement looks its line up once, and the checks stand above its own text. -/
theorem follows_around {statement : Stmt} {text bareText : Option String → Lowering String}
    {statements : List Stmt}
    (h : ∀ pipe, Follows (text pipe) (bareText pipe) (Laid ctx statements))
    (hown : ∀ pipe own, Reaches (bareText pipe) own → OwnText (withoutExpects ctx) statement own) :
    Follows (around ctx statement text) (around (withoutExpects ctx) statement bareText)
      (Laid ctx (statement :: statements)) := by
  unfold around
  rw [pipeLine?_withoutExpects]
  refine (follows_of_composed (composed_pipeLine? ctx _)).same_bind fun pipe => ?_
  refine (follows_of_composed (.dropAliases _)).same_bind fun _ => ?_
  refine (h pipe).bind fun own bareOwn checks hreaches hlaid => ?_
  refine (follows_expectLines ctx statement.line).bind_pure fun lines bareLines further hlines => ?_
  obtain ⟨hanswers, rfl, rfl⟩ := hlines
  rw [joinLines_checks, List.nil_append, joinLines_filter_singleton]
  exact hlaid.statement (hown pipe bareOwn hreaches) hanswers

/-- Lines are joined to the text of a block. -/
theorem follows_blockText {lines bareLines : Lowering (List String)} {statements : List Stmt}
    (h : Follows lines bareLines (LaidLines ctx statements)) :
    Follows (blockText lines) (blockText bareLines) (Laid ctx statements) :=
  (Follows.map joinLines (h.mono fun _ _ _ hlaid => hlaid.laid)).inBlock

/-- A branch has the checks of its body and then those of its alternative. -/
theorem follows_branchText (line : Nat) (test : Expr) {statements inside others : List Stmt}
    {body bareBody lines bareLines : Lowering (List String)} {chain bareChain : Lowering String}
    (hbody : Follows body bareBody (LaidLines ctx inside))
    (hchain : continuesChain ctx statements = true → Follows chain bareChain (Laid ctx others))
    (hlines : continuesChain ctx statements = false →
      Follows lines bareLines (LaidLines ctx others))
    (hempty : statements = [] → others = []) :
    Follows (branchText ctx line test body ⟨statements, chain, lines⟩)
      (branchText (withoutExpects ctx) line test bareBody ⟨statements, bareChain, bareLines⟩)
      fun text bare checks => Laid ctx (inside ++ others) text bare checks ∧ text ≠ "" ∧
      bare ≠ "" := by
  unfold branchText
  rw [lower_withoutExpects, continuesChain_withoutExpects]
  refine (follows_of_composed (composed_lower ctx test)).same_bind fun condition => ?_
  refine (follows_blockText hbody).bind fun block bareBlock checks _ hblock => ?_
  have hhead : Laid ctx inside ("if " ++ condition ++ " " ++ braced ctx block)
      ("if " ++ condition ++ " " ++ braced ctx bareBlock) checks :=
    hblock.change fun visits hvisits => by
      simpa using hvisits.braced.between ("if " ++ condition ++ " ") ""
  split
  · rename_i hstatements
    rw [hempty (by simpa using hstatements), List.append_nil]
    refine (follows_of_composed (composed_warn _ _)).same_bind fun _ => follows_pure ⟨?_, ?_, ?_⟩
    · rw [List.append_nil]
      exact hhead
    · simp
    · simp
  · split
    · rename_i hcontinues
      refine (hchain hcontinues).bind_pure fun next bareNext further hnext => ⟨?_, ?_, ?_⟩
      · refine hhead.combine hnext fun visits more hvisits hmore => ?_
        have happend := (hvisits.append (.same " else ")).append hmore
        rw [List.append_nil] at happend
        exact happend
      · simp
      · simp
    · rename_i hcontinues
      refine (follows_blockText (hlines (by simpa using hcontinues))).bind_pure
        fun next bareNext further hnext => ⟨?_, ?_, ?_⟩
      · refine hhead.combine hnext fun visits more hvisits hmore => ?_
        have happend := (hvisits.append (.same " else ")).append hmore.braced
        rw [List.append_nil] at happend
        exact happend
      · simp
      · simp

/-- A dispatched branch has the checks of its body and then those of the further clauses. -/
theorem follows_chainClauses (test : Expr) {body bareBody lines bareLines : Lowering (List String)}
    {chain bareChain : Lowering (List WhenClause)} {orelse inside others : List Stmt}
    (hbody : Follows body bareBody (LaidLines ctx inside))
    (hchain : isSingleBranch orelse = true → Follows chain bareChain (LaidClauses ctx others))
    (hlines : isSingleBranch orelse = false → Follows lines bareLines (LaidLines ctx others))
    (hempty : orelse = [] → others = []) :
    Follows (chainClauses ctx test body orelse chain lines)
      (chainClauses (withoutExpects ctx) test bareBody orelse bareChain bareLines)
      (LaidClauses ctx (inside ++ others)) := by
  unfold chainClauses
  rw [lower_withoutExpects]
  refine (follows_of_composed (composed_lower ctx test)).same_bind fun guard => ?_
  refine (follows_blockText hbody).bind fun block bareBlock checks _ hblock => ?_
  split
  · rename_i hsingle
    refine (hchain hsingle).bind_pure fun clauses bareClauses further hclauses => ?_
    exact hclauses.cons .wildcard (some guard) hblock
  · rename_i hsingle
    split
    · rename_i hstatements
      rw [hempty (by simpa using hstatements)]
      exact follows_pure (laidClauses_nil.cons .wildcard (some guard) hblock)
    · refine (follows_blockText (hlines (by simpa using hsingle))).bind_pure
        fun last bareLast further hlast => ?_
      have hclause := laidClauses_nil.cons .wildcard none hlast
      rw [List.append_nil, List.append_nil] at hclause
      exact hclause.cons .wildcard (some guard) hblock

/-- Clauses are put together in a `when`. -/
theorem follows_whenText (expression : String) {clauses bareClauses : List WhenClause}
    {statements : List Stmt} {checks : List Check}
    (h : LaidClauses ctx statements clauses bareClauses checks) :
    Follows (whenText ctx expression clauses) (whenText (withoutExpects ctx) expression bareClauses)
      fun text bare further => Laid ctx statements text bare (checks ++ further) := by
  obtain ⟨visits, hvisits, hstatements, hchecks⟩ := h
  refine (follows_recordWhen _ _).same_bind fun _ => follows_pure ?_
  rw [List.append_nil]
  exact ⟨visits, hvisits.render _ expression, hstatements, hchecks⟩

/-- A case has no checks in its pattern and its guard. -/
theorem follows_caseClause (pattern : Pattern) (guard : Option Expr)
    {body bareBody : Lowering (List String)} {inside : List Stmt}
    (hbody : Follows body bareBody (LaidLines ctx inside)) :
    Follows (caseClause ctx pattern guard body)
      (caseClause (withoutExpects ctx) pattern guard bareBody) fun clause bareClause checks =>
        ∃ target condition text bare, clause = ⟨target, text, condition⟩ ∧
          bareClause = ⟨target, bare, condition⟩ ∧ Laid ctx inside text bare checks := by
  have hguard : Composed .block (guard.mapM (lower ctx)) := by
    cases guard with
    | none => exact .pure none
    | some e => exact (composed_lower ctx e).map some
  unfold caseClause
  rw [lowerPattern_withoutExpects, lower_withoutExpects]
  refine (follows_of_composed (composed_lowerPattern ctx pattern)).same_bind fun target => ?_
  refine (follows_of_composed hguard).same_bind fun condition => ?_
  refine (follows_blockText hbody).bind_pure fun text bare checks hlaid => ?_
  exact ⟨target, condition, text, bare, rfl, rfl, hlaid⟩

/-- Parts of a statement that are lowered one after the other, with the statements in them. -/
inductive LaidParts (ctx : Context) :
    List Stmt → List (Lowering (List String)) → List (Lowering (List String)) → Prop
  | nil : LaidParts ctx [] [] []
  | cons {first second : List Stmt} {part barePart : Lowering (List String)}
      {parts bareParts : List (Lowering (List String))} :
      Follows part barePart (LaidTexts ctx first) → LaidParts ctx second parts bareParts →
      LaidParts ctx (first ++ second) (part :: parts) (barePart :: bareParts)

theorem laidParts_singleton {statements : List Stmt} {part barePart : Lowering (List String)}
    (h : Follows part barePart (LaidTexts ctx statements)) :
    LaidParts ctx statements [part] [barePart] := by
  have hcons := LaidParts.cons h .nil
  rw [List.append_nil] at hcons
  exact hcons

/-- Parts that are lowered one after the other. -/
theorem LaidParts.follows {statements : List Stmt} {parts bareParts : List (Lowering (List String))}
    (h : LaidParts ctx statements parts bareParts) :
    Follows (parts.mapM id) (bareParts.mapM id) fun texts bareTexts checks =>
      LaidTexts ctx statements texts.flatten bareTexts.flatten checks := by
  induction h with
  | nil => exact follows_pure (Laid.of_same ⟨rfl, rfl⟩)
  | cons hpart _ ih =>
      rw [List.mapM_cons, List.mapM_cons]
      refine hpart.bind fun texts bareTexts checks _ htexts => ?_
      refine ih.bind_pure fun others bareOthers further hothers => ?_
      exact htexts.append hothers

/-- A statement of which only the nested statements are lowered has the checks of these. -/
theorem follows_nestedText (statement : Stmt) {statements : List Stmt}
    {parts bareParts : List (Lowering (List String))}
    (h : LaidParts ctx statements parts bareParts) :
    Follows (nestedText statement parts) (nestedText statement bareParts)
      (Laid ctx statements) := by
  refine (follows_of_composed (composed_warn _ _)).same_bind fun _ =>
    (follows_of_composed (.dropAliases _)).same_bind fun _ => ?_
  refine h.follows.bind_pure fun texts bareTexts checks hlaid => ?_
  exact hlaid

/-! ## Branches -/

/-- Lowering a block emits the checks of the statements in it that are lowered as a whole. -/
def BlockFollows (ctx : Context) (statements : List Stmt) : Prop :=
  Follows (lowerLines ctx statements) (lowerLines (withoutExpects ctx) statements)
    (LaidLines ctx (whole (reached ctx .whole statements)))

/-- So does lowering a statement without its directives. -/
def TextFollows (ctx : Context) (statement : Stmt) : Prop :=
  ∀ pipe, Follows (Lowering.lowerText ctx pipe statement)
    (Lowering.lowerText (withoutExpects ctx) pipe statement)
    (Laid ctx (whole (reachedInside ctx .whole statement)))

/-- So does lowering a further branch of a chain. -/
def FurtherFollows (ctx : Context) (statements : List Stmt) : Prop :=
  continuesChain ctx statements = true →
    Follows (lowerFirst ctx statements) (lowerFirst (withoutExpects ctx) statements)
      (Laid ctx (whole (reached ctx .further statements)))

/-- So does lowering the further clauses of a dispatch. -/
def ClausesFollow (ctx : Context) (statements : List Stmt) : Prop :=
  isSingleBranch statements = true →
    Follows (firstClauses ctx statements) (firstClauses (withoutExpects ctx) statements)
      (LaidClauses ctx (whole (reached ctx .clause statements)))

section Branches

variable {line : Nat} {test : Expr} {body orelse : List Stmt} {way : Way}

/-- A branch with an alternative that is walked as a further branch where it continues the chain. -/
theorem follows_branchWith (hbody : BlockFollows ctx body) (hfirst : FurtherFollows ctx orelse)
    (hlines : BlockFollows ctx orelse) :
    Follows
      (branchText ctx line test (lowerLines ctx body)
        ⟨orelse, lowerFirst ctx orelse, lowerLines ctx orelse⟩)
      (branchText (withoutExpects ctx) line test (lowerLines (withoutExpects ctx) body)
        ⟨orelse, lowerFirst (withoutExpects ctx) orelse, lowerLines (withoutExpects ctx) orelse⟩)
      fun text bare checks =>
        Laid ctx (whole (reached ctx .whole body) ++
          whole (reached ctx (if continuesChain ctx orelse then .further else .whole) orelse))
          text bare checks ∧ text ≠ "" ∧ bare ≠ "" := by
  refine follows_branchText line test hbody ?_ ?_ ?_
  · intro hcontinues
    rw [if_pos hcontinues]
    exact hfirst hcontinues
  · intro hcontinues
    simp only [hcontinues, Bool.false_eq_true, if_false]
    exact hlines
  · intro hempty
    rw [hempty]
    rfl

/-- A branch that no when directive dispatches, as a whole or as a further branch. -/
theorem follows_branch (hway : way ≠ .clause) (hsubject : whenSubject? ctx line = none)
    (hbody : BlockFollows ctx body) (hfirst : FurtherFollows ctx orelse)
    (hlines : BlockFollows ctx orelse) :
    Follows
      (branchText ctx line test (lowerLines ctx body)
        ⟨orelse, lowerFirst ctx orelse, lowerLines ctx orelse⟩)
      (branchText (withoutExpects ctx) line test (lowerLines (withoutExpects ctx) body)
        ⟨orelse, lowerFirst (withoutExpects ctx) orelse, lowerLines (withoutExpects ctx) orelse⟩)
      (Laid ctx (whole (reachedInside ctx way (.branch line test body orelse)))) := by
  have halternative : way.alternative ctx line orelse =
      if continuesChain ctx orelse then .further else .whole := by
    simp [Way.alternative, hway, hsubject]
  rw [reachedInside, whole_append, halternative]
  exact (follows_branchWith hbody hfirst hlines).mono fun _ _ _ hlaid => hlaid.1

/-- A branch that is dispatched, by its own directive or as a further clause. -/
theorem follows_clauses (hway : way = .clause ∨ (whenSubject? ctx line).isSome = true)
    (hbody : BlockFollows ctx body) (hfirst : ClausesFollow ctx orelse)
    (hlines : BlockFollows ctx orelse) :
    Follows
      (chainClauses ctx test (lowerLines ctx body) orelse (firstClauses ctx orelse)
        (lowerLines ctx orelse))
      (chainClauses (withoutExpects ctx) test (lowerLines (withoutExpects ctx) body) orelse
        (firstClauses (withoutExpects ctx) orelse) (lowerLines (withoutExpects ctx) orelse))
      (LaidClauses ctx (whole (reachedInside ctx way (.branch line test body orelse)))) := by
  have halternative : way.alternative ctx line orelse =
      if isSingleBranch orelse then .clause else .whole := by
    simp only [Way.alternative, hway, if_true]
  rw [reachedInside, whole_append, halternative]
  refine follows_chainClauses test hbody ?_ ?_ ?_
  · intro hsingle
    rw [if_pos hsingle]
    exact hfirst hsingle
  · intro hsingle
    simp only [hsingle, Bool.false_eq_true, if_false]
    exact hlines
  · intro hempty
    obtain rfl : orelse = [] := hempty
    rfl

/-- A guard looks its line up once, and has the checks of its body and of the statements after
it. -/
theorem follows_lowerLines_guard {rest : List Stmt}
    (hguard : isGuard ctx (.branch line test body []) = true) (hrest : rest ≠ [])
    (hbody : BlockFollows ctx body) (hfirst : FurtherFollows ctx rest)
    (hlines : BlockFollows ctx rest) :
    BlockFollows ctx (.branch line test body [] :: rest) := by
  have hboth : (isGuard ctx (.branch line test body []) && !rest.isEmpty) = true := by
    simp [hguard, hrest]
  have hreached : whole (reached ctx .whole (.branch line test body [] :: rest)) =
      .branch line test body [] :: (whole (reached ctx .whole body) ++
        whole (reached ctx (Way.after ctx (.branch line test body []) rest) rest)) := by
    simp [reached, reachedInside]
  have hafter : Way.after ctx (.branch line test body []) rest =
      if continuesChain ctx rest then .further else .whole := by
    simp [Way.after, hguard]
  unfold BlockFollows
  rw [lowerLines, lowerLines, isGuard_withoutExpects, hboth, hreached, hafter]
  refine (follows_of_composed (.dropAliases _)).same_bind fun _ => ?_
  refine (follows_expectLines ctx line).bind fun lines bareLines checks _ hchecks => ?_
  obtain ⟨hanswers, rfl, rfl⟩ := hchecks
  refine (follows_branchWith hbody hfirst hlines).bind fun text bare further hreaches hlaid => ?_
  obtain ⟨hlaid, htext, hbare⟩ := hlaid
  have hown : OwnText (withoutExpects ctx) (.branch line test body []) bare :=
    @OwnText.guard _ _ rest bare hreaches
  have hstatement := (hlaid.statement hown hanswers).perm List.perm_append_comm
  refine follows_pure ⟨?_, ?_, ?_⟩
  · rw [List.append_nil,
      joinLines_append (empty_notMem_checks ctx checks) (by simpa using htext.symm)]
    simpa [joinLines] using hstatement
  · simp [empty_notMem_checks, htext.symm]
  · simpa using hbare.symm

/-- A statement that is no guard with statements after it is lowered as a whole. -/
theorem follows_lowerLines_whole {statement : Stmt} {rest : List Stmt}
    (hguard : (isGuard ctx statement && !rest.isEmpty) = false)
    (htext : TextFollows ctx statement)
    (hlines : BlockFollows ctx rest) :
    BlockFollows ctx (statement :: rest) := by
  have hafter : Way.after ctx statement rest = .whole := by
    cases rest with
    | nil => simp [Way.after, continuesChain]
    | cons next others =>
        have hno : isGuard ctx statement = false := by simpa using hguard
        simp [Way.after, hno]
  have hreached : whole (reached ctx .whole (statement :: rest)) =
      statement :: whole (reachedInside ctx .whole statement) ++
        whole (reached ctx .whole rest) := by
    simp [reached, hafter]
  unfold BlockFollows
  rw [lowerLines, lowerLines, isGuard_withoutExpects, hguard, hreached]
  refine (follows_around htext fun pipe own hreaches => .plain hreaches).bind
    fun text bare checks _ hlaid => ?_
  refine hlines.bind_pure fun lines bareLines further hrest => ?_
  exact hrest.cons hlaid

end Branches

/-! ## All statements -/

mutual

/-- Statements with and without their expectations, by induction on them. -/
theorem follows_lowerLines : ∀ statements : List Stmt, BlockFollows ctx statements
  | [] => follows_pure ⟨Laid.of_same ⟨rfl, rfl⟩, by simp, by simp⟩
  | statement :: rest => by
      have hlines := follows_lowerLines rest
      cases statement with
      | branch line test body orelse =>
          by_cases hguard : (isGuard ctx (.branch line test body orelse) && !rest.isEmpty) = true
          · obtain ⟨hisGuard, hrest⟩ := Bool.and_eq_true_iff.mp hguard
            cases orelse with
            | nil =>
                exact follows_lowerLines_guard hisGuard (by simpa using hrest)
                  (follows_lowerLines body) (follows_lowerFirst rest) hlines
            | cons _ _ => cases hisGuard
          · exact follows_lowerLines_whole (by simpa using hguard) (follows_lowerText _) hlines
      | _ => exact follows_lowerLines_whole rfl (follows_lowerText _) hlines

/-- One statement, with the checks that its line is asked for. -/
theorem follows_lowerText : ∀ statement : Stmt, TextFollows ctx statement
  | .simple line statement, pipe => by
      rw [Lowering.lowerText, Lowering.lowerText, simpleText_withoutExpects]
      exact (follows_of_composed (composed_simpleText ctx line pipe statement)).mono
        fun _ _ _ hsame => Laid.of_same hsame
  | .branch line test body orelse, pipe => by
      have hbody := follows_lowerLines body
      have hlines := follows_lowerLines orelse
      rw [Lowering.lowerText, Lowering.lowerText, whenSubject?_withoutExpects]
      cases hsubject : whenSubject? ctx line with
      | none => exact follows_branch (by decide) hsubject hbody (follows_lowerFirst orelse) hlines
      | some subject =>
          dsimp only
          rw [subjectText_withoutExpects]
          refine (follows_of_composed (composed_subjectText ctx subject)).same_bind fun text => ?_
          have hway : Way.whole = .clause ∨ (whenSubject? ctx line).isSome = true :=
            .inr (by rw [hsubject, Option.isSome_some])
          refine (follows_clauses hway hbody (follows_firstClauses orelse) hlines).bind
            fun clauses bareClauses checks _ hclauses => ?_
          exact follows_whenText text hclauses
  | .select _ subject cases, pipe => by
      rw [Lowering.lowerText, Lowering.lowerText, lower_withoutExpects]
      refine (follows_lowerCases cases).bind fun clauses bareClauses checks _ hclauses => ?_
      refine (follows_of_composed (composed_lower ctx subject)).same_bind fun text => ?_
      exact follows_whenText text hclauses
  | .forLoop _ _ _ _ body orelse, _ => by
      rw [reachedInside, whole_append]
      exact follows_nestedText _
        (.cons (follows_lowerEach body) (laidParts_singleton (follows_lowerEach orelse)))
  | .whileLoop _ _ body orelse, _ => by
      rw [reachedInside, whole_append]
      exact follows_nestedText _
        (.cons (follows_lowerEach body) (laidParts_singleton (follows_lowerEach orelse)))
  | .context _ _ _ body, _ =>
      follows_nestedText _ (laidParts_singleton (follows_lowerEach body))
  | .attempt _ _ body handlers orelse finals, _ => by
      rw [reachedInside, whole_append, whole_append, whole_append]
      exact follows_nestedText _
        (.cons (follows_lowerEach body) (.cons (follows_lowerEach orelse)
          (.cons (follows_lowerHandlers handlers)
            (laidParts_singleton (follows_lowerEach finals)))))
  | .function _ _ body, _ =>
      follows_nestedText _ (laidParts_singleton (follows_lowerEach body))
  | .classDef _ _ body, _ =>
      follows_nestedText _ (laidParts_singleton (follows_lowerEach body))

/-- The further part of a chain. -/
theorem follows_lowerFirst : ∀ statements : List Stmt, FurtherFollows ctx statements
  | [], h => by cases h
  | [.branch line test body orelse], h => by
      have hsubject : whenSubject? ctx line = none := by simpa [continuesChain] using h
      rw [reached, whole_cons_of_ne _ (by decide), reached, List.append_nil]
      exact follows_branch (by decide) hsubject (follows_lowerLines body)
        (follows_lowerFirst orelse)
        (follows_lowerLines orelse)
  | [.simple ..], h | [.select ..], h | [.forLoop ..], h | [.whileLoop ..], h | [.context ..], h
  | [.attempt ..], h | [.function ..], h | [.classDef ..], h => by cases h
  | statement :: _ :: _, h => by cases statement <;> cases h

theorem follows_firstClauses : ∀ statements : List Stmt, ClausesFollow ctx statements
  | [], h => by cases h
  | [.branch line test body orelse], _ => by
      rw [reached, whole_cons_of_ne _ (by decide), reached, List.append_nil]
      exact follows_clauses (.inl rfl) (follows_lowerLines body) (follows_firstClauses orelse)
        (follows_lowerLines orelse)
  | [.simple ..], h | [.select ..], h | [.forLoop ..], h | [.whileLoop ..], h | [.context ..], h
  | [.attempt ..], h | [.function ..], h | [.classDef ..], h => by cases h
  | statement :: _ :: _, h => by cases statement <;> cases h

/-- The cases of a `match`. -/
theorem follows_lowerCases : ∀ cases : List Case,
    Follows (lowerCases ctx cases) (lowerCases (withoutExpects ctx) cases)
      (LaidClauses ctx (whole (reachedCases ctx cases)))
  | [] => follows_pure laidClauses_nil
  | .mk pattern guard body :: rest => by
      rw [reachedCases, whole_append]
      refine (follows_caseClause pattern guard (follows_lowerLines body)).bind
        fun clause bareClause checks _ hclause => ?_
      obtain ⟨target, condition, text, bare, rfl, rfl, hlaid⟩ := hclause
      refine (follows_lowerCases rest).bind_pure fun clauses bareClauses further hclauses => ?_
      exact hclauses.cons target condition hlaid

theorem follows_lowerEach : ∀ statements : List Stmt,
    Follows (lowerEach ctx statements) (lowerEach (withoutExpects ctx) statements)
      (LaidTexts ctx (whole (reachedEach ctx statements)))
  | [] => follows_pure (Laid.of_same ⟨rfl, rfl⟩)
  | statement :: rest => by
      rw [reachedEach, whole_cons_whole, whole_append, ← List.cons_append]
      refine (follows_around (follows_lowerText statement)
        fun pipe own hreaches => .plain hreaches).inBlock.bind fun text bare checks _ hlaid => ?_
      refine (follows_lowerEach rest).bind_pure fun texts bareTexts further hrest => ?_
      exact (laidTexts_singleton hlaid).append hrest

theorem follows_lowerHandlers : ∀ handlers : List Handler,
    Follows (lowerHandlers ctx handlers) (lowerHandlers (withoutExpects ctx) handlers)
      (LaidTexts ctx (whole (reachedHandlers ctx handlers)))
  | [] => follows_pure (Laid.of_same ⟨rfl, rfl⟩)
  | .mk _ _ body :: rest => by
      rw [reachedHandlers, whole_append]
      refine (follows_blockText (follows_lowerLines body)).bind fun text bare checks _ hlaid => ?_
      refine (follows_lowerHandlers rest).bind_pure fun texts bareTexts further hrest => ?_
      exact (laidTexts_singleton hlaid).append hrest

end

end AikenForge.Expectation
