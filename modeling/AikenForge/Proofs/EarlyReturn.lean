/-
# When an early return is kept

A chain of branches without a last `else`, all of which leave, ends the statements around it early:
what stands after it counts only where no test holds. In the target language no statement leaves, so
the rest has to stand inside, as the last alternative of the chain. Where it stands after the chain
instead, it is evaluated whichever branch was taken, and its value is the value of the block.

The module says which of the two happens. The parts of a chain are opaque: each test holds or not or
fails, each body that is taken has a value or fails, and so has the rest. Lowering puts the texts of
the parts together in one of two arrangements, and only one of these keeps early returns.
-/

import AikenForge.Proofs.Structured

namespace AikenForge.EarlyReturn

open AikenForge.Source AikenForge.Text AikenForge.Lowering AikenForge.Meaning

/-! ## Chains and what they come to -/

/-- A statement is a chain of branches without a last `else`, with these tests and bodies. -/
inductive Chain : Stmt → List (Expr × List Stmt) → Prop
  | last (line : Nat) (test : Expr) (body : List Stmt) :
      Chain (.branch line test body []) [(test, body)]
  | next (line : Nat) (test : Expr) (body : List Stmt) {further : Stmt}
      {branches : List (Expr × List Stmt)} :
      Chain further branches → Chain (.branch line test body [further]) ((test, body) :: branches)

/-- Statements leave on all their paths: no run of them goes on to what follows. -/
def Leaves (statements : List Stmt) : Prop :=
  ∀ (V : Type) (J : Interpretation V) (env next : Environment V),
    runAll J env statements ≠ some (.proceeds next)

/-- What a chain of leaving branches and the rest after it come to: the body of the first branch
whose test holds, and the rest if none does. A test that fails comes to `failed`. -/
def chosen {R : Type} (failed : R) : List (Option Bool × R) → R → R
  | [], rest => rest
  | (none, _) :: _, _ => failed
  | (some true, body) :: _, _ => body
  | (some false, _) :: others, rest => chosen failed others rest

/-- A run that does not proceed ends the statements after it. -/
theorem runAll_cons_of_ends {V : Type} {J : Interpretation V} {env : Environment V}
    {statement : Stmt} {rest : List Stmt} {ending : Option (Ending V)}
    (h : run J env statement = ending) (hends : ∀ next, ending ≠ some (.proceeds next)) :
    runAll J env (statement :: rest) = ending := by
  rw [runAll, h]
  cases ending with
  | none => rfl
  | some ending =>
      cases ending with
      | returned value => rfl
      | raised => rfl
      | proceeds next => exact absurd rfl (hends next)

/-- Statements that end by returning or raising leave, whatever comes before. -/
theorem leaves_append_last {before : List Stmt} {last : Stmt} (h : leaves last = true) :
    Leaves (before ++ [last]) := by
  intro V J env next
  induction before generalizing env with
  | nil =>
      unfold leaves at h
      split at h
      · rename_i value
        cases value with
        | none => simp [runAll, run, runSimple]
        | some value =>
            simp only [List.nil_append, runAll, run, runSimple]
            cases J.value value env <;> simp [Ending.ofResult]
      · simp [runAll, run, runSimple]
      · cases h
  | cons first before ih =>
      rw [List.cons_append, runAll]
      split
      · exact ih _
      · rename_i hends
        intro heq
        exact hends next heq

/-- Running a chain whose branches leave, and the rest after it, comes to what is chosen. -/
theorem Chain.runAll_eq {V : Type} (J : Interpretation V) (env : Environment V) {statement : Stmt}
    {branches : List (Expr × List Stmt)} (h : Chain statement branches)
    (hleaves : ∀ branch ∈ branches, Leaves branch.2) (rest : List Stmt) :
    runAll J env (statement :: rest) =
      chosen (some .raised)
        (branches.map fun branch => (J.test branch.1 env, runAll J env branch.2))
        (runAll J env rest) := by
  induction h with
  | last line test body =>
      have hbody : Leaves body := hleaves (test, body) (by simp)
      cases htest : J.test test env with
      | none => simp [runAll, run, htest, chosen]
      | some holds =>
          cases holds with
          | false => simp [runAll, run, htest, chosen]
          | true =>
              rw [runAll_cons_of_ends (by rw [run, htest]) (hbody V J env)]
              simp [htest, chosen]
  | @next line test body further branches _ ih =>
      have hbody : Leaves body := hleaves (test, body) (by simp)
      have hothers := ih fun branch hmem => hleaves branch (List.mem_cons_of_mem _ hmem)
      cases htest : J.test test env with
      | none => simp [runAll, run, htest, chosen]
      | some holds =>
          cases holds with
          | true =>
              rw [runAll_cons_of_ends (by rw [run, htest]) (hbody V J env)]
              simp [htest, chosen]
          | false =>
              simp only [List.map_cons, htest, chosen]
              rw [← hothers]
              simp only [runAll, run, htest]
              cases run J env further with
              | none => rfl
              | some ending => cases ending <;> rfl

/-! ## Arrangements -/

/-- Where lowering puts the rest: on the other side of the first branch, or after the chain. -/
inductive Arrangement
  | alternative
  | sequence
  deriving DecidableEq

/-- What an arrangement comes to, from whether each test holds, or `none` where it fails, and the
value of each body, or `none` where it fails. In a sequence the value of a body that is taken is
dropped, and the rest is evaluated unless something has failed. -/
def Arrangement.eval {V : Type} :
    Arrangement → List (Option Bool × Option V) → Option V → Option V
  | .alternative, [], rest => rest
  | .alternative, (test, body) :: _, rest =>
    match test with
    | none => none
    | some true => body
    | some false => rest
  | .sequence, [], rest => rest
  | .sequence, (test, body) :: others, rest =>
    match test with
    | none => none
    | some true => body.bind fun _ => rest
    | some false => eval .sequence others rest

/-- An arrangement of `count` branches and a rest keeps early returns. -/
def Arrangement.Keeps (arrangement : Arrangement) (count : Nat) : Prop :=
  ∀ (V : Type) (outcomes : List (Option Bool × Option V)) (rest : Option V),
    outcomes.length = count → arrangement.eval outcomes rest = chosen none outcomes rest

/-- With the rest as its alternative one branch keeps its return. -/
theorem keeps_alternative : Arrangement.alternative.Keeps 1 := by
  intro V outcomes rest hlength
  match outcomes with
  | [(none, _)] => rfl
  | [(some true, _)] => rfl
  | [(some false, _)] => rfl

/-- A first branch that is taken and a rest of another value tell the arrangements apart. -/
theorem not_keeps_sequence (count : Nat) : ¬ Arrangement.sequence.Keeps (count + 1) := by
  intro h
  have hwrong := h Bool ((some true, some true) :: List.replicate count (none, none)) (some false)
    (by simp)
  simp [Arrangement.eval, chosen] at hwrong

/-! ## The lines of a chain and its rest -/

/-- How a list of statements is walked: as one block, or each statement as a block of its own. -/
inductive Walk
  | whole
  | piecewise
  deriving DecidableEq

/-- The lines of a list of statements that is walked in a way. -/
def Walk.lower (ctx : Context) : Walk → List Stmt → Lowering (List String)
  | .whole => lowerLines ctx
  | .piecewise => lowerEach ctx

/-- The text of a branch up to its end. -/
def branchHead (ctx : Context) (condition : String) (inside : List String) : String :=
  "if " ++ condition ++ " " ++ braced ctx (joinLines inside)

/-- The lines of a statement and the rest after it, with the arrangement they are in. The rest as an
alternative is a block in braces, or the text of a further branch. -/
inductive Emits (ctx : Context) (rest : List Stmt) :
    Walk → Stmt → Arrangement → List String → Prop
  | alternative {line : Nat} {test : Expr} {body : List Stmt} {checks inside others : List String}
      {condition : String} :
      Reaches (Lowering.lower ctx test) condition → Reaches (lowerLines ctx body) inside →
      Reaches (lowerLines ctx rest) others →
      Emits ctx rest .whole (.branch line test body []) .alternative
        (checks ++ [branchHead ctx condition inside ++ " else " ++ braced ctx (joinLines others)])
  | chained {line : Nat} {test : Expr} {body : List Stmt} {checks inside : List String}
      {condition further : String} :
      Reaches (Lowering.lower ctx test) condition → Reaches (lowerLines ctx body) inside →
      continuesChain ctx rest = true → Reaches (lowerFirst ctx rest) further →
      Emits ctx rest .whole (.branch line test body []) .alternative
        (checks ++ [branchHead ctx condition inside ++ " else " ++ further])
  | sequence {walk : Walk} {statement : Stmt} {own : String} {others lines : List String} :
      Reaches (around ctx statement fun pipe => Lowering.lowerText ctx pipe statement) own →
      Reaches (walk.lower ctx rest) others →
      (lines = own :: others ∨ own = "" ∧ lines = others) →
      Emits ctx rest walk statement .sequence lines

/-- A block of lines ends with a block: as its last lines, or inside its last line, on the other
side of a branch. -/
inductive Closes (ctx : Context) : List String → List String → Prop
  | here (lines : List String) : Closes ctx lines lines
  | later {lines last : List String} (text : String) :
      Closes ctx lines last → Closes ctx (text :: lines) last
  | within {lines last : List String} (checks : List String) (head : String) :
      Closes ctx lines last →
      Closes ctx (checks ++ [head ++ " else " ++ braced ctx (joinLines lines)]) last

/-! ## Runs taken apart -/

section Runs

variable {ctx : Context} {state after : LoweringState}

/-- A block's text is that of its lines. -/
theorem reaches_blockText {lines : Lowering (List String)} {text : String}
    (h : Yields (blockText lines) state text after) :
    ∃ inside, Reaches lines inside ∧ joinLines inside = text := by
  obtain ⟨before, between, hrun⟩ := reaches_inBlock h
  obtain ⟨inside, hinside, htext⟩ := yields_map.mp hrun
  exact ⟨inside, ⟨before, between, hinside⟩, htext⟩

/-- The text of a branch with an alternative: the alternative is a further branch or a block. -/
theorem reaches_branchText {line : Nat} {test : Expr} {body : Lowering (List String)}
    {alternative : Alternative} {text : String} (hne : alternative.statements ≠ [])
    (h : Yields (branchText ctx line test body alternative) state text after) :
    ∃ condition inside, Reaches (Lowering.lower ctx test) condition ∧ Reaches body inside ∧
      if continuesChain ctx alternative.statements then
        ∃ further, Reaches alternative.chain further ∧
          text = branchHead ctx condition inside ++ " else " ++ further
      else
        ∃ others, Reaches alternative.lines others ∧
          text = branchHead ctx condition inside ++ " else " ++ braced ctx (joinLines others) := by
  obtain ⟨condition, s1, hcondition, h1⟩ := yields_bind.mp h
  obtain ⟨block, s2, hblock, h2⟩ := yields_bind.mp h1
  obtain ⟨inside, hinside, rfl⟩ := reaches_blockText hblock
  refine ⟨condition, inside, ⟨_, _, hcondition⟩, hinside, ?_⟩
  have hempty : alternative.statements.isEmpty = false := by simpa using hne
  simp only [hempty, Bool.false_eq_true, if_false] at h2
  split at h2
  · rename_i hchain
    rw [if_pos hchain]
    obtain ⟨further, s3, hfurther, h3⟩ := yields_bind.mp h2
    exact ⟨further, ⟨_, _, hfurther⟩, (yields_pure.mp h3).1.symm⟩
  · rename_i hchain
    rw [if_neg hchain]
    obtain ⟨block, s3, hblock, h3⟩ := yields_bind.mp h2
    obtain ⟨others, hothers, rfl⟩ := reaches_blockText hblock
    exact ⟨others, hothers, (yields_pure.mp h3).1.symm⟩

/-- A guard is a branch without `else`. -/
theorem exists_branch_of_isGuard {statement : Stmt} (h : isGuard ctx statement = true) :
    ∃ line test body, statement = .branch line test body [] := by
  unfold isGuard at h
  split at h
  · exact ⟨_, _, _, rfl⟩
  · cases h

/-- A guard takes the rest as its alternative. -/
theorem emits_guard {statement : Stmt} {rest : List Stmt} {lines : List String}
    (hguard : isGuard ctx statement = true) (hrest : rest ≠ [])
    (h : Yields (lowerLines ctx (statement :: rest)) state lines after) :
    Emits ctx rest .whole statement .alternative lines := by
  obtain ⟨line, test, body, rfl⟩ := exists_branch_of_isGuard hguard
  have hboth : (isGuard ctx (.branch line test body []) && !rest.isEmpty) = true := by
    simp [hguard, hrest]
  rw [lowerLines, hboth] at h
  obtain ⟨_, s1, -, h1⟩ := yields_bind.mp h
  obtain ⟨checks, s2, -, h2⟩ := yields_bind.mp h1
  obtain ⟨text, s3, htext, h3⟩ := yields_bind.mp h2
  obtain ⟨rfl, -⟩ := yields_pure.mp h3
  obtain ⟨condition, inside, hcondition, hinside, hother⟩ := reaches_branchText hrest htext
  split at hother
  · rename_i hchain
    obtain ⟨further, hfurther, rfl⟩ := hother
    exact .chained hcondition hinside hchain hfurther
  · obtain ⟨others, hothers, rfl⟩ := hother
    exact .alternative hcondition hinside hothers

/-- Every other statement is followed by the rest. -/
theorem emits_whole {statement : Stmt} {rest : List Stmt} {lines : List String}
    (hguard : (isGuard ctx statement && !rest.isEmpty) = false)
    (h : Yields (lowerLines ctx (statement :: rest)) state lines after) :
    Emits ctx rest .whole statement .sequence lines := by
  rw [lowerLines, hguard] at h
  obtain ⟨own, s1, hown, h1⟩ := yields_bind.mp h
  obtain ⟨others, s2, hothers, h2⟩ := yields_bind.mp h1
  refine .sequence ⟨_, _, hown⟩ ⟨_, _, hothers⟩ ?_
  obtain ⟨hlines, -⟩ := yields_pure.mp h2
  by_cases hempty : own = ""
  · exact .inr ⟨hempty, by simpa [hempty] using hlines.symm⟩
  · exact .inl (by simpa [hempty] using hlines.symm)

/-- A statement that is a block of its own is followed by the rest. -/
theorem emits_piecewise {statement : Stmt} {rest : List Stmt} {lines : List String}
    (h : Yields (lowerEach ctx (statement :: rest)) state lines after) :
    Emits ctx rest .piecewise statement .sequence lines := by
  rw [lowerEach] at h
  obtain ⟨own, s1, hown, h1⟩ := yields_bind.mp h
  obtain ⟨others, s2, hothers, h2⟩ := yields_bind.mp h1
  exact .sequence (reaches_inBlock hown) ⟨_, _, hothers⟩ (.inl (yields_pure.mp h2).1.symm)

/-- A statement that is walked with a rest after it, in the arrangement that fits it. -/
theorem exists_emits {walk : Walk} {statement : Stmt} {rest : List Stmt} {lines : List String}
    (hrest : rest ≠ []) (h : Yields (walk.lower ctx (statement :: rest)) state lines after) :
    ∃ arrangement, Emits ctx rest walk statement arrangement lines ∧
      (arrangement = .alternative ↔ walk = .whole ∧ isGuard ctx statement = true) := by
  cases walk with
  | piecewise => exact ⟨.sequence, emits_piecewise h, by simp⟩
  | whole =>
      by_cases hguard : isGuard ctx statement = true
      · exact ⟨.alternative, emits_guard hguard hrest h, by simp [hguard]⟩
      · exact ⟨.sequence, emits_whole (by simp [hguard]) h, by simp [hguard]⟩

/-- The rest stands last in the lines of a statement and the rest, unless it is a further branch. -/
theorem Emits.closes {walk : Walk} {statement : Stmt} {rest : List Stmt}
    {arrangement : Arrangement} {lines : List String}
    (h : Emits ctx rest walk statement arrangement lines)
    (hchain : continuesChain ctx rest = false) :
    ∃ last, Reaches (walk.lower ctx rest) last ∧ Closes ctx lines last := by
  cases h with
  | alternative _ _ hothers => exact ⟨_, hothers, .within _ _ (.here _)⟩
  | chained _ _ hcontinues _ => simp [hchain] at hcontinues
  | sequence _ hothers hlines =>
      refine ⟨_, hothers, ?_⟩
      obtain rfl | ⟨-, rfl⟩ := hlines
      · exact .later _ (.here _)
      · exact .here _

/-- Lines that close others one after the other. -/
theorem Closes.trans {lines between last : List String} (h : Closes ctx lines between)
    (h' : Closes ctx between last) : Closes ctx lines last := by
  induction h with
  | here => exact h'
  | later text _ ih => exact .later text (ih h')
  | within checks head _ ih => exact .within checks head (ih h')

/-- No chain goes on over two statements. -/
theorem continuesChain_append_two (before : List Stmt) (first second : Stmt) (rest : List Stmt) :
    continuesChain ctx (before ++ first :: second :: rest) = false := by
  match before with
  | [] => cases first <;> rfl
  | [only] => cases only <;> rfl
  | one :: _ :: _ => cases one <;> rfl

/-- The lines of the statements from the first of two on stand last, whatever comes before them. -/
theorem exists_closes {walk : Walk} (before : List Stmt) {first second : Stmt} {rest : List Stmt}
    {lines : List String}
    (h : Reaches (walk.lower ctx (before ++ first :: second :: rest)) lines) :
    ∃ last, Reaches (walk.lower ctx (first :: second :: rest)) last ∧ Closes ctx lines last := by
  induction before generalizing lines with
  | nil => exact ⟨lines, h, .here lines⟩
  | cons statement before ih =>
      obtain ⟨_, _, hrun⟩ := h
      obtain ⟨arrangement, hemits, -⟩ := exists_emits (by simp) hrun
      obtain ⟨between, hbetween, hcloses⟩ :=
        hemits.closes (continuesChain_append_two before first second rest)
      obtain ⟨last, hlast, hrest⟩ := ih hbetween
      exact ⟨last, hlast, hcloses.trans hrest⟩

end Runs

/-- A chain has a branch. -/
theorem Chain.length_pos {statement : Stmt} {branches : List (Expr × List Stmt)}
    (h : Chain statement branches) : 0 < branches.length := by
  cases h <;> simp

/-- A guard is a chain of one branch. -/
theorem Chain.length_eq_one {ctx : Context} {statement : Stmt} {branches : List (Expr × List Stmt)}
    (h : Chain statement branches) (hguard : isGuard ctx statement = true) :
    branches.length = 1 := by
  cases h with
  | last => rfl
  | next => cases hguard

/-- A chain of leaving branches and a rest come to the body of the first branch whose test holds, or
to the rest if none does. Wherever such a chain stands among statements that are walked, its lines
and those of the rest are the end of the block, and their arrangement comes to the same under all
outcomes of the tests, the bodies and the rest exactly if the statements are walked as one block and
the chain is a single branch whose last statement leaves and that no when directive dispatches. -/
theorem early_return_kept_iff (ctx : Context) (walk : Walk) (before rest : List Stmt)
    (chain : Stmt) (branches : List (Expr × List Stmt)) (hchain : Chain chain branches)
    (hleaves : ∀ branch ∈ branches, Leaves branch.2) (hrest : rest ≠ [])
    (state after : LoweringState) (lines : List String)
    (hrun : Yields (walk.lower ctx (before ++ chain :: rest)) state lines after) :
    (∀ (V : Type) (J : Interpretation V) (env : Environment V),
      runAll J env (chain :: rest) =
        chosen (some .raised)
          (branches.map fun branch => (J.test branch.1 env, runAll J env branch.2))
          (runAll J env rest)) ∧
    ∃ arrangement last, Closes ctx lines last ∧ Emits ctx rest walk chain arrangement last ∧
      (arrangement.Keeps branches.length ↔ walk = .whole ∧ isGuard ctx chain = true) := by
  refine ⟨fun V J env => hchain.runAll_eq J env hleaves rest, ?_⟩
  obtain ⟨second, others, rfl⟩ := List.exists_cons_of_ne_nil hrest
  obtain ⟨last, ⟨_, _, hlast⟩, hcloses⟩ := exists_closes before ⟨_, _, hrun⟩
  obtain ⟨arrangement, hemits, hiff⟩ := exists_emits hrest hlast
  refine ⟨arrangement, last, hcloses, hemits, ?_⟩
  rw [← hiff]
  constructor
  · intro hkeeps
    cases arrangement with
    | alternative => rfl
    | sequence =>
        obtain ⟨count, hcount⟩ := Nat.exists_eq_add_of_lt hchain.length_pos
        rw [hcount, Nat.zero_add] at hkeeps
        exact absurd hkeeps (not_keeps_sequence count)
  · intro halternative
    rw [halternative, hchain.length_eq_one (hiff.mp halternative).2]
    exact keeps_alternative

/-- A binding, a guard after it, and two statements after the guard: the rest is the alternative,
`if b { x } else { expect c; y }` line by line. -/
theorem early_return_kept_iff_guard :
    Leaves [.simple 3 (.returns (some (.name "x")))] ∧
      ∃ arrangement last,
        Closes {} ["let x = a", "if b \x7b\n  x\n\x7d else \x7b\n  expect c\n  y\n\x7d"] last ∧
        Emits {} [.simple 4 (.asserts (.name "c") none), .simple 5 (.returns (some (.name "y")))]
          .whole (.branch 2 (.name "b") [.simple 3 (.returns (some (.name "x")))] [])
          arrangement last ∧
        arrangement.Keeps 1 := by
  have hleaves : Leaves [.simple 3 (.returns (some (.name "x")))] := @leaves_append_last [] _ rfl
  obtain ⟨-, arrangement, last, hcloses, hemits, hiff⟩ :=
    early_return_kept_iff {} .whole [.simple 1 (.assigns [.name "x"] (.name "a"))]
      [.simple 4 (.asserts (.name "c") none), .simple 5 (.returns (some (.name "y")))]
      (.branch 2 (.name "b") [.simple 3 (.returns (some (.name "x")))] [])
      [(.name "b", [.simple 3 (.returns (some (.name "x")))])] (.last 2 (.name "b") _)
      (by simpa using hleaves) (by simp) {} {} _ rfl
  exact ⟨hleaves, arrangement, last, hcloses, hemits, hiff.mpr ⟨rfl, rfl⟩⟩

/-- An interpretation of names by the environment. -/
def namesOnly : Interpretation Bool where
  value
    | .name id, env => env id
    | _, _ => none
  holds := id

/-- A chain of two leaving branches and a return after it, written `if a { x } else if b { y }` and
then `z`: where the first test holds the statements return the value of the first branch, but in the
lines the return after the chain stands last, and the sequence has its value. -/
theorem lowerLines_two_branches_loses_return :
    (∃ after, Yields (lowerLines {}
      [.branch 1 (.name "a") [.simple 2 (.returns (some (.name "x")))]
        [.branch 3 (.name "b") [.simple 4 (.returns (some (.name "y")))] []],
       .simple 5 (.returns (some (.name "z")))]) {}
      ["if a \x7b\n  x\n\x7d else if b \x7b\n  y\n\x7d", "z"] after) ∧
    runAll namesOnly (fun name => some (name != "z"))
      [.branch 1 (.name "a") [.simple 2 (.returns (some (.name "x")))]
        [.branch 3 (.name "b") [.simple 4 (.returns (some (.name "y")))] []],
       .simple 5 (.returns (some (.name "z")))] = some (.returned true) ∧
    Arrangement.sequence.eval [(some true, some true), (some true, some true)] (some false) =
      some false := by
  exact ⟨⟨_, rfl⟩, rfl, rfl⟩

end AikenForge.EarlyReturn
