/-
# Directives and bindings under aliases

What simple statements and the directives above them do, next to what the inlined statements do
without aliases. A directive that loads no alias does the same on both sides; a binding moves what
names stand for as the table moves; and a binding that makes an alias is a statement that does
nothing on the other side.
-/

import AikenForge.Proofs.Alias.Tracking

namespace AikenForge.Inlining

open AikenForge.Source AikenForge.Lowering AikenForge.Text AikenForge.Expectation

variable (ctx : Context) (names : List String) {env env' : Env}

/-! ## A context without roots -/

/-- Without roots no value is a transaction. -/
theorem isTransactionAlias_rootless (value : Expr) :
    isTransactionAlias (rootless ctx) value = false := by
  unfold isTransactionAlias
  split
  · simp [rootless]
  · rfl

/-! ## Directives -/

/-- The directives load none of the names. -/
def DirectivesApart : Prop :=
  ∀ line, ∀ d ∈ ctx.directives.onLine line, ∀ part ∈ d.text :: pipeParts [] d.text.toList, ∀ e,
    readable? ctx part = some e → ∀ name ∈ names, Expr.name name ∉ e.subterms

variable {ctx names}

/-- No name in force occurs in expressions that are apart from all of them. -/
theorem Tracks.silent {s t : LoweringState} (hst : Tracks ctx names env s t)
    {expressions : List Expr} (h : ∀ name ∈ names, Expr.name name ∉ expressions) :
    Silent env expressions := by
  intro name hname
  rw [← Option.not_isSome_iff_eq_none]
  intro hsome
  exact h name (hst.within name hsome) hname

/-- An expression that loads none of the names is the same with and without aliases. -/
theorem keeps_lower_apart {e : Expr} (h : ∀ name ∈ names, Expr.name name ∉ e.subterms) :
    Keeps ctx names env (lower ctx e) (lower ctx e) := by
  intro s t hst
  have hkeeps := keeps_lower ctx names e env hst
  rwa [inline_eq_self ctx e env (hst.silent h)] at hkeeps

/-- An expression that loads no alias is lowered to the same text on both sides. -/
theorem keeps_lower_apart_rootless {e : Expr} (h : ∀ name ∈ names, Expr.name name ∉ e.subterms) :
    Keeps ctx names env (lower ctx e) (lower (rootless ctx) e) := by
  rw [lower_rootless]
  exact keeps_lower_apart h

theorem keeps_lowerPipe_apart {parts : List Expr}
    (h : ∀ name ∈ names, Expr.name name ∉ Expr.all parts) :
    Keeps ctx names env (lowerPipe ctx parts) (lowerPipe (rootless ctx) parts) := by
  have hrootless : lowerPipe (rootless ctx) = lowerPipe ctx := lowerPipe_relocate ctx _ _
  rw [hrootless]
  intro s t hst
  have hkeeps := keeps_lowerPipe ctx names parts env hst
  rwa [inlinePipe_eq_self ctx parts env (hst.silent h)] at hkeeps

/-- A directive's text is read or not, and nothing else comes of reading it. -/
theorem reaches_directiveExpression? {text : String} {result : Option Expr}
    (h : Reaches (directiveExpression? ctx text) result) : result = readable? ctx text := by
  obtain ⟨before, after, h⟩ := h
  unfold directiveExpression? at h
  unfold readable?
  split at h
  · rename_i e hread
    obtain ⟨rfl, -⟩ := yields_pure.mp h
    rw [hread]
    rfl
  · exact absurd h not_yields_throw
  · rename_i reason hread
    obtain ⟨_, _, -, h⟩ := yields_bind.mp h
    obtain ⟨rfl, -⟩ := yields_pure.mp h
    rw [hread]
    rfl

theorem reaches_directiveExpressions {parts : List String} {results : List (Option Expr)}
    (h : Reaches (parts.mapM (directiveExpression? ctx)) results) :
    results = parts.map (readable? ctx) := by
  obtain ⟨before, after, h⟩ := h
  induction parts generalizing before results with
  | nil =>
      obtain ⟨rfl, -⟩ := yields_pure.mp h
      rfl
  | cons part parts ih =>
      rw [List.mapM_cons] at h
      obtain ⟨first, between, hfirst, h⟩ := yields_bind.mp h
      obtain ⟨rest, _, hrest, h⟩ := yields_bind.mp h
      obtain ⟨rfl, rfl⟩ := yields_pure.mp h
      rw [reaches_directiveExpression? ⟨_, _, hfirst⟩, ih _ hrest]
      rfl

/-- Splitting off a message leaves subterms of the expression. -/
theorem subterms_splitExpectation (e : Expr) :
    (splitExpectation e).1.subterms ⊆ e.subterms := by
  unfold splitExpectation
  split
  · simp [Expr.subterms, Expr.all]
  · exact List.Subset.refl _

/-- The expectations of a line do the same on both sides, since they load no alias. -/
theorem keeps_expectLines (happart : DirectivesApart ctx names) (line : Nat) :
    Keeps ctx names env (expectLines ctx line) (expectLines (rootless ctx) line) := by
  refine keeps_congruence.checks (options_rootless ctx) rfl fun d hd e hread => ?_
  have hline : d ∈ ctx.directives.onLine line := (List.mem_filter.mp hd).1
  refine keeps_lower_apart_rootless fun name hname hmem => ?_
  exact happart line d hline d.text (by simp) e hread name hname (subterms_splitExpectation e hmem)

/-- The parts that a list of results holds, if it holds all. -/
theorem all_of_mapM_id {read : String → Option Expr} {parts : List String} {expressions : List Expr}
    (h : (parts.map read).mapM id = some expressions) :
    ∀ e ∈ expressions, ∃ part ∈ parts, read part = some e := by
  induction parts generalizing expressions with
  | nil =>
      obtain rfl := Option.some.inj h
      simp
  | cons part parts ih =>
      rw [List.map_cons, List.mapM_cons] at h
      obtain ⟨first, hfirst, h⟩ := Option.bind_eq_some_iff.mp h
      obtain ⟨rest, hrest, h⟩ := Option.bind_eq_some_iff.mp h
      obtain rfl := Option.some.inj h
      intro e he
      rcases List.mem_cons.mp he with rfl | he
      · exact ⟨part, by simp, hfirst⟩
      · obtain ⟨part', hpart, hread⟩ := ih hrest e he
        exact ⟨part', by simp [hpart], hread⟩

theorem mem_all {x : Expr} {items : List Expr} (h : x ∈ Expr.all items) :
    ∃ e ∈ items, x ∈ e.subterms := by
  induction items with
  | nil => simp [Expr.all] at h
  | cons e rest ih =>
      rw [Expr.all, List.mem_append] at h
      rcases h with h | h
      · exact ⟨e, by simp, h⟩
      · obtain ⟨e', he', hx⟩ := ih h
        exact ⟨e', by simp [he'], hx⟩

/-- So does the pipe directive of a line. -/
theorem keeps_pipeLine? (happart : DirectivesApart ctx names) (line : Nat) :
    Keeps ctx names env (pipeLine? ctx line) (pipeLine? (rootless ctx) line) := by
  refine keeps_congruence.pipeAbove (options_rootless ctx) rfl fun d hd expressions hparts => ?_
  have hline : d ∈ ctx.directives.onLine line := (List.mem_filter.mp hd).1
  refine keeps_lowerPipe_apart fun name hname hmem => ?_
  obtain ⟨e, he, hmem⟩ := mem_all hmem
  obtain ⟨part, hpart, hread⟩ := all_of_mapM_id hparts e he
  exact happart line d hline part (by simp [hpart]) e hread name hname hmem

/-- Whether a pipe stands in for a value is known from the directives. -/
theorem reaches_pipeLine? {line : Nat} {result : Option String}
    (h : Reaches (pipeLine? ctx line) result) : result.isSome = hasPipe ctx line := by
  obtain ⟨before, after, h⟩ := h
  unfold pipeLine? at h
  unfold hasPipe
  cases hlast : (ctx.directives.ofKind line .pipe).getLast? with
  | none =>
      rw [hlast] at h
      obtain ⟨rfl, -⟩ := yields_pure.mp h
      rfl
  | some d =>
      rw [hlast] at h
      obtain ⟨results, _, hresults, h⟩ := yields_bind.mp h
      obtain rfl := reaches_directiveExpressions ⟨_, _, hresults⟩
      dsimp only
      generalize ((pipeParts [] d.text.toList).map (readable? ctx)).mapM id = parts at h ⊢
      match parts with
      | some (first :: step :: steps) =>
          obtain ⟨text, _, -, h⟩ := yields_bind.mp h
          obtain ⟨rfl, -⟩ := yields_pure.mp h
          rfl
      | none | some [] | some [_] =>
          obtain ⟨_, _, -, h⟩ := yields_bind.mp h
          obtain ⟨rfl, -⟩ := yields_pure.mp h
          rfl

/-- So does the value that a when directive dispatches on. -/
theorem keeps_subjectText (happart : DirectivesApart ctx names) {line : Nat} {subject : String}
    (h : whenSubject? ctx line = some subject) :
    Keeps ctx names env (subjectText ctx subject) (subjectText (rootless ctx) subject) := by
  obtain ⟨d, hd, rfl⟩ := Option.map_eq_some_iff.mp h
  have hline : d ∈ ctx.directives.onLine line :=
    (List.mem_filter.mp (List.mem_of_getLast? hd)).1
  refine keeps_congruence.subject (options_rootless ctx) fun e hread => ?_
  exact keeps_lower_apart_rootless (happart line d hline d.text (by simp) e hread)

/-! ## Bindings -/

/-- Names end in order, those of one list after those of the other. -/
theorem ended_heeded_append (first second : List String) (env : Env) :
    ended heeded (first ++ second) env = ended heeded second (ended heeded first env) := by
  funext name
  by_cases hfirst : name ∈ first <;> by_cases hsecond : name ∈ second <;> simp [hfirst, hsecond]

mutual

/-- Binding a target ends the names in it. -/
theorem follows_bindingText? : ∀ (target : Expr) (env : Env),
    Follows ctx names env (Tracks ctx names (ended heeded (droppedNames target) env))
      (bindingText? target) (bindingText? target)
  | .name id, _ => (follows_dropAliases [id] [id]).then fun _ => keeps_pure _
  | .tuple items, env => (follows_bindingTexts? items env).thenPure _
  | .list items, env => (follows_bindingTexts? items env).thenPure _
  | .starred value, env => by
      cases value with
      | name id => exact (follows_dropAliases [id] [id]).then fun _ => keeps_pure _
      | _ =>
          rw [droppedNames, ended_heeded_nil]
          · exact keeps_pure _
          all_goals simp
  | .constant _, _ | .attribute .., _ | .subscript .., _ | .slice .., _ | .set _, _ | .dict _, _
  | .unary .., _ | .binary .., _ | .boolean .., _ | .compare .., _ | .conditional .., _
  | .call .., _ | .lambda .., _ | .comprehension .., _ | .dictComprehension .., _ | .named .., _
  | .await _, _ | .yield _, _ | .yieldFrom _, _ | .joined _, _ | .formatted .., _ => by
      rw [droppedNames, ended_heeded_nil]
      · exact keeps_pure _
      all_goals simp

theorem follows_bindingTexts? : ∀ (targets : List Expr) (env : Env),
    Follows ctx names env (Tracks ctx names (ended heeded (droppedNamesAll targets) env))
      (bindingTexts? targets) (bindingTexts? targets)
  | [], env => by
      rw [droppedNamesAll, ended_heeded_nil]
      exact keeps_pure _
  | item :: rest, env => by
      rw [droppedNamesAll, ended_heeded_append]
      exact (follows_bindingText? item env).then fun _ => (follows_bindingTexts? rest _).thenPure _

end

/-- A value is a pipe's text if there is one, and its own otherwise. -/
theorem keeps_valueText (pipe : Option String) (value : Expr) :
    Keeps ctx names env (valueText ctx pipe value)
      (valueText (rootless ctx) pipe (inline heeded ctx env value)) :=
  keeps_congruence.valueOr pipe (keeps_lower_rootless ctx names value env)

/-- A binding that makes no alias ends the names of its target. -/
theorem follows_bindText (line : Nat) (pipe : Option String) (target value : Expr) :
    Follows ctx names env (Tracks ctx names (ended heeded (droppedNames target) env))
      (bindText ctx line pipe target value)
      (bindText (rootless ctx) line pipe target (inline heeded ctx env value)) := by
  refine (keeps_valueText pipe value).then fun text => ?_
  refine (follows_bindingText? target env).then fun pattern => ?_
  cases pattern with
  | some pattern => exact keeps_pure _
  | none => exact (keeps_warn ..).then fun _ => keeps_pure _

/-! ## Aliases -/

/-- A value stands for something exactly if it is a transaction. -/
theorem isSome_standing? (env : Env) (value : Expr) :
    (standing? ctx env value).isSome = isTransactionAlias ctx value := by
  unfold standing?
  split
  · rw [isTransactionAlias]
    split <;> simp_all
  · rename_i hshape
    rw [isTransactionAlias]
    · rfl
    · exact hshape

/-- What a value stands for is what inlining makes of it. -/
theorem inline_standing {value : Expr} {standing : Standing}
    (h : standing? ctx env value = some standing) :
    inline heeded ctx env value = standing.expr := by
  unfold standing? at h
  split at h
  · rename_i root label
    split at h
    · rename_i hlabel
      obtain rfl : label = transactionLabel := by simp at hlabel; exact hlabel.1
      obtain rfl := Option.some.inj h
      rw [inline]
      unfold standingOfRoot
      cases hmember : enumMember? ctx (.name root) transactionLabel with
      | some constructor => rfl
      | none =>
          cases henv : env root with
          | none =>
              rw [inline_name_none _ ctx env henv]
              rfl
          | some standing =>
              rw [inline_name_some _ ctx env henv]
              rfl
    · cases h
  · cases h

/-- The value of an alias has the text of what it stands for, and nothing is recorded for it. -/
theorem exists_outcome_lower_standing {value : Expr} {standing : Standing}
    (h : standing? ctx env value = some standing) {s t : LoweringState}
    (hst : Tracks ctx names env s t) :
    ∃ s', outcome (lower ctx value) s = (.ok (standing.text ctx), s') ∧
      Tracks ctx names env s' t := by
  have hmatches := keeps_lower ctx names value env hst
  rw [inline_standing h, outcome_lower_standing ctx standing hst.bare] at hmatches
  generalize hrun : outcome (lower ctx value) s = run at hmatches
  cases hmatches with
  | ok value hst' => exact ⟨_, rfl, hst'⟩

/-- What names stand for after one of them was set. -/
theorem set_apply (env : Env) (name other : String) (standing : Standing) :
    env.set name standing other = if other = name then some standing else env other :=
  rfl

/-- Setting an alias moves what names stand for in the same way. -/
theorem Tracks.set {s t : LoweringState} (hst : Tracks ctx names env s t) {name : String}
    (hname : name ∈ names) (standing : Standing) :
    Tracks ctx names ((Inlining.ended heeded [name] env).set name standing)
      { s with aliases := s.aliases.insert name (standing.text ctx) } t := by
  refine ⟨⟨hst.records, hst.registry⟩, fun other => ?_, hst.bare, fun other hother => ?_⟩
  · rw [Table.find?_insert, set_apply]
    split
    · rfl
    · rename_i hne
      rw [ended_heeded, if_neg (by simpa using hne)]
      exact hst.aliases other
  · by_cases hne : other = name
    · exact hne ▸ hname
    · rw [set_apply, if_neg hne, ended_heeded, if_neg (by simpa using hne)] at hother
      exact hst.within other hother

/-- Making an alias is a step of the first run alone. -/
theorem follows_aliasFor? {name : String} (hname : name ∈ names) {value : Expr}
    {standing : Standing}
    (h : standing? ctx env value = some standing) {next : Option String → Lowering String}
    {bareAction : Lowering String} {reached : LoweringState → LoweringState → Prop}
    (hnext : Follows ctx names ((ended heeded [name] env).set name standing) reached
      (next (some (standing.text ctx))) bareAction) :
    Follows ctx names env reached (aliasFor? ctx none name value >>= next) bareAction := by
  have halias : isTransactionAlias ctx value = true := by
    rw [← isSome_standing? env value, h]
    rfl
  have hleft : ∀ s t, Tracks ctx names env s t →
      ∃ result s', outcome (aliasFor? ctx none name value) s = (.ok result, s') ∧
        Tracks ctx names ((ended heeded [name] env).set name standing) s' t ∧
        Follows ctx names ((ended heeded [name] env).set name standing) reached (next result)
          bareAction := by
    intro s t hst
    obtain ⟨s', hrun, hst'⟩ := exists_outcome_lower_standing h hst
    refine ⟨some (standing.text ctx), _, ?_, hst'.set hname standing, hnext⟩
    unfold aliasFor?
    rw [halias]
    change outcome (lower ctx value >>= _) s = _
    rw [outcome_bind, hrun]
    rfl
  exact follows_left hleft

/-- A value that is no transaction, or goes through a pipe, makes no alias. -/
theorem aliasFor?_eq_none {pipe : Option String} {name : String} {value : Expr}
    (h : (pipe.isNone && isTransactionAlias ctx value) = false) :
    aliasFor? ctx pipe name value = pure none := by
  unfold aliasFor?
  rw [h]
  rfl

theorem aliasFor?_rootless (pipe : Option String) (name : String) (value : Expr) :
    aliasFor? (rootless ctx) pipe name value = pure none :=
  aliasFor?_eq_none (by rw [isTransactionAlias_rootless, Bool.and_false])

/-! ## Simple statements -/

/-- The name that a statement makes an alias. -/
def aliasName? (ctx : Context) : Stmt → Option String
  | .simple line (.assigns targets value) =>
    if makesAlias ctx line targets.head? value then targets.head?.bind Expr.name? else none
  | .simple line (.annotates target _ (some value)) =>
    if makesAlias ctx line (some target) value then target.name? else none
  | _ => none

/-- Whether a statement combines a name with a value on a line with a pipe directive, which is not
heard there. -/
def combinesPiped (ctx : Context) : Stmt → Bool
  | .simple line (.augments (.name _) _ _) => hasPipe ctx line
  | _ => false

/-- A statement makes aliases of the given names only, and combines no name on a line with a pipe
directive. -/
structure Fits (ctx : Context) (names : List String) (statement : Stmt) : Prop where
  aliases : ∀ name, aliasName? ctx statement = some name → name ∈ names
  combined : combinesPiped ctx statement = false

/-- A binding that makes an alias sets what its name stands for. -/
theorem bound_of_makesAlias (env : Env) {line : Nat} {target : Expr} {value : Expr}
    (h : makesAlias ctx line (some target) value = true) :
    ∃ name standing, target = .name name ∧ hasPipe ctx line = false ∧
      standing? ctx env value = some standing ∧
      bound heeded (madeStanding? ctx env line value) env target =
        (ended heeded [name] env).set name standing := by
  unfold makesAlias at h
  rw [Bool.and_eq_true, Bool.and_eq_true, Bool.not_eq_true', ← isSome_standing? env] at h
  obtain ⟨⟨hname, hpipe⟩, hstanding⟩ := h
  obtain ⟨standing, hstanding⟩ := Option.isSome_iff_exists.mp hstanding
  obtain ⟨name, hname⟩ := Option.isSome_iff_exists.mp hname
  cases target with
  | name name' =>
      refine ⟨name', standing, rfl, hpipe, hstanding, ?_⟩
      rw [madeStanding?, hpipe, hstanding]
      rfl
  | _ => cases hname

/-- A binding that makes no alias ends the names of its target. -/
theorem bound_of_not_makesAlias {line : Nat} {target : Expr} {value : Expr}
    (h : makesAlias ctx line (some target) value = false) :
    bound heeded (madeStanding? ctx env line value) env target =
      ended heeded (droppedNames target) env := by
  unfold bound
  cases hname : target.name? with
  | none => rfl
  | some name =>
      have hnone : madeStanding? ctx env line value = none := by
        unfold madeStanding?
        split
        · rfl
        · rename_i hpipe
          rw [Bool.not_eq_true] at hpipe
          rw [← Option.not_isSome_iff_eq_none, isSome_standing?]
          simpa [makesAlias, hname, hpipe] using h
      rw [hnone]
      rfl

/-- The warning about an assignment to several targets. -/
def warnChained (line : Nat) (targets : List Expr) : Lowering Unit :=
  if targets.length != 1 then
    warn .statements
      ("Chained assignment at line " ++ toString line ++ ", binding the first target only")
  else pure ()

/-- The text of an assignment to one target. -/
def firstText (ctx : Context) (line : Nat) (pipe : Option String) (target value : Expr) :
    Lowering String :=
  match target.name? with
  | some name => do
    match ← aliasFor? ctx pipe name value with
    | some text =>
      note .debug .statements ("Inlining " ++ name ++ " as " ++ text)
      return ""
    | none => bindText ctx line pipe target value
  | none => bindText ctx line pipe target value

/-- Only the first target of an assignment is written; further ones give a warning. -/
theorem assignText_cons (ctx : Context) (line : Nat) (pipe : Option String) (target : Expr)
    (rest : List Expr) (value : Expr) :
    assignText ctx line pipe (target :: rest) value =
      warnChained line (target :: rest) >>= fun _ => firstText ctx line pipe target value := by
  unfold assignText warnChained firstText
  dsimp only
  cases (target :: rest).length != 1 <;> rfl

theorem keeps_warnChained (line : Nat) (targets : List Expr) :
    Keeps ctx names env (warnChained line targets) (warnChained line targets) := by
  unfold warnChained
  split
  · exact keeps_warn ..
  · exact keeps_pure _

theorem keeps_warnChained_pure (line : Nat) (targets : List Expr) :
    Keeps ctx names env (warnChained line targets) (pure ()) := by
  unfold warnChained
  split
  · exact keeps_note_pure _ _ _
  · exact keeps_pure _

/-- A first target that makes no alias is written as a binding. -/
theorem firstText_eq_bindText {line : Nat} {pipe : Option String} {target value : Expr}
    (h : (target.name?.isSome && pipe.isNone && isTransactionAlias ctx value) = false) :
    firstText ctx line pipe target value = bindText ctx line pipe target value := by
  unfold firstText
  cases hname : target.name? with
  | none => rfl
  | some name =>
      dsimp only
      rw [aliasFor?_eq_none (by simpa [hname] using h)]
      rfl

/-- In a context without roots every first target is written as a binding. -/
theorem firstText_rootless (line : Nat) (pipe : Option String) (target value : Expr) :
    firstText (rootless ctx) line pipe target value =
      bindText (rootless ctx) line pipe target value :=
  firstText_eq_bindText (by rw [isTransactionAlias_rootless, Bool.and_false])

theorem isNone_of_isSome_eq {pipe : Option String} {piped : Bool} (h : pipe.isSome = piped) :
    pipe.isNone = !piped := by
  rw [← h, Option.not_isSome]

/-- Binding one target, to an alias or not. -/
theorem follows_firstText (line : Nat) {pipe : Option String}
    (hpipe : pipe.isSome = hasPipe ctx line) {target value : Expr}
    (hmakes : makesAlias ctx line (some target) value = false) :
    Follows ctx names env
      (Tracks ctx names (bound heeded (madeStanding? ctx env line value) env target))
      (firstText ctx line pipe target value)
      (firstText (rootless ctx) line pipe target (inline heeded ctx env value)) := by
  rw [bound_of_not_makesAlias hmakes, firstText_rootless, firstText_eq_bindText]
  · exact follows_bindText line pipe target value
  · rw [isNone_of_isSome_eq hpipe]
    exact hmakes

/-- An assignment makes an alias, which the other side does not see, or is written on both. -/
theorem follows_assigns (line : Nat) {pipe : Option String} (hpipe : pipe.isSome = hasPipe ctx line)
    (targets : List Expr) (value : Expr)
    (hfits : Fits ctx names (.simple line (.assigns targets value))) :
    Follows ctx names env
      (Tracks ctx names (afterSimple heeded ctx env line (.assigns targets value)))
      (assignText ctx line pipe targets value)
      (simpleText (rootless ctx) line pipe
        (inlineSimple heeded ctx env line (.assigns targets value))) := by
  rw [inlineSimple]
  cases targets with
  | nil => exact (keeps_warn ..).then fun _ => keeps_pure _
  | cons target rest =>
      rw [List.head?_cons, assignText_cons]
      cases hmakes : makesAlias ctx line (some target) value with
      | true =>
          obtain ⟨name, standing, rfl, hplain, hstanding, hbound⟩ := bound_of_makesAlias env hmakes
          have hname : name ∈ names := hfits.aliases name (by simp [aliasName?, hmakes, Expr.name?])
          obtain rfl : pipe = none := by simpa [hplain] using hpipe
          have hafter : afterSimple heeded ctx env line (.assigns (.name name :: rest) value) =
              (ended heeded [name] env).set name standing := hbound
          rw [hafter, if_pos rfl]
          change Follows _ _ _ _ _ (pure () >>= fun _ => pure "")
          refine (keeps_warnChained_pure line _).then fun _ => ?_
          refine follows_aliasFor? hname hstanding ?_
          exact (keeps_note_pure ..).then fun _ => keeps_pure _
      | false =>
          rw [if_neg (by simp)]
          change Follows _ _ _ _ _ (assignText (rootless ctx) line pipe (target :: rest) _)
          rw [assignText_cons]
          exact (keeps_warnChained line _).then fun _ => follows_firstText line hpipe hmakes

/-- An annotated name with a value makes an alias, or is written with its type. -/
theorem annotatedText_name (ctx : Context) (pipe : Option String) (name : String)
    (hint value : Expr) :
    annotatedText ctx pipe (.name name) hint (some value) = (do
      match ← aliasFor? ctx pipe name value with
      | some _ => return ""
      | none =>
        let text ← valueText ctx pipe value
        dropAliases [name]
        let type ← ofReporting (Hint.resolve ctx.options.names hint)
        return "let " ++ name ++ ": " ++ type.render ++ " = " ++ text) :=
  rfl

/-- An annotated assignment moves what names stand for as an assignment does. -/
theorem follows_annotates (line : Nat) {pipe : Option String}
    (hpipe : pipe.isSome = hasPipe ctx line) (target hint : Expr) (value : Option Expr)
    (hfits : Fits ctx names (.simple line (.annotates target hint value))) :
    Follows ctx names env
      (Tracks ctx names (afterSimple heeded ctx env line (.annotates target hint value)))
      (annotatedText ctx pipe target hint value)
      (simpleText (rootless ctx) line pipe
        (inlineSimple heeded ctx env line (.annotates target hint value))) := by
  cases value with
  | none => cases target <;> exact keeps_pure _
  | some value =>
      rw [inlineSimple]
      cases hmakes : makesAlias ctx line (some target) value with
      | true =>
          obtain ⟨name, standing, rfl, hplain, hstanding, hbound⟩ := bound_of_makesAlias env hmakes
          have hname : name ∈ names := hfits.aliases name (by simp [aliasName?, hmakes, Expr.name?])
          obtain rfl : pipe = none := by simpa [hplain] using hpipe
          have hafter : afterSimple heeded ctx env line
            (.annotates (.name name) hint (some value)) =
              (ended heeded [name] env).set name standing := hbound
          rw [hafter, if_pos rfl, annotatedText_name]
          exact follows_aliasFor? hname hstanding (keeps_pure _)
      | false =>
          rw [if_neg (by simp)]
          cases target with
          | name name =>
              have hafter : afterSimple heeded ctx env line
                  (.annotates (.name name) hint (some value)) = ended heeded [name] env :=
                bound_of_not_makesAlias hmakes
              rw [hafter]
              change Follows _ _ _ _ _ (annotatedText (rootless ctx) pipe (.name name) hint
                (some (inline heeded ctx env value)))
              rw [annotatedText_name, annotatedText_name, aliasFor?_rootless, aliasFor?_eq_none]
              · change Follows _ _ _ _ (valueText ctx pipe value >>= _)
                  (valueText (rootless ctx) pipe _ >>= _)
                exact (keeps_valueText pipe value).then fun _ =>
                  (follows_dropAliases [name] [name]).then fun _ =>
                    (keeps_ofReporting (Hint.steady_resolve _ hint)).thenPure _
              · rw [isNone_of_isSome_eq hpipe]
                exact hmakes
          | _ => exact keeps_pure _

/-- Combining a name with a value is lowered as that operation, and ends the name. -/
theorem augmentedText_name (ctx : Context) (line : Nat) (name : String) (op : BinaryOp)
    (value : Expr) :
    augmentedText ctx line (.name name) op value = (do
      let text ← lower ctx (.binary op (.name name) value)
      dropAliases [name]
      return "let " ++ name ++ " = " ++ text) :=
  rfl

/-- Combining a name that stands for something is binding it to the combination. -/
theorem follows_augments (line : Nat) {pipe : Option String}
    (hpipe : pipe.isSome = hasPipe ctx line)
    (target : Expr) (op : BinaryOp) (value : Expr)
    (hfits : Fits ctx names (.simple line (.augments target op value))) :
    Follows ctx names env
      (Tracks ctx names (afterSimple heeded ctx env line (.augments target op value)))
      (augmentedText ctx line target op value)
      (simpleText (rootless ctx) line pipe
        (inlineSimple heeded ctx env line (.augments target op value))) := by
  rw [inlineSimple]
  cases target with
  | name name =>
      have hlower := keeps_lower ctx names (.binary op (.name name) value) env
      rw [inline] at hlower
      have hafter : afterSimple heeded ctx env line (.augments (.name name) op value) =
          ended heeded [name] env := rfl
      rw [hafter]
      cases henv : env name with
      | none =>
          have hnone : (Expr.name name).name?.bind env = none := henv
          rw [inline_name_none _ ctx env henv] at hlower
          rw [hnone]
          change Follows _ _ _ _ _ (augmentedText (rootless ctx) line (.name name) op _)
          rw [augmentedText_name, augmentedText_name, lower_rootless]
          exact hlower.then fun _ => (follows_dropAliases [name] [name]).then fun _ => keeps_pure _
      | some standing =>
          have hsome : (Expr.name name).name?.bind env = some standing := henv
          obtain rfl : pipe = none := by
            have hplain : hasPipe ctx line = false := hfits.combined
            simpa [hplain] using hpipe
          rw [inline_name_some _ ctx env henv] at hlower
          rw [hsome, augmentedText_name]
          change Follows _ _ _ _ _ (lower (rootless ctx)
            (.binary op standing.expr (inline heeded ctx env value)) >>= _)
          rw [lower_rootless]
          refine hlower.then fun text => ?_
          exact (follows_dropAliases [name] [name]).then fun _ => keeps_pure _
  | _ => exact (keeps_warn ..).then fun _ => keeps_pure _

theorem afterSimple_heeded {statement : Simple} (line : Nat)
    (h : afterSimple heeded ctx env line statement =
      ended heeded (heeded.simple statement) env) :
    afterSimple heeded ctx env line statement = env := by
  rw [h]
  exact ended_heeded_nil env

/-- A simple statement gives the same text as what inlining makes of it, and after it names stand
for what the bindings say. -/
theorem follows_simpleText (line : Nat) {pipe : Option String}
    (hpipe : pipe.isSome = hasPipe ctx line) (statement : Simple)
    (hfits : Fits ctx names (.simple line statement)) :
    Follows ctx names env (Tracks ctx names (afterSimple heeded ctx env line statement))
      (simpleText ctx line pipe statement)
      (simpleText (rootless ctx) line pipe (inlineSimple heeded ctx env line statement)) := by
  cases statement with
  | assigns targets value => exact follows_assigns line hpipe targets value hfits
  | annotates target hint value => exact follows_annotates line hpipe target hint value hfits
  | augments target op value => exact follows_augments line hpipe target op value hfits
  | returns value =>
      rw [afterSimple_heeded line rfl]
      cases value with
      | none => exact keeps_pure _
      | some value => exact keeps_valueText pipe value
  | asserts test message =>
      rw [afterSimple_heeded line rfl]
      exact keeps_congruence.thenPure (keeps_lower_rootless ctx names test env) _
  | raises exception cause =>
      rw [afterSimple_heeded line rfl]
      exact keeps_congruence.failure exception
  | passes =>
      rw [afterSimple_heeded line rfl]
      exact keeps_pure _
  | evaluates value =>
      rw [afterSimple_heeded line rfl, inlineSimple, simpleText, simpleText, text?_inline]
      split
      · exact keeps_pure _
      · exact keeps_valueText pipe value
  | _ =>
      rw [afterSimple_heeded line rfl]
      exact (keeps_warn ..).then fun _ => keeps_pure _

end AikenForge.Inlining
