/-
# Lowering with and without expect directives

The same source is lowered twice, with its directives and with the expect directives taken out of
them. A successful run of the first is followed by a run of the second: the states agree on what
lowering looks at, and the first adds the expectations that the second adds, and those of its
checks. The rules by which this passes through sequences are stated once, and each small computation
is compared with itself.
-/

import AikenForge.Proofs.Expectation.Insertion
import AikenForge.Proofs.Relocated
import AikenForge.Proofs.Steady

namespace AikenForge.Expectation

open AikenForge.Source AikenForge.Text AikenForge.Lowering

variable {α β : Type}

/-- A run records further expectations. -/
def Adds (before after : LoweringState) (added : List ExpectExpression) : Prop :=
  after.records.expects = before.records.expects ++ added

/-- Checks that were added one after the other. -/
theorem Adds.trans {before between after : LoweringState} {first second : List ExpectExpression}
    (h : Adds before between first) (h' : Adds between after second) :
    Adds before after (first ++ second) := by
  unfold Adds at *
  rw [h', h, List.append_assoc]

/-- Every successful run of a computation is followed by one of another, from alike states to alike
states. The values are related together with the checks that the first run makes, and up to order it
records what the other records, and what its checks record. -/
def Follows (action bare : Lowering α) (related : α → α → List Check → Prop) : Prop :=
  ∀ s t value s', Alike s t → Yields action s value s' →
    ∃ bareValue t' checks added bareAdded, Yields bare t bareValue t' ∧ Alike s' t' ∧
      related value bareValue checks ∧ Adds s s' added ∧ Adds t t' bareAdded ∧
      added.Perm (bareAdded ++ checks.flatMap Check.records)

/-! ## Composition -/

section Composition

variable {related : α → α → List Check → Prop} {onward : β → β → List Check → Prop}

/-- Values that are related without a check. -/
theorem follows_pure {value bareValue : α} (h : related value bareValue []) :
    Follows (pure value) (pure bareValue) related := by
  intro s t result s' hst hrun
  obtain ⟨rfl, rfl⟩ := yields_pure.mp hrun
  exact ⟨bareValue, t, [], [], [], yields_pure.mpr ⟨rfl, rfl⟩, hst, h,
    by simp [Adds], by simp [Adds],
    by simp⟩

/-- One thing after another; the checks of both are put together. -/
theorem Follows.bind {action bare : Lowering α} {next bareNext : α → Lowering β}
    (h : Follows action bare related)
    (hnext : ∀ value bareValue checks, Reaches bare bareValue → related value bareValue checks →
      Follows (next value) (bareNext bareValue)
        fun result bareResult further => onward result bareResult (checks ++ further)) :
    Follows (action >>= next) (bare >>= bareNext) onward := by
  intro s t result s'' hst hrun
  obtain ⟨value, s', hvalue, hresult⟩ := yields_bind.mp hrun
  obtain ⟨bareValue, t', checks, added, bareAdded, hbare, hst', hrelated, hadds,
      hbareAdds, hperm⟩ :=
    h s t value s' hst hvalue
  obtain ⟨bareResult, t'', further, added', bareAdded', hbare', hst'', honward, hadds', hbareAdds',
    hperm'⟩ := hnext value bareValue checks ⟨t, t', hbare⟩ hrelated s' t' result s'' hst' hresult
  refine ⟨bareResult, t'', checks ++ further, added ++ added', bareAdded ++ bareAdded',
    yields_bind.mpr ⟨bareValue, t', hbare, hbare'⟩, hst'', honward, hadds.trans hadds',
    hbareAdds.trans hbareAdds', (hperm.append hperm').trans ?_⟩
  -- What the first part checks passes over what the second part records anyway.
  have hswap : (checks.flatMap Check.records ++ bareAdded').Perm
      (bareAdded' ++ checks.flatMap Check.records) := List.perm_append_comm
  simpa using (hswap.append_right (further.flatMap Check.records)).append_left bareAdded

/-- A last step that only puts the value together. -/
theorem Follows.bind_pure {action bare : Lowering α} {make bareMake : α → β}
    (h : Follows action bare related)
    (hmake : ∀ value bareValue checks, related value bareValue checks →
      onward (make value) (bareMake bareValue) checks) :
    Follows (action >>= fun value => pure (make value)) (bare >>= fun value =>
      pure (bareMake value))
      onward := by
  refine h.bind fun value bareValue checks _ hrelated => follows_pure ?_
  rw [List.append_nil]
  exact hmake value bareValue checks hrelated

/-- A weaker relation of values is enough. -/
theorem Follows.mono {action bare : Lowering α} {weaker : α → α → List Check → Prop}
    (h : Follows action bare related)
    (hweaker : ∀ value bareValue checks, related value bareValue checks →
      weaker value bareValue checks) : Follows action bare weaker := by
  intro s t value s' hst hrun
  obtain ⟨bareValue, t', checks, added, bareAdded, hbare, hst', hrelated, hrest⟩ :=
    h s t value s' hst hrun
  exact ⟨bareValue, t', checks, added, bareAdded, hbare, hst', hweaker _ _ _ hrelated, hrest⟩

/-- A value put together on both sides. -/
theorem Follows.map {action bare : Lowering α} (f : α → β)
    (h : Follows action bare fun value bareValue checks => onward (f value) (f bareValue) checks) :
    Follows (f <$> action) (f <$> bare) onward := by
  rw [map_eq_pure_bind, map_eq_pure_bind]
  exact h.bind_pure fun _ _ _ hrelated => hrelated

/-- A block restores the aliases on both sides. -/
theorem Follows.inBlock {action bare : Lowering α} (h : Follows action bare related) :
    Follows (Lowering.inBlock action) (Lowering.inBlock bare) related := by
  intro s t value s' hst hrun
  obtain ⟨inside, hinside, rfl⟩ := yields_withAliases.mp hrun
  obtain ⟨bareValue, t', checks, added, bareAdded, hbare, hst', hrelated, hadds,
      hbareAdds, hperm⟩ :=
    h _ _ value inside hst hinside
  exact ⟨bareValue, { t' with aliases := t.aliases }, checks, added, bareAdded,
    yields_withAliases.mpr ⟨t', hbare, rfl⟩, ⟨hst.aliases, hst'.mappings⟩, hrelated, hadds,
      hbareAdds,
    hperm⟩

end Composition

/-- The same value on both sides, without checks. -/
def Same (value bareValue : α) (checks : List Check) : Prop :=
  value = bareValue ∧ checks = []

/-- After a computation that is the same on both sides. -/
theorem Follows.same_bind {action bare : Lowering α} {next bareNext : α → Lowering β}
    {onward : β → β → List Check → Prop} (h : Follows action bare Same)
    (hnext : ∀ value, Follows (next value) (bareNext value) onward) :
    Follows (action >>= next) (bare >>= bareNext) onward := by
  refine h.bind fun value bareValue checks _ hsame => ?_
  obtain ⟨rfl, rfl⟩ := hsame
  exact hnext value

/-- A steady computation that succeeds leaves the state alike and only adds records. -/
theorem adds_of_steady {action : Lowering α} (h : Steady action) {s s' : LoweringState} {value : α}
    (hrun : Yields action s value s') : Alike s s' ∧ ∃ added, Adds s s' added := by
  obtain ⟨result, added, _, _, hs, -, halike, -, hrecords, -⟩ := h s s (.refl s)
  obtain ⟨-, rfl⟩ := Prod.mk.inj (hs.symm.trans hrun)
  refine ⟨halike, added.expects, ?_⟩
  unfold Adds
  rw [hrecords]
  rfl

/-- Whatever lowering is composed of follows itself, with the same value and without checks. -/
theorem follows_of_composed {action : Lowering α} (h : Composed .block action) :
    Follows action action Same := by
  intro s t value s' hst hrun
  obtain ⟨result, added, _, t', hs, ht, hst', -, hrs, hrt⟩ := h.uniform s t hst
  obtain ⟨rfl, rfl⟩ := Prod.mk.inj (hs.symm.trans hrun)
  refine ⟨value, t', [], added.expects, added.expects, ht, hst', ⟨rfl, rfl⟩, ?_, ?_, by simp⟩
  · unfold Adds
    rw [hrs]
    rfl
  · unfold Adds
    rw [hrt]
    rfl

/-- Changes of the state that keep it alike and leave the expectations alone. -/
theorem follows_modify {change bareChange : LoweringState → LoweringState}
    (hlike : ∀ s t, Alike s t → Alike (change s) (bareChange t))
    (hkeeps : ∀ s, (change s).records.expects = s.records.expects)
    (hbareKeeps : ∀ s, (bareChange s).records.expects = s.records.expects) :
    Follows (modify change) (modify bareChange) Same := by
  intro s t value s' hst hrun
  obtain rfl := yields_modify.mp hrun
  refine ⟨(), bareChange t, [], [], [], yields_modify.mpr rfl, hlike s t hst, ⟨rfl, rfl⟩, ?_, ?_,
    by simp⟩
  · simp [Adds, hkeeps]
  · simp [Adds, hbareKeeps]

/-- Both sides record a `when`, and neither records an expectation by it. -/
theorem follows_recordWhen (e bare : WhenExpression) :
    Follows (recordWhen e) (recordWhen bare) Same :=
  follows_modify (fun _ _ h => ⟨h.aliases, h.mappings⟩) (fun _ => rfl) fun _ => rfl

/-- A report that is made on one side only. -/
theorem follows_warn_pure (channel : Channel) (message : String) :
    Follows (warn channel message) (pure ()) Same :=
  @follows_modify _ id (fun _ _ h => ⟨h.aliases, h.mappings⟩) (fun _ => rfl) fun _ => rfl

/-! ## What expect directives do not change -/

variable (ctx : Context)

/-- The directives of a line without its expectations. -/
theorem onLine_withoutExpects (line : Nat) :
    (withoutExpects ctx).directives.onLine line =
      (ctx.directives.onLine line).filter fun directive => directive.kind ≠ .expect := by
  unfold withoutExpects DirectiveTable.onLine
  induction ctx.directives with
  | nil => rfl
  | cons entry table ih =>
      obtain ⟨bound, directives⟩ := entry
      simp only [List.map_cons, List.lookup_cons]
      cases line == bound with
      | true => rfl
      | false => exact ih

/-- No other kind of directive is left out. -/
theorem ofKind_withoutExpects {kind : DirectiveKind} (h : kind ≠ .expect) (line : Nat) :
    (withoutExpects ctx).directives.ofKind line kind = ctx.directives.ofKind line kind := by
  unfold DirectiveTable.ofKind
  rw [onLine_withoutExpects, List.filter_filter]
  refine List.filter_congr fun directive _ => ?_
  by_cases hkind : directive.kind = kind
  · simp [hkind, h]
  · simp [hkind]

theorem ofKind_expect_withoutExpects (line : Nat) :
    (withoutExpects ctx).directives.ofKind line .expect = [] := by
  unfold DirectiveTable.ofKind
  rw [onLine_withoutExpects, List.filter_filter, List.filter_eq_nil_iff]
  intro directive _
  simp

@[simp]
theorem whenSubject?_withoutExpects (line : Nat) :
    whenSubject? (withoutExpects ctx) line = whenSubject? ctx line :=
  whenSubject?_relocate _ (ofKind_withoutExpects ctx (by decide) line)

@[simp]
theorem continuesChain_withoutExpects (statements : List Stmt) :
    continuesChain (withoutExpects ctx) statements = continuesChain ctx statements :=
  continuesChain_relocate _ fun _ _ => ofKind_withoutExpects ctx (by decide) _

@[simp]
theorem isGuard_withoutExpects (statement : Stmt) :
    isGuard (withoutExpects ctx) statement = isGuard ctx statement :=
  isGuard_relocate _ (ofKind_withoutExpects ctx (by decide) _)

@[simp]
theorem lower_withoutExpects : lower (withoutExpects ctx) = lower ctx :=
  lower_relocate ctx _ _

theorem lowerPattern_withoutExpects (pattern : Pattern) :
    lowerPattern (withoutExpects ctx) pattern = lowerPattern ctx pattern :=
  lowerPattern_relocate ctx _ _ pattern

theorem pipeLine?_withoutExpects (line : Nat) :
    pipeLine? (withoutExpects ctx) line = pipeLine? ctx line :=
  pipeLine?_relocate _ (ofKind_withoutExpects ctx (by decide) line)

theorem subjectText_withoutExpects (text : String) :
    subjectText (withoutExpects ctx) text = subjectText ctx text :=
  congrFun (subjectText_relocate ctx _ _) text

theorem simpleText_withoutExpects : simpleText (withoutExpects ctx) = simpleText ctx := by
  have hoptions : (withoutExpects ctx).options = ctx.options := rfl
  funext line pipe statement
  exact eq_congruence.simple hoptions line pipe
    (fun e _ => congrFun (lower_withoutExpects ctx) e) fun _ _ => rfl

/-! ## The checks of directives -/

/-- Two parts of what a line is asked for. -/
theorem Answers.append {ctx : Context} {line : Nat} {first second : List Expr}
    {checks further : List Check} (h : Answers ctx line first checks)
    (h' : Answers ctx line second further) :
    Answers ctx line (first ++ second) (checks ++ further) := by
  refine ⟨?_, ?_, ?_⟩
  · intro check hmem
    exact (List.mem_append.mp hmem).elim (h.lines check) (h'.lines check)
  · rw [List.map_append, h.sources, h'.sources]
  · intro check hmem
    exact (List.mem_append.mp hmem).elim (h.sound check) (h'.sound check)

/-- Texts are the lines of the checks that directives of a line ask for, and there are none on the
other side, as far as texts are not empty. -/
structure Writes (ctx : Context) (line : Nat) (expressions : List Expr)
    (texts bareTexts : List String) (checks : List Check) : Prop where
  answers : Answers ctx line expressions checks
  texts : (texts.filter fun text => !text.isEmpty) = checks.map (Check.text ctx)
  bare : (bareTexts.filter fun text => !text.isEmpty) = []

/-- Texts of one line, and of its checks. -/
theorem Writes.append {ctx : Context} {line : Nat} {first second : List Expr}
    {texts bareTexts furtherTexts bareFurther : List String} {checks further : List Check}
    (h : Writes ctx line first texts bareTexts checks)
    (h' : Writes ctx line second furtherTexts bareFurther further) :
    Writes ctx line (first ++ second) (texts ++ furtherTexts) (bareTexts ++ bareFurther)
      (checks ++ further) := by
  refine ⟨h.answers.append h'.answers, ?_, ?_⟩
  · rw [List.filter_append, h.texts, h'.texts, List.map_append]
  · rw [List.filter_append, h.bare, h'.bare, List.append_nil]

theorem writes_nil (line : Nat) : Writes ctx line [] [] [] [] :=
  ⟨⟨by simp, rfl, by simp⟩, rfl, rfl⟩

/-- A text that is empty on both sides. -/
theorem writes_empty (line : Nat) : Writes ctx line [] [""] [""] [] :=
  ⟨⟨by simp, rfl, by simp⟩, rfl, rfl⟩

/-- An expect directive that can be read makes one check, and one that cannot makes none. -/
theorem follows_expectDirective (line : Nat) {directive : Directive}
    (h : directive.kind = .expect) :
    Follows (expectDirective ctx directive.text) (pure "") fun text bare checks =>
      Writes ctx line (expectation? ctx directive).toList [text] [bare] checks := by
  unfold expectDirective directiveExpression? expectation?
  rw [if_pos h]
  split
  · rename_i e hread
    intro s t text s'' hst hrun
    rw [pure_bind] at hrun
    obtain ⟨expression, s', hlower, hexpect⟩ := yields_bind.mp hrun
    obtain ⟨_, _, hrecord, hpure⟩ := yields_bind.mp hexpect
    obtain rfl := yields_modify.mp hrecord
    obtain ⟨rfl, rfl⟩ := yields_pure.mp hpure
    obtain ⟨halike, inner, hadds⟩ := adds_of_steady (steady_lower ctx _) hlower
    let check : Check := ⟨line, e, ⟨expression, (splitExpectation e).2⟩, inner⟩
    have hsound : check.Sound ctx := ⟨rfl, s, s', hlower, hadds⟩
    have hanswers : Answers ctx line [e] [check] :=
      ⟨by simp [check], rfl, by simpa using hsound⟩
    refine ⟨"", t, [check], inner ++ [check.record], [], yields_pure.mpr ⟨rfl, rfl⟩,
      ⟨halike.aliases.symm.trans hst.aliases, halike.mappings.symm.trans hst.mappings⟩,
      ⟨?_, ?_, rfl⟩, ?_, by simp [Adds], by simp [Check.records, check]⟩
    · rw [hread]
      exact hanswers
    · have hline : ([check.text ctx].filter fun text => !text.isEmpty) = [check.text ctx] := by
        simp [check.text_ne ctx]
      exact hline
    · change s'.records.expects ++ [check.record] = _
      rw [hadds, List.append_assoc]
  · intro s t text s' _ hrun
    exact absurd (yields_bind.mp hrun) (by simp)
  · rename_i hread
    rw [hread, bind_assoc]
    change Follows _ (pure () >>= fun _ => pure "") _
    exact (follows_warn_pure _ _).same_bind fun _ => follows_pure (writes_empty ctx line)

/-- The texts of directives that stand on one line, where those that expect something are left out
on the other side. -/
theorem follows_mapM_directives {write bareWrite : Directive → Lowering String} (line : Nat)
    (directives : List Directive)
    (hexpect : ∀ directive ∈ directives, directive.kind = .expect →
      Follows (write directive) (pure "") fun text bare checks =>
        Writes ctx line (expectation? ctx directive).toList [text] [bare] checks)
    (hother : ∀ directive ∈ directives, directive.kind ≠ .expect →
      Follows (write directive) (bareWrite directive) fun text bare checks =>
        Writes ctx line (expectation? ctx directive).toList [text] [bare] checks) :
    Follows (directives.mapM write)
      ((directives.filter fun directive => directive.kind ≠ .expect).mapM bareWrite)
      (Writes ctx line (directives.filterMap (expectation? ctx))) := by
  induction directives with
  | nil => exact follows_pure (writes_nil ctx line)
  | cons directive directives ih =>
      have hsources : (directive :: directives).filterMap (expectation? ctx) =
          (expectation? ctx directive).toList ++ directives.filterMap (expectation? ctx) := by
        rw [List.filterMap_cons]
        cases expectation? ctx directive <;> rfl
      specialize ih (fun other hmem => hexpect other (List.mem_cons_of_mem _ hmem))
        (fun other hmem => hother other (List.mem_cons_of_mem _ hmem))
      rw [List.mapM_cons, hsources]
      by_cases hkind : directive.kind = .expect
      · rw [List.filter_cons_of_neg (by simpa using hkind)]
        generalize (directives.filter _).mapM bareWrite = bareRest at ih ⊢
        rw [show bareRest = pure "" >>= fun _ => bareRest >>= pure by rw [pure_bind, bind_pure]]
        refine (hexpect directive List.mem_cons_self hkind).bind fun text bare checks _ hfirst => ?_
        refine ih.bind_pure fun texts bareTexts further hrest => ?_
        have happend := hfirst.append hrest
        exact ⟨happend.answers, happend.texts, hrest.bare⟩
      · rw [List.filter_cons_of_pos (by simpa using hkind), List.mapM_cons]
        refine (hother directive List.mem_cons_self hkind).bind fun text bare checks _ hfirst => ?_
        refine ih.bind_pure fun texts bareTexts further hrest => ?_
        exact hfirst.append hrest

/-- The expect directives of a line make one check for each expectation of the line. -/
theorem follows_expectLines (line : Nat) :
    Follows (expectLines ctx line) (expectLines (withoutExpects ctx) line)
      fun lines bareLines checks =>
      Answers ctx line (expectations ctx line) checks ∧
        lines = checks.map (Check.text ctx) ∧ bareLines = [] := by
  have hbare : (withoutExpects ctx).directives.ofKind line .expect =
      (ctx.directives.ofKind line .expect).filter fun directive => directive.kind ≠ .expect := by
    rw [ofKind_expect_withoutExpects, DirectiveTable.ofKind, List.filter_filter]
    symm
    rw [List.filter_eq_nil_iff]
    intro directive _
    simp
  have hsources : (ctx.directives.ofKind line .expect).filterMap (expectation? ctx) =
      expectations ctx line := by
    rw [DirectiveTable.ofKind, List.filterMap_filter, expectations]
    congr 1
    funext directive
    by_cases hkind : directive.kind = .expect
    · simp [hkind]
    · simp [hkind, expectation?]
  unfold expectLines
  rw [hbare]
  refine (follows_mapM_directives ctx line (ctx.directives.ofKind line .expect)
    (fun _ _ hkind => follows_expectDirective ctx line hkind) ?_).bind_pure ?_
  · intro directive hmem hkind
    exact absurd (by simpa using (List.mem_filter.mp hmem).2) hkind
  · intro texts bareTexts checks hwrites
    rw [hsources] at hwrites
    exact ⟨hwrites.answers, hwrites.texts, hwrites.bare⟩

end AikenForge.Expectation
