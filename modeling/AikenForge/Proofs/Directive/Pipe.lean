/-
# Pipe directives and pipe calls

A pipe directive writes a value and the steps it goes through in a comment, between pipe symbols.
All its parts are read before one of them is lowered. If each of them can be read, the directive
does what a call of `pipe` with these arguments does; if one cannot, it does nothing but report
that.
-/

import AikenForge.Proofs.Defect

namespace AikenForge.Lowering

open AikenForge.Source AikenForge.Text AikenForge.Inlining

/-! ## The parts of a joined text -/

/-- A text that no pipe symbol stands in. -/
def Unpiped (cs : List Char) : Prop :=
  ¬ ['|', '>'] <:+: cs

instance (cs : List Char) : Decidable (Unpiped cs) :=
  inferInstanceAs (Decidable (¬ ['|', '>'] <:+: cs))

/-- Fewer characters hold no more pipes. -/
theorem Unpiped.tail {c : Char} {cs : List Char} (h : Unpiped (c :: cs)) : Unpiped cs :=
  fun hinside => h (hinside.trans (List.suffix_cons c cs).isInfix)

/-- A blank in front makes no pipe. -/
theorem Unpiped.cons_blank {cs : List Char} (h : Unpiped cs) : Unpiped (' ' :: cs) := by
  intro hinside
  rcases List.infix_cons_iff.mp hinside with hprefix | hinside
  · exact absurd (List.cons_prefix_cons.mp hprefix).1 (by decide)
  · exact h hinside

/-- A blank behind makes no pipe. -/
theorem Unpiped.append_blank {cs : List Char} (h : Unpiped cs) : Unpiped (cs ++ [' ']) := by
  intro hinside
  rcases List.infix_concat_iff.mp hinside with hsuffix | hinside
  · obtain ⟨before, hbefore⟩ := hsuffix
    have hlast := congrArg List.getLast? hbefore
    simp at hlast
  · exact h hinside

/-- A character that starts no pipe symbol belongs to the part that is being collected. -/
theorem pipeParts_cons (current : List Char) {c : Char} {cs : List Char}
    (h : ¬ ['|', '>'] <+: c :: cs) : pipeParts current (c :: cs) = pipeParts (c :: current) cs := by
  rw [pipeParts]
  rintro rest rfl rfl
  exact h ⟨rest, rfl⟩

/-- A text without pipes is one part. -/
theorem pipeParts_of_unpiped {cs : List Char} (h : Unpiped cs) (current : List Char) :
    pipeParts current cs = [.ofList (current.reverse ++ cs)] := by
  induction cs generalizing current with
  | nil => simp [pipeParts]
  | cons c cs ih =>
      rw [pipeParts_cons current fun hprefix => h hprefix.isInfix, ih h.tail]
      simp

/-- A text is cut at the first pipe symbol. -/
theorem pipeParts_append {cs : List Char} (h : Unpiped cs) (current rest : List Char) :
    pipeParts current (cs ++ '|' :: '>' :: rest) =
      .ofList (current.reverse ++ cs) :: pipeParts [] rest := by
  induction cs generalizing current with
  | nil => simp [pipeParts]
  | cons c cs ih =>
      have hstart : ¬ ['|', '>'] <+: c :: (cs ++ '|' :: '>' :: rest) := by
        intro hprefix
        obtain ⟨rfl, hnext⟩ := List.cons_prefix_cons.mp hprefix
        cases cs with
        | nil => exact absurd (List.cons_prefix_cons.mp hnext).1 (by decide)
        | cons d cs =>
            obtain ⟨rfl, -⟩ := List.cons_prefix_cons.mp hnext
            exact h ⟨[], cs, rfl⟩
      rw [List.cons_append, pipeParts_cons current hstart, ih h.tail]
      simp

/-- A blank in front is stripped. -/
theorem strip_cons_blank (cs : List Char) : strip (.ofList (' ' :: cs)) = strip (.ofList cs) := by
  simp [strip, isBlank]

/-- A blank behind is stripped. -/
theorem strip_append_blank (cs : List Char) :
    strip (.ofList (cs ++ [' '])) = strip (.ofList cs) := by
  have hblank : isBlank ' ' = true := by decide
  simp only [strip, String.toList_ofList, List.dropWhile_append]
  split
  · rename_i hall
    simp [List.isEmpty_iff.mp hall, hblank]
  · simp [dropWhileEnd, hblank]

/-- The parts of a joined text are the texts that were joined, but for blanks around them. -/
theorem strip_pipeParts_intercalate {texts : List String} (hne : texts ≠ [])
    (h : ∀ text ∈ texts, Unpiped text.toList) :
    (pipeParts [] (" |> ".intercalate texts).toList).map strip = texts.map strip := by
  -- Each text but the first has a blank before it, which the induction carries as the text's own.
  suffices hlead : ∀ (texts : List String) (lead : List Char), Unpiped lead →
      (∀ text ∈ texts, Unpiped text.toList) →
      (pipeParts [] (" |> ".intercalate (.ofList lead :: texts)).toList).map strip =
        strip (.ofList lead) :: texts.map strip by
    obtain ⟨first, rest, rfl⟩ := List.exists_cons_of_ne_nil hne
    have hparts := hlead rest first.toList (h first List.mem_cons_self)
      fun text hmem => h text (List.mem_cons_of_mem _ hmem)
    simpa using hparts
  intro texts
  induction texts with
  | nil =>
      intro lead hfirst _
      rw [String.intercalate_singleton, String.toList_ofList, pipeParts_of_unpiped hfirst]
      rfl
  | cons text rest ih =>
      intro lead hfirst hrest
      have hnext := ih (' ' :: text.toList) (hrest text List.mem_cons_self).cons_blank
        fun other hother => hrest other (List.mem_cons_of_mem _ hother)
      have hjoin : (" |> ".intercalate (.ofList lead :: text :: rest)).toList =
          (lead ++ [' ']) ++ '|' :: '>' ::
            (" |> ".intercalate (.ofList (' ' :: text.toList) :: rest)).toList := by
        cases rest <;> simp [String.intercalate_cons_cons]
      rw [hjoin, pipeParts_append hfirst.append_blank, List.map_cons, hnext, List.reverse_nil,
        List.nil_append, strip_append_blank, strip_cons_blank, String.ofList_toList, List.map_cons]

/-! ## Reading the parts -/

section Reading

variable {state : LoweringState}

/-- A NUL is no blank, so stripping keeps it. -/
theorem mem_strip_nul {text : String} : '\x00' ∈ (strip text).toList ↔ '\x00' ∈ text.toList := by
  refine ⟨Directive.mem_strip, fun h => ?_⟩
  have hkeep {cs : List Char} (h : '\x00' ∈ cs) : '\x00' ∈ cs.dropWhile isBlank := by
    rw [← List.takeWhile_append_dropWhile (p := isBlank) (l := cs), List.mem_append] at h
    exact h.resolve_left fun hblank => absurd (List.mem_takeWhile_imp hblank) (by decide)
  rw [strip, String.toList_ofList, dropWhileEnd, List.mem_reverse]
  exact hkeep (List.mem_reverse.mpr (hkeep h))

/-- Reading a part leaves everything but the journal alone. -/
theorem outcome_directiveExpression? (text : String) (state : LoweringState) :
    ∃ journal, outcome (directiveExpression? ctx text) state =
      (if '\x00' ∈ text.toList then .error .nul else .ok (readable? ctx text),
        { state with journal }) := by
  unfold directiveExpression? readable?
  by_cases hnul : '\x00' ∈ text.toList
  · have hread : readExpression ctx.options.names (strip text) = .error .nul := by
      rw [readExpression, sourceChars_of_nul (mem_strip_nul.mpr hnul)]
      rfl
    rw [hread, if_pos hnul]
    exact ⟨state.journal, rfl⟩
  · have hread : readExpression ctx.options.names (strip text) ≠ .error .nul :=
      readExpression_ne_nul (mt mem_strip_nul.mp hnul)
    rw [if_neg hnul]
    rcases hresult : readExpression ctx.options.names (strip text) with (_ | line) | e
    · exact absurd hresult hread
    · exact ⟨_, rfl⟩
    · exact ⟨state.journal, rfl⟩

/-- So does reading parts one after the other; a NUL in one of them ends it. -/
theorem outcome_mapM_directiveExpression? (parts : List String) (state : LoweringState) :
    ∃ journal, outcome (parts.mapM (directiveExpression? ctx)) state =
      (if ∃ part ∈ parts, '\x00' ∈ part.toList then .error .nul
        else .ok (parts.map (readable? ctx)),
        { state with journal }) := by
  induction parts generalizing state with
  | nil => exact ⟨state.journal, by simp [outcome_pure]⟩
  | cons part rest ih =>
      obtain ⟨first, hfirst⟩ := outcome_directiveExpression? part state
      rw [List.mapM_cons, outcome_bind, hfirst]
      by_cases hnul : '\x00' ∈ part.toList
      · exact ⟨first, by simp [hnul]⟩
      · obtain ⟨journal, hrest⟩ := ih { state with journal := first }
        refine ⟨journal, ?_⟩
        rw [if_neg hnul]
        simp only [outcome_bind, hrest, List.mem_cons, exists_eq_or_imp, hnul, false_or]
        by_cases hlater : ∃ part ∈ rest, '\x00' ∈ part.toList
        · simp only [if_pos hlater]
        · simp only [if_neg hlater, outcome_pure, List.map_cons]

/-- Reading parts that can be read reports nothing. -/
theorem outcome_mapM_of_read {parts : List String} {es : List Expr}
    (h : List.Forall₂ (fun part e => readExpression ctx.options.names (strip part) =
      .ok e) parts es)
    (state : LoweringState) :
    outcome (parts.mapM (directiveExpression? ctx)) state = (.ok (es.map some), state) := by
  induction h with
  | nil => rfl
  | cons hpart _ ih =>
      rw [List.mapM_cons, outcome_bind, directiveExpression?, hpart]
      simp only [outcome_pure, outcome_bind, ih, List.map_cons]

end Reading

/-! ## The directive -/

/-- All of some results are there exactly if none of them is missing. -/
theorem mapM_id_eq_some_iff {found : List (Option Expr)} {es : List Expr} :
    found.mapM id = some es ↔ found = es.map some := by
  induction found generalizing es with
  | nil => cases es <;> simp
  | cons first rest ih =>
      rw [List.mapM_cons]
      constructor
      · intro h
        obtain ⟨e, hfirst, h⟩ := Option.bind_eq_some_iff.mp h
        obtain ⟨others, hrest, h⟩ := Option.bind_eq_some_iff.mp h
        obtain rfl := Option.some.inj h
        rw [List.map_cons, ← ih.mp hrest]
        exact congrArg (· :: rest) hfirst
      · intro h
        obtain _ | ⟨e, others⟩ := es
        · cases h
        · obtain ⟨hfirst, hrest⟩ := List.cons.inj h
          rw [ih.mpr hrest]
          simp [hfirst]

variable (ctx : Context) {text : String} {es : List Expr}

/-- A directive whose parts can be read does what the call of `pipe` does. -/
theorem outcome_pipeDirective?_of_read (hpipe : "pipe" ∉ ctx.scope.knownFunctions)
    (hread : List.Forall₂ (fun part e => readExpression ctx.options.names (strip part) = .ok e)
      (pipeParts [] text.toList) es)
    (hsteps : 2 ≤ es.length) (state : LoweringState) :
    outcome (pipeDirective? ctx text) state =
      outcome (some <$> lower ctx (.call (.name "pipe") es [])) state := by
  obtain ⟨first, step, steps, rfl⟩ : ∃ first step steps, es = first :: step :: steps := by
    match es, hsteps with
    | first :: step :: steps, _ => exact ⟨first, step, steps, rfl⟩
  have hcall : specialCall? ctx (.name "pipe") (first :: step :: steps) = some .pipe := by
    simp [specialCall?, Expr.name?, hpipe]
  have hparts := mapM_id_eq_some_iff.mpr (rfl : (first :: step :: steps).map some = _)
  rw [pipeDirective?, outcome_bind, outcome_mapM_of_read hread]
  simp only [hparts]
  rw [lower, hcall, map_eq_pure_bind]

/-- A directive with a part that cannot be read, or with a single part, changes nothing but the
journal. -/
theorem outcome_pipeDirective?_of_unread
    (h : (pipeParts [] text.toList).length < 2 ∨
      ∃ part ∈ pipeParts [] text.toList, readable? ctx part = none) (state : LoweringState) :
    ∃ journal, outcome (pipeDirective? ctx text) state =
      (if ∃ part ∈ pipeParts [] text.toList, '\x00' ∈ part.toList then .error .nul else .ok none,
        { state with journal }) := by
  obtain ⟨journal, hparts⟩ := outcome_mapM_directiveExpression? (pipeParts [] text.toList) state
  rw [pipeDirective?, outcome_bind, hparts]
  by_cases hnul : ∃ part ∈ pipeParts [] text.toList, '\x00' ∈ part.toList
  · exact ⟨journal, by simp only [if_pos hnul]⟩
  · simp only [if_neg hnul]
    rcases hfound : ((pipeParts [] text.toList).map (readable? ctx)).mapM id with
      _ | _ | ⟨first, _ | ⟨step, steps⟩⟩
    · exact ⟨_, rfl⟩
    · exact ⟨_, rfl⟩
    · exact ⟨_, rfl⟩
    · have hall := mapM_id_eq_some_iff.mp hfound
      rcases h with hlength | ⟨part, hpart, hunread⟩
      · have := congrArg List.length hall
        simp at this
        omega
      · have hmem := List.mem_map_of_mem (f := readable? ctx) hpart
        rw [hall, hunread] at hmem
        simp at hmem

/-- The text of a directive of source that can be read has no NUL. -/
theorem nul_notMem_directive {names : CharacterNames} {source : String} {statements : List Stmt}
    (h : readModule names source = .ok statements) {entry : Nat × List Directive}
    (hentry : entry ∈ (Directive.scan source).1) {d : Directive} (hd : d ∈ entry.2) :
    '\x00' ∉ d.text.toList := by
  intro hnul
  have hnul : readModule names source = .error .nul :=
    readModule_eq_nul_iff.mpr (Directive.text_subset_of_scan hentry hd hnul)
  rw [h] at hnul
  cases hnul

variable {ctx}

/-- A pipe directive agrees with the call of `pipe` on its parts: it gives the same text and leaves
the same state, and it fails where the call does. A directive with a single part or with a part that
cannot be read gives nothing and leaves all but the journal alone; the only failure it can meet is a
NUL, and directives of source that can be read have none. -/
theorem pipeDirective?_agrees_with_call (hpipe : "pipe" ∉ ctx.scope.knownFunctions) :
    (∀ (texts : List String) (es : List Expr) (state : LoweringState), 2 ≤ texts.length →
      (∀ text ∈ texts, Unpiped text.toList) →
      List.Forall₂ (fun text e => readExpression ctx.options.names (strip text) = .ok e) texts es →
      outcome (pipeDirective? ctx (" |> ".intercalate texts)) state =
        outcome (some <$> lower ctx (.call (.name "pipe") es [])) state) ∧
    (∀ (texts : List String) (state : LoweringState), texts ≠ [] →
      (∀ text ∈ texts, Unpiped text.toList) →
      (texts.length < 2 ∨ ∃ text ∈ texts, ∀ e,
        readExpression ctx.options.names (strip text) ≠ .ok e) →
      ∃ journal, outcome (pipeDirective? ctx (" |> ".intercalate texts)) state =
        (if ∃ text ∈ texts, '\x00' ∈ text.toList then .error .nul else .ok none,
          { state with journal })) ∧
    (∀ (source : String) (statements : List Stmt),
      readModule ctx.options.names source = .ok statements →
      ∀ entry ∈ (Directive.scan source).1, ∀ d ∈ entry.2, '\x00' ∉ d.text.toList) := by
  refine ⟨fun texts es state hsteps hplain hread => ?_, fun texts state hne hplain hunread => ?_,
    fun source statements h entry hentry d hd => nul_notMem_directive h hentry hd⟩
  · have hne : texts ≠ [] := by
      rintro rfl
      cases hsteps
    have hparts := strip_pipeParts_intercalate hne hplain
    have hstripped : List.Forall₂ (fun part e => readExpression ctx.options.names part = .ok e)
        ((pipeParts [] (" |> ".intercalate texts).toList).map strip) es := by
      rw [hparts]
      exact List.forall₂_map_left_iff.mpr hread
    exact outcome_pipeDirective?_of_read ctx hpipe (List.forall₂_map_left_iff.mp hstripped)
      (hread.length_eq ▸ hsteps) state
  · have hparts := strip_pipeParts_intercalate hne hplain
    -- What is said of the stripped texts is said of the stripped parts.
    have htransfer (p : String → Prop) : (∃ part ∈ pipeParts [] (" |> ".intercalate texts).toList,
        p (strip part)) ↔ ∃ text ∈ texts, p (strip text) := by
      have hmem := congrArg (fun parts => ∃ part ∈ parts, p part) hparts
      simpa using hmem
    have hnul : (∃ part ∈ pipeParts [] (" |> ".intercalate texts).toList, '\x00' ∈ part.toList) ↔
        ∃ text ∈ texts, '\x00' ∈ text.toList := by
      simpa only [mem_strip_nul] using htransfer fun part => '\x00' ∈ part.toList
    have hlength : (pipeParts [] (" |> ".intercalate texts).toList).length = texts.length := by
      simpa using congrArg List.length hparts
    have h : (pipeParts [] (" |> ".intercalate texts).toList).length < 2 ∨
        ∃ part ∈ pipeParts [] (" |> ".intercalate texts).toList, readable? ctx part = none := by
      refine hunread.imp (fun hshort => hlength ▸ hshort) fun ⟨text, hmem, hbad⟩ => ?_
      refine (htransfer fun part => (readExpression ctx.options.names part).toOption = none).mpr
        ⟨text, hmem, ?_⟩
      cases hread : readExpression ctx.options.names (strip text) with
      | error _ => rfl
      | ok e => exact absurd hread (hbad e)
    obtain ⟨journal, hrun⟩ := outcome_pipeDirective?_of_unread ctx h state
    simp only [hnul] at hrun
    exact ⟨journal, hrun⟩

/-- The directive `xs |> f(a)` does what the call `pipe(xs, f(a))` does, and without a step it does
nothing. -/
theorem pipeDirective?_two_parts :
    "pipe" ∉ ({} : Context).scope.knownFunctions ∧
    (∀ state, outcome (pipeDirective? {} "xs |> f(a)") state =
      outcome (some <$> lower {} (.call (.name "pipe")
        [.name "xs", .call (.name "f") [.name "a"] []] [])) state) ∧
    (∀ state, ∃ journal,
      outcome (pipeDirective? {} "xs |> ") state = (.ok none, { state with journal })) := by
  have hpipe : "pipe" ∉ ({} : Context).scope.knownFunctions := by decide
  obtain ⟨hagree, hnothing, -⟩ := pipeDirective?_agrees_with_call hpipe
  refine ⟨hpipe, fun state => ?_, fun state => ?_⟩
  · exact hagree ["xs", "f(a)"] _ state (by decide) (by decide) (.cons rfl (.cons rfl .nil))
  · have hunread : readExpression ({} : Context).options.names (strip "") =
      .error (.malformed 1) := rfl
    simpa using hnothing ["xs", ""] state (by decide) (by decide)
      (.inr ⟨"", by decide, fun e h => nomatch hunread.symm.trans h⟩)

end AikenForge.Lowering
