/-
# When a clause keeps its guard

A clause of a dispatch is written with its guard unless the text of the guard is empty, and then it
matches whatever its pattern matches. Not every expression has a text. The module says which ones
have none, from the aliases in force, and so which clauses lose their guards: exactly those whose
guards are such expressions. The aliases in force are the same for all clauses of one dispatch,
because patterns and guards are expressions and the bodies of clauses are blocks.
-/

import Mathlib.Data.List.Forall2
import AikenForge.Proofs.Blank
import AikenForge.Proofs.Frame

namespace AikenForge.Guard

open AikenForge.Source AikenForge.Lowering AikenForge.Text

/-- A computation gives empty texts only, or none that is empty. -/
def EmptyIff (empty : Bool) (action : Lowering String) : Prop :=
  ∀ ⦃before text after⦄, Yields action before text after → (text = "" ↔ empty = true)

/-- A text that is given at once is empty or not. -/
theorem emptyIff_pure {text : String} {empty : Bool} (h : text = "" ↔ empty = true) :
    EmptyIff empty (pure text) := by
  intro before result after hrun
  obtain ⟨rfl, -⟩ := yields_pure.mp hrun
  exact h

/-- A failure gives no text, so nothing is claimed of it. -/
theorem emptyIff_throw (empty : Bool) (failure : Failure) : EmptyIff empty (throw failure) :=
  fun _ _ _ hrun => absurd hrun not_yields_throw

/-- The last part of a sequence decides. -/
theorem emptyIff_bind {α : Type} (action : Lowering α) {next : α → Lowering String} {empty : Bool}
    (h : ∀ value, EmptyIff empty (next value)) : EmptyIff empty (action >>= next) := by
  intro before text after hrun
  obtain ⟨value, between, -, hnext⟩ := yields_bind.mp hrun
  exact h value hnext

/-- Nothing is written of what is only warned of. -/
theorem emptyIff_warn (channel : Channel) (message : String) :
    EmptyIff true (do warn channel message; return "") :=
  emptyIff_bind _ fun _ => emptyIff_pure (by simp)

/-- A form that is not supported has an empty text. -/
theorem emptyIff_unsupported (what kind : String) : EmptyIff true (unsupported what kind) :=
  emptyIff_warn _ _

/-- Digits are never empty. -/
theorem emptyIff_integerText (n : Nat) : EmptyIff false (integerText n) := by
  unfold integerText
  split
  · rename_i text hdecimal
    refine emptyIff_pure ?_
    unfold Number.decimalText? at hdecimal
    split at hdecimal
    · obtain rfl := Option.some.inj hdecimal
      simp [Nat.toDigits_ne_nil]
    · cases hdecimal
  · exact emptyIff_throw _ _

/-- A constant has a text, whatever it is. -/
theorem emptyIff_constantText (value : Constant) :
    EmptyIff (isBlank {} [] (.constant value)) (constantText value) := by
  unfold constantText
  split
  case h_5 => exact emptyIff_pure (by simp [quotePoints, isBlank])
  case h_7 => exact emptyIff_integerText _
  case h_8 x =>
    extract_lets truncated
    have hinteger (u : Unit) : EmptyIff false (truncated u) := by
      dsimp only [truncated]
      split
      · exact emptyIff_integerText _
      · exact emptyIff_throw _ _
    split
    · exact emptyIff_bind _ hinteger
    · exact hinteger ()
  case h_9 => exact emptyIff_bind _ fun _ => emptyIff_pure (by simp [isBlank])
  all_goals exact emptyIff_pure (by simp [isBlank])

/-- An operand is empty only if its text is, and no brackets are put around it. -/
theorem emptyIff_bracketOperand {own place : Precedence} {text : String} {empty : Bool}
    (h : text = "" ↔ empty = true) :
    bracketOperand own place false text = "" ↔
      (decide (own.rank ≥ place.rank) && empty) = true := by
  unfold bracketOperand isBracketed
  by_cases hrank : own.rank < place.rank
  · simp [hrank, Nat.not_le.mpr hrank]
  · simp [hrank, Nat.not_lt.mp hrank, h]

/-- A pipe with a step is a call. -/
theorem render_pipe_ne (initial : String) {operations : List PipeOperation} (h : operations ≠ []) :
    PipeExpression.render ⟨initial, operations⟩ ≠ "" := by
  obtain ⟨first, last, rfl⟩ := List.eq_nil_or_concat operations |>.resolve_left h
  simp [PipeExpression.render, PipeOperation.apply]

/-- With a condition a comprehension has a text. -/
theorem foldl_filterText_ne (target source : String) {conditions : List String}
    (h : conditions ≠ []) : conditions.foldl (filterText target) source ≠ "" := by
  obtain ⟨first, last, rfl⟩ := List.eq_nil_or_concat conditions |>.resolve_left h
  rw [List.concat_eq_append, List.foldl_concat]
  -- The equation of `filterText` is slow to make: its literals are compared by evaluation.
  delta filterText
  simp

/-- A pipe has operations exactly if it has steps. -/
theorem length_lowerSteps {ctx : Context} {steps : List Expr} {operations : List PipeOperation}
    {before after : LoweringState} (h : Yields (lowerSteps ctx steps) before operations after) :
    operations = [] ↔ steps = [] := by
  match steps with
  | [] =>
      obtain ⟨rfl, -⟩ := yields_pure.mp h
      simp
  | step :: rest =>
      have hcons : ∃ first others, operations = first :: others := by
        cases step with
        | call callee args keywords =>
            obtain ⟨_, _, -, h⟩ := yields_bind.mp h
            obtain ⟨_, _, -, h⟩ := yields_bind.mp h
            obtain ⟨_, _, -, h⟩ := yields_bind.mp h
            obtain ⟨_, _, -, h⟩ := yields_bind.mp h
            exact ⟨_, _, (yields_pure.mp h).1.symm⟩
        | _ =>
            obtain ⟨_, _, -, h⟩ := yields_bind.mp h
            obtain ⟨_, _, -, h⟩ := yields_bind.mp h
            exact ⟨_, _, (yields_pure.mp h).1.symm⟩
      obtain ⟨first, others, rfl⟩ := hcons
      simp

/-- There is a text for every expression. -/
theorem length_lowerAll {ctx : Context} {items : List Expr} {texts : List String}
    {before after : LoweringState} (h : Yields (lowerAll ctx items) before texts after) :
    texts = [] ↔ items = [] := by
  cases items with
  | nil =>
      obtain ⟨rfl, -⟩ := yields_pure.mp h
      simp
  | cons item rest =>
      obtain ⟨_, _, -, h⟩ := yields_bind.mp h
      obtain ⟨_, _, -, h⟩ := yields_bind.mp h
      obtain ⟨rfl, -⟩ := yields_pure.mp h
      simp

/-- Whether an expression is blank decides whether its text is empty. -/
def Decided (ctx : Context) (e : Expr) : Prop :=
  ∀ ⦃before text after⦄, Yields (lower ctx e) before text after →
    (text = "" ↔ isBlank ctx before.aliases e = true)

variable (ctx : Context)

/-- A name is empty by its alias only. -/
theorem decided_name (id : String) : Decided ctx (.name id) := by
  intro before text after h
  obtain ⟨state, _, hget, h⟩ := yields_bind.mp h
  obtain ⟨rfl, rfl⟩ := yields_get.mp hget
  rw [isBlank]
  cases hfind : before.aliases.find? id with
  | some standing =>
      rw [hfind] at h
      obtain ⟨rfl, -⟩ := yields_pure.mp h
      simp
  | none =>
      rw [hfind] at h
      obtain ⟨rfl, -⟩ := yields_pure.mp h
      simp [plainName]

/-- An attribute has at least its dot. -/
theorem decided_attribute (value : Expr) (label : String) :
    Decided ctx (.attribute value label) := by
  intro before text after h
  rw [lower] at h
  rw [isBlank]
  cases hmember : enumMember? ctx value label with
  | some constructor =>
      rw [hmember] at h
      obtain ⟨rfl, -⟩ := yields_pure.mp h
      simp
  | none =>
      rw [hmember] at h
      obtain ⟨state, _, hget, h⟩ := yields_bind.mp h
      obtain ⟨rfl, rfl⟩ := yields_get.mp hget
      dsimp only at h ⊢
      split at h
      · rename_i hself
        obtain ⟨rfl, -⟩ := yields_pure.mp h
        simp [hself]
      · rename_i hself
        obtain ⟨_, _, -, h⟩ := yields_bind.mp h
        obtain ⟨rfl, -⟩ := yields_pure.mp h
        simp [hself]

/-- A connective writes something between two operands; a single one passes its text on. -/
theorem decided_boolean (op : BoolOp) {values : List Expr}
    (hvalue : ∀ value, values = [value] → Decided ctx value) :
    Decided ctx (.boolean op values) := by
  intro before text after h
  rw [lower] at h
  obtain ⟨texts, _, htexts, h⟩ := yields_bind.mp h
  obtain ⟨rfl, -⟩ := yields_pure.mp h
  cases values with
  | nil =>
      obtain ⟨rfl, -⟩ := yields_pure.mp htexts
      simp [isBlank]
  | cons value others =>
      obtain ⟨own, _, hown, htexts⟩ := yields_bind.mp htexts
      obtain ⟨more, _, hmore, htexts⟩ := yields_bind.mp htexts
      obtain ⟨rfl, -⟩ := yields_pure.mp htexts
      cases others with
      | nil =>
          obtain ⟨rfl, -⟩ := yields_pure.mp hmore
          rw [String.intercalate_singleton, isBlank]
          exact emptyIff_bracketOperand (hvalue value rfl hown)
      | cons second rest =>
          obtain ⟨two, _, -, hmore⟩ := yields_bind.mp hmore
          obtain ⟨remaining, _, -, hmore⟩ := yields_bind.mp hmore
          obtain ⟨rfl, -⟩ := yields_pure.mp hmore
          cases op <;> simp [isBlank]

/-- A comparison writes its operator. -/
theorem emptyIff_comparisonText (op : CompareOp) (leftOwn rightOwn : Precedence)
    (left right : Lowering String) :
    EmptyIff false (comparisonText op leftOwn left rightOwn right) := by
  unfold comparisonText
  split
  · exact emptyIff_bind _ fun _ => emptyIff_bind _ fun _ => emptyIff_pure (by simp)
  · refine emptyIff_bind _ fun _ => emptyIff_bind _ fun _ => emptyIff_pure ?_
    split <;> simp

/-- A chain of comparisons has a text. -/
theorem decided_compare (left : Expr) (links : List Link) : Decided ctx (.compare left links) := by
  intro before text after h
  rw [lower] at h
  obtain ⟨texts, _, htexts, h⟩ := yields_bind.mp h
  obtain ⟨rfl, -⟩ := yields_pure.mp h
  cases links with
  | nil =>
      obtain ⟨rfl, -⟩ := yields_pure.mp htexts
      simp [isBlank]
  | cons link rest =>
      obtain ⟨op, right⟩ := link
      obtain ⟨first, _, hfirst, htexts⟩ := yields_bind.mp htexts
      obtain ⟨others, _, -, htexts⟩ := yields_bind.mp htexts
      obtain ⟨rfl, -⟩ := yields_pure.mp htexts
      have hne : first ≠ "" := by simpa using emptyIff_comparisonText _ _ _ _ _ hfirst
      cases others <;> simp [isBlank, hne]

/-- A call writes its brackets, unless it is a pipe without steps. -/
theorem decided_call (callee : Expr) {args : List Expr} (keywords : List Keyword)
    (hvalue : ∀ value, args = [value] → Decided ctx value) :
    Decided ctx (.call callee args keywords) := by
  intro before text after h
  rw [lower] at h
  rw [isBlank_call]
  cases hcall : specialCall? ctx callee args with
  | none =>
      rw [hcall] at h
      change text = "" ↔ false = true
      refine emptyIff_bind _ (fun name => ?_) h
      split
      · exact emptyIff_bind _ fun _ => emptyIff_pure (by simp [bracedFields])
      · exact emptyIff_bind _ fun _ => emptyIff_bind _ fun _ => emptyIff_pure (by simp)
  | some special =>
      cases args with
      | nil => simp [specialCall?_nil] at hcall
      | cons value steps =>
          rw [hcall] at h
          cases special with
          | expect =>
              change text = "" ↔ false = true
              refine emptyIff_bind _ (fun _ => emptyIff_bind _ fun _ => emptyIff_bind _ fun _ =>
                emptyIff_pure ?_) h
              simp [ExpectExpression.render]
          | pipe =>
              obtain ⟨initial, _, hinitial, h⟩ := yields_bind.mp h
              obtain ⟨operations, _, hsteps, h⟩ := yields_bind.mp h
              obtain ⟨_, _, -, h⟩ := yields_bind.mp h
              obtain ⟨rfl, -⟩ := yields_pure.mp h
              cases steps with
              | nil =>
                  obtain ⟨rfl, -⟩ := yields_pure.mp hsteps
                  exact hvalue value rfl hinitial
              | cons step steps =>
                  have hne : operations ≠ [] := fun hnil => by
                    simpa using (length_lowerSteps hsteps).mp hnil
                  simpa using render_pipe_ne initial hne

/-- A copy of a list passes its text on, and anything else has a text. -/
theorem decided_listComprehension (element : Expr) (target : String) {iterable : Expr}
    (conditions : List Expr) (isAsync : Bool) (hiterable : Decided ctx iterable) :
    Decided ctx (.comprehension .list element [.mk (.name target) iterable conditions
      isAsync]) := by
  intro before text after h
  rw [lower] at h
  obtain ⟨source, _, hsource, h⟩ := yields_bind.mp h
  obtain ⟨inside, h, -⟩ := yields_withAliases.mp h
  obtain ⟨filters, _, hfilters, h⟩ := yields_bind.mp h
  rw [isBlank]
  split at h
  · rename_i helement
    obtain ⟨rfl, -⟩ := yields_pure.mp h
    cases conditions with
    | nil =>
        obtain ⟨rfl, -⟩ := yields_pure.mp hfilters
        simpa [helement] using hiterable hsource
    | cons condition conditions =>
        have hne : filters ≠ [] := fun hnil => by simpa using (length_lowerAll hfilters).mp hnil
        simpa using foldl_filterText_ne target source hne
  · rename_i helement
    obtain ⟨mapped, _, -, h⟩ := yields_bind.mp h
    obtain ⟨rfl, -⟩ := yields_pure.mp h
    simp [helement]

/-- Where the aliases do not matter, the form alone decides. -/
theorem decided_of_emptyIff {e : Expr} {empty : Bool}
    (hblank : ∀ aliases, isBlank ctx aliases e = empty) (h : EmptyIff empty (lower ctx e)) :
    Decided ctx e := by
  intro before text after hrun
  rw [hblank]
  exact h hrun

/-- Whether the text of an expression is empty is told from the expression and the aliases. -/
theorem decided : ∀ e : Expr, Decided ctx e
  | .name id => decided_name ctx id
  | .constant value => by
      refine decided_of_emptyIff ctx (fun aliases => ?_) (emptyIff_constantText value)
      cases value <;> rfl
  | .attribute value label => decided_attribute ctx value label
  | .subscript value index => by
      have hindex : EmptyIff false (do
          let text ← lower ctx value
          let inside ← lower ctx index
          return bracketOperand value.precedence .atom false text ++ "[" ++ inside ++ "]") :=
        emptyIff_bind _ fun _ => emptyIff_bind _ fun _ => emptyIff_pure (by simp)
      cases index with
      | slice => exact decided_of_emptyIff ctx (fun _ => rfl) (emptyIff_warn _ _)
      | _ => exact decided_of_emptyIff ctx (fun _ => rfl) hindex
  | .list _ =>
      decided_of_emptyIff ctx (fun _ => rfl) (emptyIff_bind _ fun _ => emptyIff_pure (by simp))
  | .tuple _ =>
      decided_of_emptyIff ctx (fun _ => rfl) (emptyIff_bind _ fun _ => emptyIff_pure (by simp))
  | .starred _ =>
      decided_of_emptyIff ctx (fun _ => rfl) (emptyIff_bind _ fun _ => emptyIff_pure (by simp))
  | .dict _ => by
      refine decided_of_emptyIff ctx (fun _ => rfl) (emptyIff_bind _ fun _ => emptyIff_pure ?_)
      split <;> simp [bracedFields]
  | .unary op operand => by
      cases op with
      | plus => exact decided operand
      | minus | not =>
          exact decided_of_emptyIff ctx (fun _ => rfl)
            (emptyIff_bind _ fun _ => emptyIff_pure (by simp))
      | invert =>
          exact decided_of_emptyIff ctx (fun _ => rfl)
            (emptyIff_bind _ fun _ => emptyIff_unsupported _ _)
  | .binary op left right => by
      refine decided_of_emptyIff ctx (fun _ => rfl) ?_
      rw [lower]
      cases op.target? with
      | none => exact emptyIff_unsupported _ _
      | some target =>
          exact emptyIff_bind _ fun _ => emptyIff_bind _ fun _ => emptyIff_pure (by simp)
  | .boolean op [] => decided_boolean ctx op (by simp)
  | .boolean op [value] => by
      refine decided_boolean ctx op ?_
      rintro _ ⟨⟩
      exact decided value
  | .boolean op (_ :: _ :: _) => decided_boolean ctx op (by simp)
  | .compare left links => decided_compare ctx left links
  | .conditional _ _ _ =>
      decided_of_emptyIff ctx (fun _ => rfl) (emptyIff_bind _ fun _ => emptyIff_bind _ fun _ =>
        emptyIff_bind _ fun _ => emptyIff_pure (by simp))
  | .call callee [] keywords => decided_call ctx callee keywords (by simp)
  | .call callee [value] keywords => by
      refine decided_call ctx callee keywords ?_
      rintro _ ⟨⟩
      exact decided value
  | .call callee (_ :: _ :: _) keywords => decided_call ctx callee keywords (by simp)
  | .lambda _ _ =>
      decided_of_emptyIff ctx (fun _ => rfl) (emptyIff_bind _ fun _ => emptyIff_pure (by simp))
  | .comprehension .list element [.mk target iterable conditions isAsync] => by
      have hiterable := decided iterable
      cases target
      case name target =>
        exact decided_listComprehension ctx element target conditions isAsync hiterable
      all_goals exact decided_of_emptyIff ctx (fun _ => rfl) (emptyIff_warn _ _)
  | .comprehension .list _ [] =>
      decided_of_emptyIff ctx (fun _ => rfl) (emptyIff_warn _ _)
  | .comprehension .list _ (.mk target _ _ _ :: _ :: _) => by
      cases target
      all_goals exact decided_of_emptyIff ctx (fun _ => rfl) (emptyIff_warn _ _)
  | .comprehension .set _ _ | .comprehension .generator _ _ | .slice .. | .set _
  | .dictComprehension .. | .named .. | .await _ | .yield _ | .yieldFrom _ | .joined _
  | .formatted .. => decided_of_emptyIff ctx (fun _ => rfl) (emptyIff_unsupported _ _)

/-! ## The text of a clause -/

/-- What a clause says after its pattern and its guard. -/
def armText (indent : Int) (body : String) : String :=
  let body := (nonEmpty? body).getD "todo"
  if body.toList.contains '\n' then " => \x7b\n" ++ indentBlock indent body ++ "\n\x7d"
  else " => " ++ body

/-- A clause without its guard. -/
def bareText (indent : Int) (clause : WhenClause) : String :=
  clause.pattern.render ++ armText indent clause.body

/-- A clause with a guard. -/
def guardedText (indent : Int) (clause : WhenClause) (guard : String) : String :=
  clause.pattern.render ++ " if " ++ guard ++ armText indent clause.body

/-- A clause by whether its guard has a text. -/
theorem render_eq (indent : Int) (clause : WhenClause) :
    clause.render indent =
      match clause.guard.bind nonEmpty? with
      | some guard => guardedText indent clause guard
      | none => bareText indent clause := by
  unfold WhenClause.render bareText guardedText armText
  cases clause.guard.bind nonEmpty? with
  | none => dsimp only; split <;> simp [String.append_assoc]
  | some guard => dsimp only; split <;> simp [String.append_assoc]

/-- The two texts of a clause differ, whatever the guard. -/
theorem bareText_ne_guardedText (indent : Int) (clause : WhenClause) (guard : String) :
    bareText indent clause ≠ guardedText indent clause guard := by
  intro h
  have hlength := congrArg String.length h
  simp only [bareText, guardedText, String.length_append] at hlength
  have hkeyword : " if ".length = 4 := rfl
  omega

/-- A clause is written with its guard exactly if the guard has a text. -/
theorem render_eq_guardedText_iff {indent : Int} {clause : WhenClause} {guard : String}
    (h : clause.guard = some guard) :
    clause.render indent = guardedText indent clause guard ↔ guard ≠ "" := by
  rw [render_eq, h]
  by_cases hempty : guard = ""
  · simp [hempty, nonEmpty?, bareText_ne_guardedText]
  · simp [hempty, nonEmpty?]

/-- A clause is written without its guard exactly if the guard has none. -/
theorem render_eq_bareText_iff {indent : Int} {clause : WhenClause} {guard : String}
    (h : clause.guard = some guard) :
    clause.render indent = bareText indent clause ↔ guard = "" := by
  rw [render_eq, h]
  by_cases hempty : guard = ""
  · simp [hempty, nonEmpty?]
  · simp [hempty, nonEmpty?, (bareText_ne_guardedText indent clause guard).symm]

/-! ## The clauses of a dispatch -/

/-- How a clause is written for a guard of the source. Without one it has none; with one it holds
the text of the guard, and is written with it unless the guard is blank. -/
def Written (aliases : Table String) : Option Expr → WhenClause → Prop
  | none, clause =>
      clause.guard = none ∧
        clause.render ctx.options.indent = bareText ctx.options.indent clause
  | some guard, clause =>
      ∃ text before after, before.aliases = aliases ∧ Yields (lower ctx guard) before text after ∧
        clause.guard = some text ∧
        (clause.render ctx.options.indent = guardedText ctx.options.indent clause text ↔
          isBlank ctx aliases guard = false) ∧
        (clause.render ctx.options.indent = bareText ctx.options.indent clause ↔
          isBlank ctx aliases guard = true)

/-- A clause without a guard is written without one. -/
theorem written_none (aliases : Table String) {clause : WhenClause} (h : clause.guard = none) :
    Written ctx aliases none clause := by
  refine ⟨h, ?_⟩
  rw [render_eq, h]
  rfl

/-- A clause whose guard was lowered is written with it where the guard is not blank. -/
theorem written_some {guard : Expr} {before after : LoweringState} {text : String}
    {clause : WhenClause} (hrun : Yields (lower ctx guard) before text after)
    (h : clause.guard = some text) : Written ctx before.aliases (some guard) clause := by
  have hdecided := decided ctx guard hrun
  refine ⟨text, before, after, rfl, hrun, h, ?_, ?_⟩
  · rw [render_eq_guardedText_iff h, ne_eq, hdecided, Bool.not_eq_true]
  · rw [render_eq_bareText_iff h, hdecided]

/-- Lowering an expression leaves the aliases. -/
theorem aliases_of_yields {α : Type} {action : Lowering α} {before after : LoweringState}
    {value : α}
    (h : Composed .expression action) (hrun : Yields action before value after) :
    after.aliases = before.aliases := by
  have hreached : Frame.reachedState action before = after := congrArg Prod.snd hrun
  rw [← hreached]
  exact Frame.aliases_reachedState h before

/-- A block leaves the aliases of what is around it. -/
theorem aliases_of_yields_blockText {lines : Lowering (List String)} {before after : LoweringState}
    {text : String} (h : Yields (blockText lines) before text after) :
    after.aliases = before.aliases := by
  obtain ⟨inside, -, rfl⟩ := yields_withAliases.mp h
  rfl

/-- The clause of a case is written for the guard of the case, and leaves the aliases in force. -/
theorem written_caseClause {pattern : Pattern} {guard : Option Expr}
    {body : Lowering (List String)} {before after : LoweringState} {clause : WhenClause}
    (h : Yields (caseClause ctx pattern guard body) before clause after) :
    Written ctx before.aliases guard clause ∧ after.aliases = before.aliases := by
  obtain ⟨_, first, hpattern, h⟩ := yields_bind.mp h
  have hfirst := aliases_of_yields (composed_lowerPattern ctx pattern) hpattern
  obtain ⟨texts, second, hguard, h⟩ := yields_bind.mp h
  obtain ⟨_, third, hbody, h⟩ := yields_bind.mp h
  obtain ⟨rfl, rfl⟩ := yields_pure.mp h
  rw [aliases_of_yields_blockText hbody]
  cases guard with
  | none =>
      obtain ⟨rfl, rfl⟩ := yields_pure.mp hguard
      exact ⟨written_none ctx _ rfl, hfirst⟩
  | some guard =>
      rw [Option.mapM_some] at hguard
      obtain ⟨text, htext, rfl⟩ := yields_map.mp hguard
      rw [aliases_of_yields (composed_lower ctx guard) htext, ← hfirst]
      exact ⟨written_some ctx htext rfl, rfl⟩

/-- The guards of the cases of a `match`. -/
def caseGuards : List Case → List (Option Expr) :=
  List.map fun | .mk _ guard _ => guard

/-- Every case of a `match` is written with its own guard. -/
theorem written_lowerCases {cases : List Case} {before after : LoweringState}
    {clauses : List WhenClause} (h : Yields (lowerCases ctx cases) before clauses after) :
    List.Forall₂ (Written ctx before.aliases) (caseGuards cases) clauses := by
  induction cases generalizing before clauses with
  | nil =>
      obtain ⟨rfl, -⟩ := yields_pure.mp h
      exact .nil
  | cons case rest ih =>
      obtain ⟨pattern, guard, body⟩ := case
      obtain ⟨clause, between, hclause, h⟩ := yields_bind.mp h
      obtain ⟨others, _, hrest, h⟩ := yields_bind.mp h
      obtain ⟨rfl, rfl⟩ := yields_pure.mp h
      obtain ⟨hwritten, haliases⟩ := written_caseClause ctx hclause
      have hothers := ih hrest
      rw [haliases] at hothers
      exact .cons hwritten hothers

mutual

/-- The conditions of a chain of branches in order, with `none` for the statements of a last
`else`. -/
def chainGuards : Stmt → List (Option Expr)
  | .branch _ test _ orelse => some test :: elseGuards orelse
  | _ => [none]

/-- The conditions that the statements of an `else` add to a chain. -/
def elseGuards : List Stmt → List (Option Expr)
  | [] => []
  | [statement] => chainGuards statement
  | _ :: _ :: _ => [none]

end

/-- An alternative that is no further link has no guard. -/
theorem elseGuards_of_not_single {orelse : List Stmt} (hsingle : isSingleBranch orelse = false)
    (hsome : orelse.isEmpty = false) : elseGuards orelse = [none] := by
  match orelse with
  | [] => simp at hsome
  | [statement] => cases statement <;> simp_all [elseGuards, chainGuards, isSingleBranch]
  | _ :: _ :: _ => rw [elseGuards]

/-- One link of a dispatched chain, from what holds of the links after it. -/
theorem written_chainClauses {test : Expr} {body : Lowering (List String)} {orelse : List Stmt}
    {chain : Lowering (List WhenClause)} {lines : Lowering (List String)}
    {before after : LoweringState} {clauses : List WhenClause}
    (hchain : isSingleBranch orelse = true → ∀ {between reached others},
      Yields chain between others reached →
        List.Forall₂ (Written ctx between.aliases) (elseGuards orelse) others)
    (h : Yields (chainClauses ctx test body orelse chain lines) before clauses after) :
    List.Forall₂ (Written ctx before.aliases) (some test :: elseGuards orelse) clauses := by
  obtain ⟨text, first, hguard, h⟩ := yields_bind.mp h
  obtain ⟨arm, second, hbody, h⟩ := yields_bind.mp h
  have haliases : second.aliases = before.aliases := by
    rw [aliases_of_yields_blockText hbody, aliases_of_yields (composed_lower ctx test) hguard]
  have hclause : Written ctx before.aliases (some test) ⟨.wildcard, arm, some text⟩ :=
    written_some ctx hguard rfl
  dsimp only at h
  split at h
  · rename_i hsingle
    obtain ⟨others, _, hrest, h⟩ := yields_bind.mp h
    obtain ⟨rfl, -⟩ := yields_pure.mp h
    have hothers := hchain hsingle hrest
    rw [haliases] at hothers
    exact .cons hclause hothers
  · rename_i hsingle
    rw [Bool.not_eq_true] at hsingle
    split at h
    · rename_i hempty
      obtain ⟨rfl, -⟩ := yields_pure.mp h
      rw [List.isEmpty_iff.mp hempty]
      exact .cons hclause .nil
    · rename_i hempty
      obtain ⟨last, _, -, h⟩ := yields_bind.mp h
      obtain ⟨rfl, -⟩ := yields_pure.mp h
      rw [elseGuards_of_not_single hsingle (Bool.not_eq_true _ ▸ hempty)]
      exact .cons hclause (.cons (written_none ctx _ rfl) .nil)

mutual

/-- Every link of a dispatched chain is written with its own condition. -/
theorem written_branchClauses : ∀ {statement : Stmt} {before after : LoweringState}
    {clauses : List WhenClause}, isSingleBranch [statement] = true →
      Yields (branchClauses ctx statement) before clauses after →
      List.Forall₂ (Written ctx before.aliases) (chainGuards statement) clauses
  | .branch .., _, _, _, _, h =>
      written_chainClauses ctx (fun hsingle _ _ _ => written_firstClauses hsingle) h

theorem written_firstClauses : ∀ {statements : List Stmt} {before after : LoweringState}
    {clauses : List WhenClause}, isSingleBranch statements = true →
      Yields (firstClauses ctx statements) before clauses after →
      List.Forall₂ (Written ctx before.aliases) (elseGuards statements) clauses
  | [_], _, _, _, hsingle, h => written_branchClauses hsingle h
  | _ :: _ :: _, _, _, _, hsingle, _ => by simp [isSingleBranch] at hsingle

end

/-- The guards of the clauses that a statement is dispatched to: the guards of the cases of a
`match`, or the conditions of a chain of branches under a when directive. -/
def guardsOf : Stmt → Option (List (Option Expr))
  | .select _ _ cases => some (caseGuards cases)
  | .branch line test _ orelse =>
    (whenSubject? ctx line).map fun _ => some test :: elseGuards orelse
  | _ => none

/-- A dispatch gives its text last, when all its clauses are known. -/
theorem yields_whenText {expression : String} {clauses : List WhenClause}
    {before after : LoweringState} {text : String}
    (h : Yields (whenText ctx expression clauses) before text after) :
    text = WhenExpression.render ctx.options.indent ⟨expression, clauses⟩ ∧
      after.records.whens = before.records.whens ++ [⟨expression, clauses⟩] := by
  obtain ⟨_, _, hrecord, h⟩ := yields_bind.mp h
  obtain ⟨rfl, rfl⟩ := yields_pure.mp h
  obtain rfl := yields_modify.mp hrecord
  exact ⟨rfl, rfl⟩

/-- Writing a `when` cannot fail. -/
theorem exists_yields_whenText (expression : String) (clauses : List WhenClause)
    (before : LoweringState) :
    ∃ text after, Yields (whenText ctx expression clauses) before text after := by
  unfold whenText
  exact ⟨_, _, .bind (yields_modify.mpr rfl) .pure⟩

/-- A statement that is dispatched becomes one recorded `when` with a clause for each guard of the
source, in order: a clause is written with its guard exactly if the guard is not blank under the
aliases in force, and a clause of a blank guard is written without any. -/
theorem guard_carried_iff {pipe : Option String} {statement : Stmt} {guards : List (Option Expr)}
    {before after : LoweringState} {text : String} (hguards : guardsOf ctx statement = some guards)
    (h : Yields (lowerText ctx pipe statement) before text after) :
    ∃ dispatch : WhenExpression, text = dispatch.render ctx.options.indent ∧
      after.records.whens.getLast? = some dispatch ∧
      List.Forall₂ (Written ctx before.aliases) guards dispatch.clauses := by
  match statement with
  | .select _ subject cases =>
      obtain rfl := Option.some.inj hguards
      obtain ⟨clauses, _, hclauses, h⟩ := yields_bind.mp h
      obtain ⟨_, _, -, h⟩ := yields_bind.mp h
      obtain ⟨htext, hwhens⟩ := yields_whenText ctx h
      exact ⟨_, htext, by simp [hwhens], written_lowerCases ctx hclauses⟩
  | .branch line test body orelse =>
      rw [Lowering.lowerText] at h
      cases hsubject : whenSubject? ctx line with
      | none => simp [guardsOf, hsubject] at hguards
      | some subject =>
          rw [guardsOf, hsubject] at hguards
          obtain rfl := Option.some.inj hguards
          rw [hsubject] at h
          obtain ⟨_, between, hsubjectText, h⟩ := yields_bind.mp h
          obtain ⟨clauses, _, hclauses, h⟩ := yields_bind.mp h
          obtain ⟨htext, hwhens⟩ := yields_whenText ctx h
          have hwritten := written_chainClauses ctx
            (fun hsingle _ _ _ => written_firstClauses ctx hsingle) hclauses
          rw [aliases_of_yields (composed_subjectText ctx subject) hsubjectText] at hwritten
          exact ⟨_, htext, by simp [hwhens], hwritten⟩
  | .simple .. | .forLoop .. | .whileLoop .. | .context .. | .attempt .. | .function ..
  | .classDef .. => cases hguards

/-- A condition that has a text. -/
def above : Expr :=
  .compare (.name "k") [.mk .gt (.name "low")]

/-- A condition that has none. -/
def odd : Expr :=
  .binary .bitAnd (.name "k") (.constant (.int 1))

/-- A dispatch with one clause for each condition and a last one without. -/
def guardedMatch : Stmt :=
  .select 1 (.name "n")
    [.mk (.capture (some "k")) (some above) [.simple 3 (.returns (some (.name "a")))],
     .mk (.capture (some "k")) (some odd) [.simple 5 (.returns (some (.name "b")))],
     .mk (.capture none) none [.simple 7 (.returns (some (.name "c")))]]

/-- A `match` with a guard that is written, one whose text is empty by an alias, and none. -/
theorem guard_carried_iff_match :
    guardsOf {} guardedMatch = some [some above, some odd, none] ∧
      isBlank {} [] above = false ∧ isBlank {} [] odd = true ∧
      ∃ text after, Yields (Lowering.lowerText {} none guardedMatch) {} text after ∧
        ∃ dispatch : WhenExpression, text = dispatch.render 2 ∧
          after.records.whens.getLast? = some dispatch ∧
          List.Forall₂ (Written {} []) [some above, some odd, none] dispatch.clauses := by
  obtain ⟨text, after, hrun⟩ :
      ∃ text after, Yields (Lowering.lowerText {} none guardedMatch) {} text after := ⟨_, _, rfl⟩
  exact ⟨rfl, rfl, rfl, text, after, hrun, guard_carried_iff {} rfl hrun⟩

/-- A case whose guard is not supported is written as if it had none, so it matches every value:
`when n { k if k > low => a, k => b, _ => c, }`. -/
theorem lowerText_match_loses_guard :
    guardsOf {} guardedMatch = some [some above, some odd, none] ∧
      ∃ after, Yields (Lowering.lowerText {} none guardedMatch) {}
        "when n \x7b\n  k if k > low => a,\n  k => b,\n  _ => c,\n\x7d" after :=
  ⟨rfl, _, rfl⟩

-- The links of a dispatched chain lose their conditions in the same way.
example : ∃ after, Yields (Lowering.lowerText { directives := [(1, [⟨.when, "n", 0⟩])] } none
    (.branch 1 odd [.simple 2 (.returns (some (.name "a")))]
      [.simple 4 (.returns (some (.name "b")))])) {}
    "when n \x7b\n  _ => a,\n  _ => b,\n\x7d" after :=
  ⟨_, rfl⟩

end AikenForge.Guard
