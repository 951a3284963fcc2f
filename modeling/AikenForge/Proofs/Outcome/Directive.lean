/-
# What lowering directives ends with

The text of a directive is read as an expression when the line of the directive is lowered. Which
strings are written in it is known from the text alone, and so is whether a pipe stands in for the
value of a statement.
-/

import AikenForge.Proofs.Alias.Binding
import AikenForge.Proofs.Outcome.Expression

namespace AikenForge

open AikenForge.Source AikenForge.Text AikenForge.Inlining

/-- What reading a text as an expression meets is allowed: a refusal, or the failures of its
literals. -/
structure HarmlessText (names : CharacterNames) (fails : Failure → Prop) (text : String) :
    Prop where
  nul : readExpression names (strip text) = .error .nul → fails .nul
  literals : ∀ e, readExpression names (strip text) = .ok e → Harmless fails e.subterms

/-- What reading the directives of a table meets is allowed. -/
def HarmlessTable (names : CharacterNames) (fails : Failure → Prop)
    (table : DirectiveTable) : Prop :=
  ∀ entry ∈ table, ∀ d ∈ entry.2, ∀ part ∈ d.text :: Lowering.pipeParts [] d.text.toList,
    HarmlessText names fails part

section Harmless

variable {names : CharacterNames} {fails : Failure → Prop}

/-- A harmless text is read as a harmless expression. -/
theorem HarmlessText.readable {ctx : Context} {text : String}
    (h : HarmlessText ctx.options.names fails text) {e : Expr}
    (hread : readable? ctx text = some e) :
    Harmless fails e.subterms := by
  unfold readable? at hread
  cases hresult : readExpression ctx.options.names (strip text) with
  | error cause => rw [hresult] at hread; cases hread
  | ok found =>
      rw [hresult] at hread
      obtain rfl : found = e := Option.some.inj hread
      exact h.literals found hresult

/-- Fewer lines of a table are no less harmless. -/
theorem HarmlessTable.within {table : DirectiveTable} (h : HarmlessTable names fails table)
    (first last : Nat) : HarmlessTable names fails (table.within first last) :=
  fun entry hentry => h entry (List.mem_filter.mp hentry).1

/-- What is looked up is in the table. -/
theorem mem_of_lookup {κ α : Type} [BEq κ] [LawfulBEq κ] {table : List (κ × α)} {key : κ}
    {value : α}
    (h : table.lookup key = some value) : (key, value) ∈ table := by
  induction table with
  | nil => cases h
  | cons entry rest ih =>
      rw [List.lookup_cons] at h
      split at h
      · rename_i hkey
        rw [eq_of_beq hkey, ← Option.some.inj h]
        exact List.mem_cons_self
      · exact List.mem_cons_of_mem _ (ih h)

/-- The parts of a directive that is bound to a line are harmless. -/
theorem HarmlessTable.onLine {table : DirectiveTable} (h : HarmlessTable names fails table)
    {line : Nat} {d : Directive} (hd : d ∈ table.onLine line) :
    ∀ part ∈ d.text :: Lowering.pipeParts [] d.text.toList, HarmlessText names fails part := by
  unfold DirectiveTable.onLine at hd
  cases hlookup : table.lookup line with
  | none => simp [hlookup] at hd
  | some directives =>
      rw [hlookup] at hd
      exact h _ (mem_of_lookup hlookup) d hd

end Harmless

namespace Lowering

section Written

variable (ctx : Context)

/-- The value and the steps of a pipe directive, if there are some and all of them can be read. -/
def pipeExpressions? (text : String) : Option (List Expr) :=
  match ((pipeParts [] text.toList).map (readable? ctx)).mapM id with
  | some (first :: step :: steps) => some (first :: step :: steps)
  | _ => none

/-- The pipe that stands in for the value of a statement on a line. -/
def pipeOn? (line : Nat) : Option (List Expr) :=
  (ctx.directives.ofKind line .pipe).getLast?.bind fun d => pipeExpressions? ctx d.text

variable (base : LoweringState)

/-- The strings that are written in the expectation of a directive. -/
def writtenExpectation (text : String) : List CodePoints :=
  match readable? ctx text with
  | some e => written ctx base (splitExpectation e).1
  | none => []

/-- The strings that are written in the expectations of a line. -/
def writtenExpectations (line : Nat) : List CodePoints :=
  (ctx.directives.ofKind line .expect).flatMap fun d => writtenExpectation ctx base d.text

/-- The strings that are written in the pipe that stands in for the value of a statement on a
line. -/
def writtenStanding (line : Nat) : Option (List CodePoints) :=
  (pipeOn? ctx line).map (writtenPipe ctx base)

/-- The strings that are written in the value of a statement, in whose place a pipe may stand. -/
def writtenValue (standing : Option (List CodePoints)) (value : Expr) : List CodePoints :=
  standing.getD (written ctx base value)

/-- The strings that are written in the value that a directive dispatches on. -/
def writtenSubject (line : Nat) : List CodePoints :=
  match (whenSubject? ctx line).bind (readable? ctx) with
  | some e => written ctx base e
  | none => []

end Written

variable {ctx : Context} {base : LoweringState} {fails : Failure → Prop} {width : Nat}

/-- A harmless text is read, or taken as it is. -/
theorem ends_directiveExpression? {text : String} (h : HarmlessText ctx.options.names fails text) :
    Ends (Alike base) fails (fun found => found = readable? ctx text)
      (directiveExpression? ctx text) := by
  unfold directiveExpression? readable?
  cases hread : readExpression ctx.options.names (strip text) with
  | ok e => exact .pure rfl
  | error cause =>
      cases cause with
      | nul => exact .throw (h.nul hread)
      | malformed line => exact (ends_warn _ _).bind fun _ _ => .pure rfl

/-- A check holds the strings of what it expects. -/
theorem ends_expectDirective {text : String} (h : HarmlessText ctx.options.names fails text) :
    Ends (Alike base) fails (Bears width (writtenExpectation ctx base text))
      (expectDirective ctx text) := by
  unfold expectDirective writtenExpectation
  apply (ends_directiveExpression? h).bind
  intro found hfound
  rw [hfound]
  cases hread : readable? ctx text with
  | none => exact .pure (bears_nil width _)
  | some e =>
      have hvalue : Harmless fails (splitExpectation e).1.subterms :=
        fun x hx => h.readable hread x (subterms_splitExpectation e hx)
      exact (ends_lower base _ hvalue).bind fun _ htext => ends_expectText htext _

/-- The texts of expectations hold what is written in them, also without the empty ones. -/
theorem ends_expectations {directives : List Directive}
    (h : ∀ d ∈ directives, HarmlessText ctx.options.names fails d.text) :
    Ends (Alike base) fails
      (BearsAmong width (directives.flatMap fun d => writtenExpectation ctx base d.text))
      (directives.mapM fun d => expectDirective ctx d.text) := by
  induction directives with
  | nil => exact .pure (bearsAmong_nil width _)
  | cons d rest ih =>
      rw [List.mapM_cons, List.flatMap_cons]
      exact (ends_expectDirective (h d List.mem_cons_self)).bind fun _ htext =>
        (ih fun other hother => h other (List.mem_cons_of_mem _ hother)).bind fun _ htexts =>
          .pure (htext.cons htexts)

/-- The checks of a line hold the strings of all of them. -/
theorem ends_expectLines (h : HarmlessTable ctx.options.names fails ctx.directives) (line : Nat) :
    Ends (Alike base) fails (BearsAmong width (writtenExpectations ctx base line))
      (expectLines ctx line) := by
  have htexts : ∀ d ∈ ctx.directives.ofKind line .expect,
      HarmlessText ctx.options.names fails d.text :=
    fun d hd => h.onLine (List.mem_filter.mp hd).1 d.text List.mem_cons_self
  exact (ends_expectations htexts).bind fun _ hlines => .pure hlines.filter

/-- A pipe of expressions that are read from harmless parts is harmless. -/
theorem harmless_pipeExpressions {parts : List String} {expressions : List Expr}
    (hparts : ∀ part ∈ parts, HarmlessText ctx.options.names fails part)
    (h : (parts.map (readable? ctx)).mapM id = some expressions) :
    Harmless fails (Expr.all expressions) := by
  intro x hx
  obtain ⟨e, he, hx⟩ := mem_all hx
  obtain ⟨part, hpart, hread⟩ := all_of_mapM_id h e he
  exact (hparts part hpart).readable hread x hx

/-- A pipe that stands in for the value of a statement holds what is written in it. -/
abbrev StandsIn (width : Nat) (standing : Option (List CodePoints)) (pipe : Option String) : Prop :=
  Option.Rel (Bears width) standing pipe

/-- A pipe directive stands in for a value if all of its parts can be read. -/
theorem ends_pipeDirective? {text : String}
    (h : ∀ part ∈ pipeParts [] text.toList, HarmlessText ctx.options.names fails part) :
    Ends (Alike base) fails
      (StandsIn width ((pipeExpressions? ctx text).map (writtenPipe ctx base)))
      (pipeDirective? ctx text) := by
  have hmalformed (message : String) : Ends (Alike base) fails
      (StandsIn width none) (do
        warn .statements message
        return (none : Option String)) :=
    (ends_warn _ _).bind fun _ _ => .pure .none
  unfold pipeDirective? pipeExpressions?
  apply (Ends.mapM fun part hpart => ends_directiveExpression? (h part hpart)).bind
  intro found hfound
  rw [eq_map_of_forall₂ hfound]
  rcases hread : ((pipeParts [] text.toList).map (readable? ctx)).mapM id with
    _ | _ | ⟨first, _ | ⟨step, steps⟩⟩
  · exact hmalformed _
  · exact hmalformed _
  · exact hmalformed _
  · exact (ends_lowerPipe base _ (harmless_pipeExpressions h hread)).bind fun _ htext =>
      .pure (.some htext)

/-- The pipe of a line stands in for the value of its statement. -/
theorem ends_pipeLine? (h : HarmlessTable ctx.options.names fails ctx.directives) (line : Nat) :
    Ends (Alike base) fails (StandsIn width (writtenStanding ctx base line))
      (pipeLine? ctx line) := by
  unfold pipeLine? writtenStanding pipeOn?
  cases hlast : (ctx.directives.ofKind line .pipe).getLast? with
  | none => exact .pure .none
  | some d =>
      have hd := (List.mem_filter.mp (List.mem_of_getLast? hlast)).1
      exact ends_pipeDirective? fun part hpart => h.onLine hd part (List.mem_cons_of_mem _ hpart)

/-- What a line dispatches on holds its strings. -/
theorem ends_subjectText (h : HarmlessTable ctx.options.names fails ctx.directives) {line : Nat}
    {subject : String}
    (hsubject : whenSubject? ctx line = some subject) :
    Ends (Alike base) fails (Bears width (writtenSubject ctx base line))
      (subjectText ctx subject) := by
  obtain ⟨d, hd, rfl⟩ := Option.map_eq_some_iff.mp hsubject
  have htext : HarmlessText ctx.options.names fails d.text :=
    h.onLine (List.mem_filter.mp (List.mem_of_getLast? hd)).1 d.text List.mem_cons_self
  unfold subjectText writtenSubject
  rw [hsubject]
  apply (ends_directiveExpression? htext).bind
  intro found hfound
  rw [hfound]
  cases hread : readable? ctx d.text with
  | none => simpa [hread] using .pure (bears_nil width _)
  | some e => simpa [hread] using ends_lower base e (htext.readable hread)

/-- A value holds its own strings, or those of the pipe that stands in for it. -/
theorem ends_valueText {standing : Option (List CodePoints)} {pipe : Option String} {value : Expr}
    (hpipe : StandsIn width standing pipe) (h : Harmless fails value.subterms) :
    Ends (Alike base) fails (Bears width (writtenValue ctx base standing value))
      (valueText ctx pipe value) := by
  cases hpipe with
  | some htext => exact .pure htext
  | none => exact ends_lower base value h

end Lowering

end AikenForge
