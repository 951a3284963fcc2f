/-
# Checks inserted in a text

An expect directive asks for a check: a line of its own directly before the statement that it is
bound to, and a record of the expectation. This module says what the checks of a line are, and what
it means that a text is another one with the checks of some statements inserted. The other text is
that of the same source without its expect directives, so the relation tells where each check stands
and that nothing else differs.
-/

import AikenForge.Lowering.Statement
import AikenForge.Proofs.Run

namespace AikenForge.Expectation

open AikenForge.Source AikenForge.Text AikenForge.Lowering

/-! ## The checks that a line asks for -/

/-- The expression that an expect directive checks, if the directive can be read. -/
def expectation? (ctx : Context) (directive : Directive) : Option Expr :=
  if directive.kind = .expect then
    (readExpression ctx.options.names (strip directive.text)).toOption
  else none

/-- The expressions that the expect directives of a line check, in order. -/
def expectations (ctx : Context) (line : Nat) : List Expr :=
  (ctx.directives.onLine line).filterMap (expectation? ctx)

/-- A check that was emitted: the line whose directive asked for it, the expression of the
directive, the record of the expectation, and the records of the expectations inside that
expression. -/
structure Check where
  line : Nat
  source : Expr
  record : ExpectExpression
  inner : List ExpectExpression

/-- The line that a check is in the target text. -/
def Check.text (ctx : Context) (check : Check) : String :=
  check.record.render (some ctx.options.expectMessage)

/-- The records that a check makes. -/
def Check.records (check : Check) : List ExpectExpression :=
  check.inner ++ [check.record]

/-- A check is what lowering makes of the expression that it checks. -/
def Check.Sound (ctx : Context) (check : Check) : Prop :=
  check.record.errorMessage = (splitExpectation check.source).2 ∧
    ∃ before after,
      Yields (lower ctx (splitExpectation check.source).1) before check.record.expression after ∧
      after.records.expects = before.records.expects ++ check.inner

/-- Checks are what directives of a line ask for: one for each of the expressions, in order. -/
structure Answers (ctx : Context) (line : Nat) (expressions : List Expr) (checks : List Check) :
    Prop where
  lines : ∀ check ∈ checks, check.line = line
  sources : checks.map Check.source = expressions
  sound : ∀ check ∈ checks, check.Sound ctx

/-- A context in which no expect directive is bound to a line. -/
def withoutExpects (ctx : Context) : Context :=
  { ctx with
    directives := ctx.directives.map fun entry =>
      (entry.1, entry.2.filter fun directive => directive.kind ≠ .expect) }

/-! ## Texts above each other -/

/-- One text above another, on lines of its own. An empty text takes no line. -/
def stack (above below : String) : String :=
  if above = "" then below else if below = "" then above else above ++ "\n" ++ below

@[simp]
theorem stack_empty_left (text : String) : stack "" text = text := rfl

/-- An empty text adds no line. -/
@[simp]
theorem stack_empty_right (text : String) : stack text "" = text := by
  unfold stack
  split <;> simp_all

/-- Lines that are not empty make an empty text only if there are none. -/
theorem joinLines_eq_empty_iff {lines : List String} (h : "" ∉ lines) :
    joinLines lines = "" ↔ lines = [] := by
  match lines with
  | [] => simp [joinLines]
  | [text] =>
      have hne : text ≠ "" := fun heq => h (by simp [heq])
      simp [joinLines, hne]
  | first :: second :: rest => simp [joinLines]

/-- Lines without empty ones, joined, are their joined parts above each other. -/
theorem joinLines_append {above below : List String} (habove : "" ∉ above) (hbelow : "" ∉ below) :
    joinLines (above ++ below) = stack (joinLines above) (joinLines below) := by
  by_cases hempty : above = []
  · simp [hempty, joinLines]
  · by_cases hrest : below = []
    · simp [hrest, joinLines]
    · have hne : joinLines above ≠ "" := mt (joinLines_eq_empty_iff habove).mp hempty
      have hrestNe : joinLines below ≠ "" := mt (joinLines_eq_empty_iff hbelow).mp hrest
      rw [stack, if_neg hne, if_neg hrestNe]
      exact String.intercalate_append_of_ne_nil hempty hrest

/-- The first line goes above the others. -/
theorem joinLines_cons {text : String} {lines : List String} (htext : text ≠ "")
    (hlines : "" ∉ lines) : joinLines (text :: lines) = stack text (joinLines lines) := by
  have happend := @joinLines_append [text] lines (by simpa using htext.symm) hlines
  rw [List.singleton_append] at happend
  rw [happend, joinLines, String.intercalate_singleton]

/-- A text as the lines of a block: none if it is empty. -/
theorem joinLines_filter_singleton (text : String) :
    joinLines ([text].filter fun line => !line.isEmpty) = text := by
  by_cases h : text = ""
  · simp [h, joinLines]
  · simp [h, joinLines]

theorem empty_notMem_filter (lines : List String) :
    "" ∉ lines.filter fun line => !line.isEmpty := by
  simp

/-- A check is written with its keyword. -/
theorem Check.text_ne (ctx : Context) (check : Check) : check.text ctx ≠ "" := by
  simp [Check.text, ExpectExpression.render]

theorem empty_notMem_checks (ctx : Context) (checks : List Check) :
    "" ∉ checks.map (Check.text ctx) := by
  intro hmem
  obtain ⟨check, -, heq⟩ := List.mem_map.mp hmem
  exact check.text_ne ctx heq

/-! ## Texts with checks inserted -/

/-- A statement that is lowered as a whole, with the checks that stand before it. -/
structure Visit where
  statement : Stmt
  checks : List Check

/-- A text is that of a statement without its directives. A guard has the statements after it as its
alternative. -/
inductive OwnText (ctx : Context) (statement : Stmt) : String → Prop
  | plain {pipe : Option String} {text : String} :
      Reaches (Lowering.lowerText ctx pipe statement) text → OwnText ctx statement text
  | guard {rest : List Stmt} {text : String} :
      Reaches (lowerBranch ctx (some ⟨rest, lowerFirst ctx rest, lowerLines ctx rest⟩) statement)
        text →
      OwnText ctx statement text

/-- The first text is the second with the checks of statements inserted, each directly before the
text of its statement. Texts are put together as lowering does it: side by side, above each other,
indented, or as the body of a clause, whose layout depends on its body. -/
inductive Inserted (ctx : Context) : List Visit → String → String → Prop
  | same (text : String) : Inserted ctx [] text text
  | append {visits others : List Visit} {left bareLeft right bareRight : String} :
      Inserted ctx visits left bareLeft → Inserted ctx others right bareRight →
      Inserted ctx (visits ++ others) (left ++ right) (bareLeft ++ bareRight)
  | stacked {visits others : List Visit} {above bareAbove below bareBelow : String} :
      Inserted ctx visits above bareAbove → Inserted ctx others below bareBelow →
      Inserted ctx (visits ++ others) (stack above below) (stack bareAbove bareBelow)
  | indented {visits : List Visit} {text bare : String} (width : Int) :
      Inserted ctx visits text bare →
      Inserted ctx visits (indentBlock width text) (indentBlock width bare)
  | clause {visits : List Visit} {text bare : String} (indent : Int) (pattern : ClausePattern)
      (guard : Option String) :
      Inserted ctx visits text bare →
      Inserted ctx visits (WhenClause.render indent ⟨pattern, text, guard⟩)
        (WhenClause.render indent ⟨pattern, bare, guard⟩)
  | statement {visit : Visit} {visits : List Visit} {own bareOwn : String} :
      Answers ctx visit.statement.line (expectations ctx visit.statement.line)
        visit.checks →
      OwnText (withoutExpects ctx) visit.statement bareOwn →
      Inserted ctx visits own bareOwn →
      Inserted ctx (visit :: visits)
        (stack (joinLines (visit.checks.map (Check.text ctx))) own) bareOwn

section Inserted

variable {ctx : Context} {visits others : List Visit} {text bare : String}

/-- A text between two others that are the same in both. -/
theorem Inserted.between (h : Inserted ctx visits text bare) (left right : String) :
    Inserted ctx visits (left ++ text ++ right) (left ++ bare ++ right) := by
  have happend := ((Inserted.same left).append h).append (.same right)
  simpa using happend

/-- Braces around both texts. -/
theorem Inserted.braced (h : Inserted ctx visits text bare) :
    Inserted ctx visits (braced ctx text) (braced ctx bare) :=
  (h.indented _).between _ _

/-- The clauses of a dispatch with checks inserted in their bodies. -/
inductive InsertedClauses (ctx : Context) : List Visit → List WhenClause → List WhenClause → Prop
  | nil : InsertedClauses ctx [] [] []
  | cons {visits others : List Visit} {text bare : String} {clauses bareClauses : List WhenClause}
      (pattern : ClausePattern) (guard : Option String) :
      Inserted ctx visits text bare → InsertedClauses ctx others clauses bareClauses →
      InsertedClauses ctx (visits ++ others) (⟨pattern, text, guard⟩ :: clauses)
        (⟨pattern, bare, guard⟩ :: bareClauses)

/-- The line that a clause is in the text of a dispatch. -/
def clauseLine (indent : Int) (clause : WhenClause) : String :=
  clause.render indent ++ ","

theorem empty_notMem_clauseLine (indent : Int) (clauses : List WhenClause) :
    "" ∉ clauses.map (clauseLine indent) := by
  simp [clauseLine]

/-- Clauses as lines. -/
theorem InsertedClauses.joinLines {clauses bareClauses : List WhenClause}
    (h : InsertedClauses ctx visits clauses bareClauses) (indent : Int) :
    Inserted ctx visits (Text.joinLines (clauses.map (clauseLine indent)))
      (Text.joinLines (bareClauses.map (clauseLine indent))) := by
  induction h with
  | nil => exact .same _
  | @cons visits others text bare clauses bareClauses pattern guard hbody _ ih =>
      have hline : Inserted ctx visits (clauseLine indent ⟨pattern, text, guard⟩)
          (clauseLine indent ⟨pattern, bare, guard⟩) := by
        have happend := (hbody.clause indent pattern guard).append (.same ",")
        rw [List.append_nil] at happend
        exact happend
      rw [List.map_cons, List.map_cons,
        joinLines_cons (by simp [clauseLine]) (empty_notMem_clauseLine indent _),
        joinLines_cons (by simp [clauseLine]) (empty_notMem_clauseLine indent _)]
      exact hline.stacked ih

/-- Clauses in a `when`. -/
theorem InsertedClauses.render {clauses bareClauses : List WhenClause}
    (h : InsertedClauses ctx visits clauses bareClauses) (indent : Int) (expression : String) :
    Inserted ctx visits (WhenExpression.render indent ⟨expression, clauses⟩)
      (WhenExpression.render indent ⟨expression, bareClauses⟩) :=
  ((h.joinLines indent).indented indent).between ("when " ++ expression ++ " \x7b\n") "\n\x7d"

end Inserted

end AikenForge.Expectation
