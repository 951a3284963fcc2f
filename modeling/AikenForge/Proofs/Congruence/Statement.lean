/-
# Lowering statements side by side

What a relation between computations passes through for expressions, it passes through for
directives, for bindings and for whole statements. Again there is one lemma for each form, with the
parts of the form as its hypotheses.

The expression that a directive holds is read while it is lowered, so what is to be shown of it is
asked of the expression that can be read, and of nothing else.
-/

import Mathlib.Data.List.Forall2
import AikenForge.Proofs.Alias.Inline
import AikenForge.Proofs.Congruence.Expression

namespace AikenForge

/-- The value that a statement assigns to a name, alone or among other targets. -/
def Source.Simple.namedValue? : Simple → Option Expr
  | .assigns targets value => if targets.any (·.name?.isSome) then some value else none
  | .annotates target _ value => if target.name?.isSome then value else none
  | _ => none

namespace Lowering

open AikenForge.Source AikenForge.Text
open AikenForge.Inlining (readable?)

variable {ctx ctx' : Context}

/-! ## What lines ask for -/

/-- Whether a statement is a guard depends on what its line dispatches on. -/
theorem isGuard_congr {statement : Stmt}
    (h : whenSubject? ctx' statement.line = whenSubject? ctx statement.line) :
    isGuard ctx' statement = isGuard ctx statement := by
  unfold isGuard
  split
  · rename_i line test body
    have hline : whenSubject? ctx' line = whenSubject? ctx line := h
    rw [hline]
  · rfl

/-- Whether a chain goes on is told from the lines of its links. -/
theorem continuesChain_congr {statements : List Stmt}
    (h : ∀ statement ∈ statements,
      whenSubject? ctx' statement.line = whenSubject? ctx statement.line) :
    continuesChain ctx' statements = continuesChain ctx statements := by
  unfold continuesChain
  split
  · rename_i line test body orelse
    have hline : whenSubject? ctx' line = whenSubject? ctx line :=
      h (.branch line test body orelse) List.mem_cons_self
    rw [hline]
  · rfl

/-- The last pipe directive of a line is the one that counts. -/
theorem pipeLine?_eq_elim (ctx : Context) (line : Nat) :
    pipeLine? ctx line = (ctx.directives.ofKind line .pipe).getLast?.elim (pure none)
      fun d => pipeDirective? ctx d.text := by
  unfold pipeLine?
  cases (ctx.directives.ofKind line .pipe).getLast? <;> rfl

namespace Congruence

variable {related : ∀ {α : Type}, Lowering α → Lowering α → Prop} (h : Congruence @related)
  {α : Type}

include h

/-! ## Directives -/

section Directives

variable (hoptions : ctx'.options = ctx.options)

include hoptions

/-- A text with a null character ends everything; any other is read, or reported and left out. -/
theorem directive_bind (text : String) {next further : Option Expr → Lowering α}
    (hnext : related (next (readable? ctx text)) (further (readable? ctx text))) :
    related (directiveExpression? ctx text >>= next)
      (directiveExpression? ctx' text >>= further) := by
  unfold readable? at hnext
  unfold directiveExpression?
  rw [hoptions]
  cases hread : readExpression ctx.options.names (strip text) with
  | ok e =>
      rw [hread] at hnext
      exact hnext
  | error reason =>
      rw [hread] at hnext
      cases reason with
      | nul => exact h.throw .nul
      | malformed _ =>
          dsimp only
          rw [bind_assoc, bind_assoc]
          exact h.bind (h.warn _ _) fun _ => hnext

/-- Directives are read the same way on both sides, whatever is done with them. -/
theorem directives_bind (parts : List String) {next further : List (Option Expr) → Lowering α}
    (hnext : related (next (parts.map (readable? ctx))) (further (parts.map (readable? ctx)))) :
    related (parts.mapM (directiveExpression? ctx) >>= next)
      (parts.mapM (directiveExpression? ctx') >>= further) := by
  induction parts generalizing next further with
  | nil => exact hnext
  | cons part parts ih =>
      rw [List.mapM_cons, List.mapM_cons, bind_assoc, bind_assoc]
      refine h.directive_bind hoptions part ?_
      rw [bind_assoc, bind_assoc]
      exact ih hnext

/-- An expectation above a line, by the expression in it. -/
theorem check {text : String}
    (hvalue : ∀ e, readable? ctx text = some e →
      related (lower ctx (splitExpectation e).1) (lower ctx' (splitExpectation e).1)) :
    related (expectDirective ctx text) (expectDirective ctx' text) := by
  refine h.directive_bind hoptions text ?_
  cases hread : readable? ctx text with
  | none => exact h.pure _
  | some e => exact h.bind (hvalue e hread) fun _ => h.expect hoptions _ _

/-- Lines with the same expect directives make the same checks. -/
theorem checks {line : Nat}
    (hkind : ctx'.directives.ofKind line .expect = ctx.directives.ofKind line .expect)
    (hvalue : ∀ d ∈ ctx.directives.ofKind line .expect, ∀ e, readable? ctx d.text = some e →
      related (lower ctx (splitExpectation e).1) (lower ctx' (splitExpectation e).1)) :
    related (expectLines ctx line) (expectLines ctx' line) := by
  unfold expectLines
  rw [hkind]
  exact h.thenPure (h.mapM fun d hd => h.check hoptions (hvalue d hd)) _

/-- A pipe directive, by the expressions in it. -/
theorem pipeDirective {text : String}
    (hparts : ∀ parts, ((pipeParts [] text.toList).map (readable? ctx)).mapM id = some parts →
      related (lowerPipe ctx parts) (lowerPipe ctx' parts)) :
    related (pipeDirective? ctx text) (pipeDirective? ctx' text) := by
  refine h.directives_bind hoptions _ ?_
  split
  · rename_i hread
    exact h.thenPure (hparts _ hread) _
  · exact h.reported _ _ _

/-- Lines with the same pipe directives have the same pipe. -/
theorem pipeAbove {line : Nat}
    (hkind : ctx'.directives.ofKind line .pipe = ctx.directives.ofKind line .pipe)
    (hparts : ∀ d ∈ ctx.directives.ofKind line .pipe, ∀ parts,
      ((pipeParts [] d.text.toList).map (readable? ctx)).mapM id = some parts →
      related (lowerPipe ctx parts) (lowerPipe ctx' parts)) :
    related (pipeLine? ctx line) (pipeLine? ctx' line) := by
  rw [pipeLine?_eq_elim, pipeLine?_eq_elim, hkind]
  cases hlast : (ctx.directives.ofKind line .pipe).getLast? with
  | none => exact h.pure _
  | some d => exact h.pipeDirective hoptions (hparts d (List.mem_of_getLast? hlast))

/-- What a line dispatches on, by the expression that it is read as. -/
theorem subject {text : String}
    (hvalue : ∀ e, readable? ctx text = some e → related (lower ctx e) (lower ctx' e)) :
    related (subjectText ctx text) (subjectText ctx' text) := by
  refine h.directive_bind hoptions text ?_
  cases hread : readable? ctx text with
  | none => exact h.pure _
  | some e => exact hvalue e hread

end Directives

/-! ## Parts of statements -/

section Parts

variable {test test' value value' : Expr} {body body' lines lines' : Lowering (List String)}

/-- A value is a pipe's text if there is one. -/
theorem valueOr (pipe : Option String) (hvalue : related (lower ctx value) (lower ctx' value')) :
    related (valueText ctx pipe value) (valueText ctx' pipe value') := by
  cases pipe with
  | some text => exact h.pure text
  | none => exact hvalue

/-- The message of an exception is a literal. -/
theorem failure (exception : Option Expr) :
    related (raiseText ctx exception) (raiseText ctx' exception) := by
  unfold raiseText
  split
  · exact h.thenPure (h.constant _) _
  · exact h.pure _

omit h in
/-- A block is indented by the options. -/
theorem braced_congr (hoptions : ctx'.options = ctx.options) : braced ctx' = braced ctx := by
  unfold braced
  rw [hoptions]

/-- A chain goes on as a chain on both sides, or as a block on both. -/
theorem branch (hoptions : ctx'.options = ctx.options) (line : Nat)
    {alternative alternative' : Alternative}
    (hempty : alternative'.statements.isEmpty = alternative.statements.isEmpty)
    (hcontinues : continuesChain ctx' alternative'.statements =
      continuesChain ctx alternative.statements)
    (htest : related (lower ctx test) (lower ctx' test'))
    (hbody : related (blockText body) (blockText body'))
    (hchain : continuesChain ctx alternative.statements = true →
      related alternative.chain alternative'.chain)
    (hlines : continuesChain ctx alternative.statements = false →
      related (blockText alternative.lines) (blockText alternative'.lines)) :
    related (branchText ctx line test body alternative)
      (branchText ctx' line test' body' alternative') := by
  unfold branchText
  rw [hempty, hcontinues, braced_congr hoptions]
  refine h.bind htest fun condition => h.bind hbody fun text => ?_
  dsimp only
  split
  · exact h.reported _ _ _
  · split
    · rename_i hcontinues
      exact h.thenPure (hchain hcontinues) _
    · rename_i hcontinues
      exact h.thenPure (hlines (Bool.not_eq_true _ ▸ hcontinues)) _

/-- One link of a dispatched chain. -/
theorem clauses {orelse orelse' : List Stmt} {chain chain' : Lowering (List WhenClause)}
    (hempty : orelse'.isEmpty = orelse.isEmpty)
    (hsingle : isSingleBranch orelse' = isSingleBranch orelse)
    (htest : related (lower ctx test) (lower ctx' test'))
    (hbody : related (blockText body) (blockText body'))
    (hchain : isSingleBranch orelse = true → related chain chain')
    (hlines : isSingleBranch orelse = false → related (blockText lines) (blockText lines')) :
    related (chainClauses ctx test body orelse chain lines)
      (chainClauses ctx' test' body' orelse' chain' lines') := by
  unfold chainClauses
  rw [hempty, hsingle]
  refine h.bind htest fun guard => h.bind hbody fun text => ?_
  dsimp only
  split
  · rename_i hsingle
    exact h.thenPure (hchain hsingle) _
  · rename_i hsingle
    split
    · exact h.pure _
    · exact h.thenPure (hlines (Bool.not_eq_true _ ▸ hsingle)) _

/-- A case by its pattern, its guard and its body. -/
theorem clause {pattern pattern' : Pattern} {guard guard' : Option Expr}
    (hpattern : related (lowerPattern ctx pattern) (lowerPattern ctx' pattern'))
    (hguard : Option.Rel (fun e e' => related (lower ctx e) (lower ctx' e')) guard guard')
    (hbody : related (blockText body) (blockText body')) :
    related (caseClause ctx pattern guard body) (caseClause ctx' pattern' guard' body') := by
  have hcondition : related (guard.mapM (lower ctx)) (guard'.mapM (lower ctx')) := by
    cases hguard with
    | none => exact h.pure none
    | some hguard => exact h.map hguard some
  exact h.bind hpattern fun _ => h.bind hcondition fun _ => h.thenPure hbody _

/-- Parts that are lowered one after the other. -/
theorem sequence {parts parts' : List (Lowering (List String))}
    (hparts : List.Forall₂ (fun part part' => related part part') parts parts') :
    related (parts.mapM id) (parts'.mapM id) := by
  induction hparts with
  | nil => exact h.pure []
  | cons hpart _ ih =>
      rw [List.mapM_cons, List.mapM_cons]
      exact h.bind hpart fun _ => h.thenPure ih _

end Parts

end Congruence

/-! ## Blocks and bindings -/

section Blocks

variable {related : ∀ {α : Type}, Lowering α → Lowering α → Prop}

/-- A block is a scope. -/
theorem ScopeCongruence.block (h : ScopeCongruence @related) {lines lines' : Lowering (List String)}
    (hlines : related lines lines') : related (blockText lines) (blockText lines') :=
  h.withAliases id (h.map hlines joinLines)

namespace BlockCongruence

variable (h : BlockCongruence @related)

include h

mutual

/-- What binds a target has no expressions in it. -/
theorem binding : ∀ target : Expr, related (bindingText? target) (bindingText? target)
  | .name id => h.thenPure (h.dropAliases [id]) _
  | .tuple items => h.thenPure (bindings items) _
  | .list items => h.thenPure (bindings items) _
  | .starred value => by
      cases value with
      | name id => exact h.thenPure (h.dropAliases [id]) _
      | _ => exact h.pure none
  | .constant _ | .attribute .. | .subscript .. | .slice .. | .set _ | .dict _ | .unary ..
  | .binary .. | .boolean .. | .compare .. | .conditional .. | .call .. | .lambda ..
  | .comprehension .. | .dictComprehension .. | .named .. | .await _ | .yield _ | .yieldFrom _
  | .joined _ | .formatted .. => h.pure none

theorem bindings : ∀ targets : List Expr, related (bindingTexts? targets) (bindingTexts? targets)
  | [] => h.pure _
  | item :: rest => h.bind (binding item) fun _ => h.thenPure (bindings rest) _

end

variable {value value' : Expr}

/-- Both values are aliases, or neither is one. -/
theorem aliasing (pipe : Option String) (name : String)
    (halias : isTransactionAlias ctx' value' = isTransactionAlias ctx value)
    (hvalue : related (lower ctx value) (lower ctx' value')) :
    related (aliasFor? ctx pipe name value) (aliasFor? ctx' pipe name value') := by
  unfold aliasFor?
  rw [halias]
  split
  · exact h.bind hvalue fun text => h.thenPure (h.setAlias name text) _
  · exact h.pure none

/-- A binding by its value. -/
theorem bound (line : Nat) (pipe : Option String) (target : Expr)
    (hvalue : related (lower ctx value) (lower ctx' value')) :
    related (bindText ctx line pipe target value) (bindText ctx' line pipe target value') := by
  refine h.bind (h.valueOr pipe hvalue) fun text => h.bind (h.binding target) fun pattern => ?_
  split
  · exact h.pure _
  · exact h.reported _ _ _

/-- An assignment by its value, and by whether that makes an alias. -/
theorem assignment (line : Nat) (pipe : Option String) (targets : List Expr)
    (halias : targets.any (·.name?.isSome) = true →
      isTransactionAlias ctx' value' = isTransactionAlias ctx value)
    (hvalue : related (lower ctx value) (lower ctx' value')) :
    related (assignText ctx line pipe targets value)
      (assignText ctx' line pipe targets value') := by
  unfold assignText
  extract_lets first other
  have hfirst (u : Unit) : related (first u) (other u) := by
    dsimp only [first, other]
    split
    · exact h.pure _
    · split
      · rename_i target _ _ name hname
        refine h.bind (h.aliasing pipe name (halias (by simp [hname])) hvalue) fun found => ?_
        split
        · exact h.thenPure (h.note _ _ _) _
        · exact h.bound line pipe target hvalue
      · exact h.bound line pipe _ hvalue
  split
  · exact h.bind (h.warn _ _) hfirst
  · exact hfirst ()

/-- An annotated assignment by its value, and by whether that makes an alias. -/
theorem annotation (hoptions : ctx'.options = ctx.options) (pipe : Option String)
    (target hint : Expr)
    {value : Option Expr}
    (halias : target.name?.isSome = true → ∀ e ∈ value,
      isTransactionAlias ctx' e = isTransactionAlias ctx e)
    (hvalue : ∀ e ∈ value, related (lower ctx e) (lower ctx' e)) :
    related (annotatedText ctx pipe target hint value)
      (annotatedText ctx' pipe target hint value) := by
  unfold annotatedText
  rw [hoptions]
  split
  · rename_i name e hname
    have hvalue := hvalue e rfl
    refine h.bind (h.aliasing pipe name (halias (by simp [hname]) e rfl) hvalue) fun found => ?_
    split
    · exact h.pure _
    · exact h.bind (h.valueOr pipe hvalue) fun _ => h.bind (h.dropAliases _) fun _ =>
        h.thenPure (h.ofReporting (Hint.steady_resolve _ hint)) _
  · exact h.pure _

/-- A target that is a name is combined with the value; no other target is. -/
theorem combination (line : Nat) (target : Expr) (op : BinaryOp)
    (htarget : related (lower ctx target) (lower ctx' target))
    (hown : value'.precedence = value.precedence)
    (hvalue : related (lower ctx value) (lower ctx' value')) :
    related (augmentedText ctx line target op value)
      (augmentedText ctx' line target op value') := by
  cases target
  case name name =>
    exact h.bind (h.binary op rfl hown htarget hvalue) fun _ => h.thenPure (h.dropAliases _) _
  all_goals exact h.reported _ _ _

/-! ## Statements -/

/-- A statement with its pipe before it, and the checks of its line. -/
theorem whole {statement statement' : Stmt} {text text' : Option String → Lowering String}
    (hbound : statement'.ownBoundNames = statement.ownBoundNames)
    (hpipe : related (pipeLine? ctx statement.line) (pipeLine? ctx' statement'.line))
    (htext : ∀ pipe, related (text pipe) (text' pipe))
    (hchecks : related (expectLines ctx statement.line) (expectLines ctx' statement'.line)) :
    related (around ctx statement text) (around ctx' statement' text') := by
  unfold around
  rw [hbound]
  exact h.bind hpipe fun pipe => h.bind (h.dropAliases _) fun _ => h.bind (htext pipe) fun _ =>
    h.thenPure hchecks _

/-- A statement of which only the nested statements are lowered. -/
theorem parts (statement : Stmt) {parts parts' : List (Lowering (List String))}
    (hparts : List.Forall₂ (fun part part' => related part part') parts parts') :
    related (nestedText statement parts) (nestedText statement parts') :=
  h.bind (h.warn _ _) fun _ => h.bind (h.dropAliases _) fun _ => h.thenPure (h.sequence hparts) _

/-- The checks at the start of a function. -/
theorem header (name : String) {directives : List Directive}
    (hchecks : ∀ d ∈ directives, d.kind = .expect →
      related (expectDirective ctx d.text) (expectDirective ctx' d.text)) :
    related (headerLines ctx name directives) (headerLines ctx' name directives) := by
  refine h.thenPure (h.mapM fun d hd => ?_) _
  split
  · rename_i hkind
    exact hchecks d hd hkind
  · exact h.reported _ _ _

end BlockCongruence

end Blocks

end Lowering

end AikenForge
