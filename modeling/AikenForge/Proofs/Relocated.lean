/-
# Contexts with other directives and alias roots

Expressions, patterns and the texts of directives look at the scope and at the options of their
context only. So they are lowered alike in contexts that differ in their directives and alias roots,
and what a line asks for is the same in both as far as the line has the same directives.
-/

import AikenForge.Proofs.Congruence.Walk

namespace AikenForge.Lowering

open AikenForge.Source AikenForge.Locals

/-- A context with other directives and other alias roots. -/
def relocate (ctx : Context) (directives : DirectiveTable) (roots : List String) : Context :=
  { ctx with directives, aliasRoots := roots }

variable (ctx : Context) (directives : DirectiveTable) (roots : List String)

theorem options_relocate : (relocate ctx directives roots).options = ctx.options :=
  rfl

theorem knowsSource_relocate : (relocate ctx directives roots).knowsSource = ctx.knowsSource :=
  rfl

/-! ## Expressions and patterns -/

/-- Lowering the same way is a relation that passes through everything. -/
theorem eq_congruence : BlockCongruence fun {α} (action other : Lowering α) => other = action where
  pure _ := rfl
  throw _ := rfl
  bind haction hnext := by rw [haction, funext hnext]
  note _ _ _ := rfl
  record _ := rfl
  withAliases change haction := congrArg (withAliases change) haction
  setAlias _ _ := rfl
  dropAliases _ := rfl
  ofReporting _ := rfl

/-- Names are used in the same way. -/
theorem usesRelated_relocate (found : List Use) :
    UsesRelated (fun {α} (action other : Lowering α) => other = action) ctx
      (relocate ctx directives roots) found := by
  intro use _
  cases use with
  | load id => rfl
  | call id => exact ⟨rfl, fun _ _ => rfl⟩
  | field id label =>
      change lower (relocate ctx directives roots) _ = lower ctx _
      rw [lower, lower]
      rfl

/-- Expressions look at neither directives nor alias roots. -/
@[simp]
theorem lower_relocate : lower (relocate ctx directives roots) = lower ctx :=
  funext fun e => eq_congruence.expression (options_relocate ..) e
    (usesRelated_relocate ctx directives roots _)

/-- Pipes are lowered without a look at directives and roots. -/
@[simp]
theorem lowerPipe_relocate : lowerPipe (relocate ctx directives roots) = lowerPipe ctx :=
  funext fun args =>
    eq_congruence.pipeArguments (options_relocate ..) args
      (usesRelated_relocate ctx directives roots _)

/-- So are patterns. -/
theorem lowerPattern_relocate (pattern : Pattern) :
    lowerPattern (relocate ctx directives roots) pattern = lowerPattern ctx pattern :=
  eq_congruence.pattern (knowsSource_relocate ..) pattern fun e _ =>
    congrFun (lower_relocate ctx directives roots) e

/-! ## Directives -/

/-- A directive's own text is lowered wherever it stands. -/
theorem expectDirective_relocate :
    expectDirective (relocate ctx directives roots) = expectDirective ctx :=
  funext fun _ => eq_congruence.check (options_relocate ..) fun _ _ =>
    congrFun (lower_relocate ctx directives roots) _

theorem subjectText_relocate :
    subjectText (relocate ctx directives roots) = subjectText ctx :=
  funext fun _ => eq_congruence.subject (options_relocate ..) fun e _ =>
    congrFun (lower_relocate ctx directives roots) e

/-! ## What lines ask for -/

variable {ctx directives} {line : Nat}

/-- The checks of a line depend on its expect directives only. -/
theorem expectLines_relocate
    (h : directives.ofKind line .expect = ctx.directives.ofKind line .expect) :
    expectLines (relocate ctx directives roots) line = expectLines ctx line :=
  eq_congruence.checks (options_relocate ..) h fun _ _ _ _ =>
    congrFun (lower_relocate ctx directives roots) _

/-- The pipe of a line depends on its pipe directives only. -/
theorem pipeLine?_relocate
    (h : directives.ofKind line .pipe = ctx.directives.ofKind line .pipe) :
    pipeLine? (relocate ctx directives roots) line = pipeLine? ctx line :=
  eq_congruence.pipeAbove (options_relocate ..) h fun _ _ parts _ =>
    congrFun (lowerPipe_relocate ctx directives roots) parts

/-- The subject of a line depends on its when directives only. -/
theorem whenSubject?_relocate
    (h : directives.ofKind line .when = ctx.directives.ofKind line .when) :
    whenSubject? (relocate ctx directives roots) line = whenSubject? ctx line := by
  have hkind : (relocate ctx directives roots).directives.ofKind line .when =
      ctx.directives.ofKind line .when := h
  unfold whenSubject?
  rw [hkind]

/-- A guard is told by the when directive of its line. -/
theorem isGuard_relocate {statement : Stmt}
    (h : directives.ofKind statement.line .when = ctx.directives.ofKind statement.line .when) :
    isGuard (relocate ctx directives roots) statement = isGuard ctx statement :=
  isGuard_congr (whenSubject?_relocate roots h)

/-- So is whether a chain goes on. -/
theorem continuesChain_relocate {statements : List Stmt}
    (h : ∀ statement ∈ statements,
      directives.ofKind statement.line .when = ctx.directives.ofKind statement.line .when) :
    continuesChain (relocate ctx directives roots) statements = continuesChain ctx statements :=
  continuesChain_congr fun statement hmem => whenSubject?_relocate roots (h statement hmem)

end AikenForge.Lowering
