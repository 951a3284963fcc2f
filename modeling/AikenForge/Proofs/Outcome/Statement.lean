/-
# What lowering statements ends with

Lowering the body of a function fails only as the literals and the annotations in it do, and its
text holds the strings that are written in the statements it reaches, shifted by the indentation of
the blocks around them. A statement that is reached as part of another one is written without what
its own line asks for, so what is written in it depends on the way in which it is reached. It also
depends on the aliases in force there, so statements are listed with the state in which lowering
reaches each.
-/

import AikenForge.Proofs.Expectation.Reached
import AikenForge.Proofs.Guard
import AikenForge.Proofs.Outcome.Annotation
import AikenForge.Proofs.Outcome.Pattern

namespace AikenForge.Lowering

open AikenForge.Source AikenForge.Text AikenForge.Expectation
open AikenForge.Frame (reachedState)

/-! ## Harmless statements -/

/-- The literals of a statement have a text or a failure that is allowed, and its annotation
resolves with failures that are allowed. -/
structure HarmlessStatement (names : CharacterNames) (fails : Failure → Prop)
    (statement : Stmt) : Prop where
  literals : Harmless fails (Expr.all statement.ownExpressions)
  hint : ∀ line target hint value, statement = .simple line (.annotates target hint value) →
    Hint.Harmless names fails hint

/-- All statements of a list are harmless, at every depth. -/
def HarmlessBlock (names : CharacterNames) (fails : Failure → Prop)
    (statements : List Stmt) : Prop :=
  ∀ statement ∈ nestedAll statements, HarmlessStatement names fails statement

/-! ## States in which statements are reached -/

/-- A statement that lowering reaches, with the way in which it does, and with the states before it
and after it. -/
structure Arrival where
  statement : Stmt
  way : Way
  before : LoweringState
  after : LoweringState

/-- The state in which the text of a statement is lowered. The names that its expressions bind lose
their aliases before it, if it is lowered as a whole. -/
def Arrival.inside (arrival : Arrival) : LoweringState :=
  if arrival.way = .whole then dropped arrival.statement.ownBoundNames arrival.before
  else arrival.before

section Arrivals

variable (ctx : Context)

/-- The state after a statement of a block, in which the expectations of its line and the rest of
the block are lowered. A guard takes the rest as its alternative. -/
def stateAfter (base : LoweringState) (statement : Stmt) (rest : List Stmt) : LoweringState :=
  if isGuard ctx statement && !rest.isEmpty then dropped statement.ownBoundNames base
  else reachedState (around ctx statement fun pipe => lowerText ctx pipe statement) base

mutual

/-- The statements of a block that is lowered from a state and those inside them; `way` is that of
the first. -/
def arrivals (base : LoweringState) (way : Way) : List Stmt → List Arrival
  | [] => []
  | statement :: rest =>
    let arrival : Arrival := ⟨statement, way, base, stateAfter ctx base statement rest⟩
    arrival :: (arrivalsInside arrival.inside way statement ++
      arrivals arrival.after (Way.after ctx statement rest) rest)

/-- The statements inside a statement that is lowered from a state. -/
def arrivalsInside (base : LoweringState) (way : Way) : Stmt → List Arrival
  | .simple .. => []
  | .branch line _ body orelse =>
    arrivals base .whole body ++ arrivals base (way.alternative ctx line orelse) orelse
  | .select _ _ cases => arrivalsCases base cases
  | s@(.forLoop _ _ _ _ body orelse) =>
    arrivalsEach (dropped s.blockTargets base) body ++
      arrivalsEach (dropped s.blockTargets base) orelse
  | s@(.whileLoop _ _ body orelse) =>
    arrivalsEach (dropped s.blockTargets base) body ++
      arrivalsEach (dropped s.blockTargets base) orelse
  | s@(.context _ _ _ body) => arrivalsEach (dropped s.blockTargets base) body
  | s@(.attempt _ _ body handlers orelse finals) =>
    arrivalsEach (dropped s.blockTargets base) body ++
      (arrivalsEach (dropped s.blockTargets base) orelse ++
        (arrivalsHandlers (dropped s.blockTargets base) handlers ++
          arrivalsEach (dropped s.blockTargets base) finals))
  | s@(.function _ _ body) => arrivalsEach (dropped s.blockTargets base) body
  | s@(.classDef _ _ body) => arrivalsEach (dropped s.blockTargets base) body

/-- The statements of a list whose members are a block each. -/
def arrivalsEach (base : LoweringState) : List Stmt → List Arrival
  | [] => []
  | statement :: rest =>
    let arrival : Arrival := ⟨statement, .whole, base, stateAfter ctx base statement []⟩
    arrival :: (arrivalsInside arrival.inside .whole statement ++ arrivalsEach base rest)

/-- The statements of the cases of a match. -/
def arrivalsCases (base : LoweringState) : List Case → List Arrival
  | [] => []
  | .mk _ _ body :: rest => arrivals base .whole body ++ arrivalsCases base rest

/-- The statements of exception handlers. -/
def arrivalsHandlers (base : LoweringState) : List Handler → List Arrival
  | [] => []
  | .mk _ _ body :: rest => arrivals base .whole body ++ arrivalsHandlers base rest

end

end Arrivals

/-! ## What is written in statements -/

section Written

mutual

/-- Whether a target can be bound. -/
def isBindable : Expr → Bool
  | .name _ | .starred (.name _) => true
  | .tuple items | .list items => areBindable items
  | _ => false

/-- Whether all targets of a list can be bound. -/
def areBindable : List Expr → Bool
  | [] => true
  | item :: rest => isBindable item && areBindable rest

end

variable (ctx : Context) (base : LoweringState)

/-- The strings that are written in a simple statement; a pipe may stand in for its value. -/
def writtenSimple (standing : Option (List CodePoints)) : Simple → List CodePoints
  | .returns none => standing.getD []
  | .returns (some value) => writtenValue ctx base standing value
  | .assigns (target :: _) value =>
    if isBindable target then writtenValue ctx base standing value else []
  | .annotates target _ (some value) =>
    if target.name?.isSome then writtenValue ctx base standing value else []
  | .augments (.name name) op value => written ctx base (.binary op (.name name) value)
  | .asserts test _ => written ctx base test
  | .raises (some (.call _ (.constant (.text points _) :: _) _)) _ => [points]
  | .evaluates value => if value.text?.isSome then [] else writtenValue ctx base standing value
  | _ => []

/-- The strings that are written in the guard of a case. -/
def writtenGuard (guard : Option Expr) : List CodePoints :=
  (guard.map (written ctx base)).getD []

/-- The strings that are written in the patterns and guards of cases. -/
def writtenCases : List Case → List CodePoints
  | [] => []
  | .mk pattern guard _ :: rest =>
    writtenPattern ctx base pattern ++ (writtenGuard ctx base guard ++ writtenCases rest)

/-- The strings that are written in a statement outside its nested statements. -/
def writtenOwn (standing : Option (List CodePoints)) : Stmt → List CodePoints
  | .simple _ statement => writtenSimple ctx base standing statement
  | .branch _ test _ _ => written ctx base test
  | .select _ subject cases => written ctx base subject ++ writtenCases ctx base cases
  | _ => []

/-- The strings that are written in the value that a branch dispatches on. -/
def writtenDispatch : Stmt → List CodePoints
  | .branch line _ _ _ => writtenSubject ctx base line
  | _ => []

/-- The strings that are written in a statement that is reached in a way: with what its line asks
for if it is reached as a whole. -/
def writtenAt (arrival : Arrival) : List CodePoints :=
  (if arrival.way = .whole then
    writtenExpectations ctx arrival.after arrival.statement.line ++
      writtenDispatch ctx arrival.inside arrival.statement
    else []) ++
  writtenOwn ctx arrival.inside (writtenStanding ctx arrival.before arrival.statement.line)
    arrival.statement

/-- The strings that are written in statements that are reached. -/
def writtenIn (reaches : List Arrival) : List CodePoints :=
  reaches.flatMap (writtenAt ctx)

/-- The strings that are written in the body of a function: in the expectations above it and in the
statements after its documentation. -/
def writtenFunction (f : FunctionSource) : List CodePoints :=
  ((f.headLines.flatMap ctx.directives.onLine).filter fun d => d.kind = .expect).flatMap
    (fun d => writtenExpectation ctx base d.text) ++
  writtenIn ctx (arrivals ctx base .whole (withoutDocumentation f.body))

end Written

section Ends

variable {ctx : Context} {base : LoweringState} {fails : Failure → Prop}
  {strings others : List CodePoints}

/-- A text is lowered that holds strings. -/
abbrev EndsText (ctx : Context) (base : LoweringState) (fails : Failure → Prop)
    (strings : List CodePoints) (action : Lowering String) : Prop :=
  Ends (Alike base) fails (Bears ctx.options.indent.toNat strings) action

/-- Lines are lowered that hold strings. -/
abbrev EndsLines (ctx : Context) (base : LoweringState) (fails : Failure → Prop)
    (strings : List CodePoints) (action : Lowering (List String)) : Prop :=
  Ends (Alike base) fails (BearsAmong ctx.options.indent.toNat strings) action

/-- Clauses are lowered whose texts hold strings. -/
abbrev EndsClauses (ctx : Context) (base : LoweringState) (fails : Failure → Prop)
    (strings : List CodePoints) (action : Lowering (List WhenClause)) : Prop :=
  Ends (Alike base) fails (fun clauses => BearsAmong ctx.options.indent.toNat strings
    (clauses.map (WhenClause.render ctx.options.indent))) action

/-- A text that holds strings is lowered from a state, and other aliases may be in force after
it. -/
abbrev TextFrom (ctx : Context) (base : LoweringState) (fails : Failure → Prop)
    (strings : List CodePoints) (action : Lowering String) : Prop :=
  EndsFrom base fails (Bears ctx.options.indent.toNat strings) action

/-- Lines that hold strings are lowered from a state, and other aliases may be in force after
them. -/
abbrev LinesFrom (ctx : Context) (base : LoweringState) (fails : Failure → Prop)
    (strings : List CodePoints) (action : Lowering (List String)) : Prop :=
  EndsFrom base fails (BearsAmong ctx.options.indent.toNat strings) action

/-! ## Simple statements -/

/-- Dropping aliases cannot fail. -/
theorem ends_dropAliases (names : List String) :
    Ends (fun _ => True) fails (fun _ => True) (dropAliases names) :=
  ends_modify trivial fun _ _ => trivial

theorem ends_setAlias (name text : String) :
    Ends (fun _ => True) fails (fun _ => True) (setAlias name text) :=
  ends_modify trivial fun _ _ => trivial

mutual

/-- What binds a target is written exactly if the target can be bound. -/
theorem ends_bindingText? : ∀ target : Expr,
    Ends (fun _ => True) fails (fun text => text.isSome = isBindable target) (bindingText? target)
  | .name _ => (ends_dropAliases _).bind fun _ _ => .pure rfl
  | .tuple items => by
      rw [bindingText?]
      exact (ends_bindingTexts? items).bind fun _ htexts =>
        .pure (by simpa [isBindable] using htexts)
  | .list items => by
      rw [bindingText?]
      exact (ends_bindingTexts? items).bind fun _ htexts =>
        .pure (by simpa [isBindable] using htexts)
  | .starred value => by
      cases value with
      | name id => exact (ends_dropAliases _).bind fun _ _ => .pure rfl
      | _ => exact .pure rfl
  | .constant _ | .attribute .. | .subscript .. | .slice .. | .set _ | .dict _ | .unary ..
  | .binary .. | .boolean .. | .compare .. | .conditional .. | .call .. | .lambda ..
  | .comprehension .. | .dictComprehension .. | .named .. | .await _ | .yield _ | .yieldFrom _
  | .joined _ | .formatted .. => .pure rfl

/-- Several targets are written if each of them can be bound. -/
theorem ends_bindingTexts? : ∀ items : List Expr,
    Ends (fun _ => True) fails (fun texts => texts.isSome = areBindable items) (bindingTexts? items)
  | [] => .pure rfl
  | item :: rest => by
      rw [bindingTexts?]
      refine (ends_bindingText? item).bind fun text htext =>
        (ends_bindingTexts? rest).bind fun texts htexts => .pure ?_
      rw [areBindable, ← htext, ← htexts]
      cases text <;> cases texts <;> rfl

end

/-- Nothing is written in the transaction of a parameter. -/
theorem written_of_isTransactionAlias {value : Expr} (h : isTransactionAlias ctx value = true) :
    written ctx base value = [] := by
  unfold isTransactionAlias at h
  split at h
  · rw [written, written_of_name ctx base rfl]
  · cases h

/-- A name becomes an alias, and then the next part starts from another state, or it does not. -/
theorem EndsFrom.aliasFor? {α : Type} {gives : α → Prop} {next : Option String → Lowering α}
    {pipe : Option String} (name : String) {value : Expr} (h : Harmless fails value.subterms)
    (hnone : EndsFrom base fails gives (next none))
    (hsome : pipe = none → isTransactionAlias ctx value = true →
      ∀ text after, EndsFrom after fails gives (next (some text))) :
    EndsFrom base fails gives (aliasFor? ctx pipe name value >>= next) := by
  unfold Lowering.aliasFor?
  split
  · rename_i halias
    rw [Bool.and_eq_true, Option.isNone_iff_eq_none] at halias
    have hlower : EndsText ctx base fails (written ctx base value) (lower ctx value) :=
      ends_lower base value h
    have hset (text : String) : Ends (fun _ => True) fails (fun found => found.isSome) (do
        setAlias name text
        return some text) := (ends_setAlias name text).bind fun _ _ => .pure rfl
    have hfound : EndsFrom base fails (fun found => found.isSome) (do
        let text ← lower ctx value
        setAlias name text
        return some text) := .after hlower fun text _ => .anywhere (hset text)
    refine hfound.then fun found hfound after => ?_
    obtain ⟨text, rfl⟩ := Option.isSome_iff_exists.mp hfound
    exact hsome halias.1 halias.2 text after
  · exact hnone

variable {standing : Option (List CodePoints)} {pipe : Option String} {value : Expr}

/-- A binding holds the strings of its value, if its target can be bound. -/
theorem textFrom_bindText (line : Nat) (hpipe : StandsIn ctx.options.indent.toNat standing pipe)
    (target : Expr) (h : Harmless fails value.subterms) :
    TextFrom ctx base fails (if isBindable target then writtenValue ctx base standing value else [])
      (bindText ctx line pipe target value) := by
  refine .after (ends_valueText hpipe h) fun text htext =>
    (EndsFrom.anywhere (ends_bindingText? target)).then fun found hfound _ => ?_
  rw [← hfound]
  cases found with
  | some pattern => exact .pure (htext.after ("let " ++ pattern ++ " = "))
  | none => exact .of_ends ((ends_warn _ _).bind fun _ _ => .pure (bears_nil _ _))

/-- Where an alias is made, nothing is written in the value. -/
theorem writtenValue_of_alias {width : Nat} (hpipe : StandsIn width standing pipe)
    (hnone : pipe = none)
    (halias : isTransactionAlias ctx value = true) : writtenValue ctx base standing value = [] := by
  subst hnone
  cases hpipe
  exact written_of_isTransactionAlias halias

/-- An assignment holds the strings of its value, unless it makes an alias. -/
theorem textFrom_assignText (line : Nat) (hpipe : StandsIn ctx.options.indent.toNat standing pipe)
    (targets : List Expr) (h : Harmless fails value.subterms) :
    TextFrom ctx base fails (writtenSimple ctx base standing (.assigns targets value))
      (assignText ctx line pipe targets value) := by
  unfold assignText
  extract_lets bound
  have hbound (u : Unit) :
      TextFrom ctx base fails (writtenSimple ctx base standing (.assigns targets value))
        (bound u) := by
    cases targets with
    | nil => exact .pure (bears_nil _ _)
    | cons target rest =>
        have htext : TextFrom ctx base fails
            (if isBindable target then writtenValue ctx base standing value else [])
            (bindText ctx line pipe target value) := textFrom_bindText line hpipe target h
        simp only [bound, writtenSimple]
        cases target.name? with
        | none => exact htext
        | some name =>
            refine .aliasFor? name h htext fun hnone halias text _ => ?_
            rw [writtenValue_of_alias hpipe hnone halias, ite_self]
            exact .of_ends ((ends_note _ _ _).bind fun _ _ => .pure (bears_nil _ _))
  split
  · exact .after (ends_warn _ _) fun u _ => hbound u
  · exact hbound ()

/-- So does an annotated one, and its type besides. -/
theorem textFrom_annotatedText (hpipe : StandsIn ctx.options.indent.toNat standing pipe)
    (target : Expr) {hint : Expr} {value : Option Expr}
    (hhint : Hint.Harmless ctx.options.names fails hint)
    (h : Harmless fails (Expr.all value.toList)) :
    TextFrom ctx base fails (writtenSimple ctx base standing (.annotates target hint value))
      (annotatedText ctx pipe target hint value) := by
  unfold annotatedText
  cases value with
  | none =>
      cases target.name? <;> exact .pure (bears_nil _ _)
  | some value =>
      rw [Option.toList_some, Expr.all, Expr.all, List.append_nil] at h
      rw [writtenSimple]
      cases target.name? with
      | none => exact .pure (bears_nil _ _)
      | some name =>
          rw [Option.isSome_some, if_pos rfl]
          refine .aliasFor? name h ?_ fun hnone halias _ _ => ?_
          · refine .after (ends_valueText hpipe h) fun text htext => .drop (.of_ends ?_)
            refine (ends_ofReporting alike_journal (Hint.completes_resolve hhint)).bind
              fun type _ => .pure ?_
            exact htext.after ("let " ++ name ++ ": " ++ type.render ++ " = ")
          · rw [writtenValue_of_alias hpipe hnone halias]
            exact .pure (bears_nil _ _)

/-- Combining a name with a value writes the value. -/
theorem textFrom_augmentedText (line : Nat) (target : Expr) (op : BinaryOp)
    (h : Harmless fails value.subterms) :
    TextFrom ctx base fails (writtenSimple ctx base standing (.augments target op value))
      (augmentedText ctx line target op value) := by
  unfold augmentedText
  cases target with
  | name name =>
      have hboth : Harmless fails (Expr.binary op (.name name) value).subterms := by
        simpa [Expr.subterms, Expr.failure?, Harmless] using h
      exact .after (ends_lower base _ hboth) fun text htext =>
        .drop (.pure (htext.after ("let " ++ name ++ " = ")))
  | _ => exact .of_ends ((ends_warn _ _).bind fun _ _ => .pure (bears_nil _ _))

/-- Raising an error writes no string. -/
theorem ends_raiseText (exception cause : Option Expr) :
    EndsText ctx base fails (writtenSimple ctx base standing (.raises exception cause))
      (raiseText ctx exception) := by
  unfold raiseText
  split
  · rename_i callee points marked args keywords
    have hmessage : Harmless fails (Expr.constant (.text points marked)).subterms := by
      simp [Harmless, Expr.subterms, Expr.failure?, Constant.failure?]
    have htext : EndsText ctx base fails [points] (lower ctx (.constant (.text points marked))) :=
      ends_lower base _ hmessage
    exact htext.bind fun _ htext => .pure (htext.after "fail @")
  · rename_i hother
    have hnothing : writtenSimple ctx base standing (.raises exception cause) = [] := by
      unfold writtenSimple
      split
      case h_7 callee points marked args keywords _ hexception =>
        cases hexception
        exact absurd rfl (hother callee points marked args keywords)
      all_goals simp_all
    rw [hnothing]
    exact .pure (bears_nil _ _)

theorem ends_warnNested (statement : Stmt) :
    Ends (Alike base) fails (fun _ => True) (warnNested statement) :=
  ends_warn _ _

/-- A simple statement holds the strings of what it writes. -/
theorem textFrom_simpleText {line : Nat} (hpipe : StandsIn ctx.options.indent.toNat standing pipe)
    {statement : Simple} (h : HarmlessStatement ctx.options.names fails (.simple line statement)) :
    TextFrom ctx base fails (writtenSimple ctx base standing statement)
      (simpleText ctx line pipe statement) := by
  have hliterals := h.literals
  rw [Stmt.ownExpressions] at hliterals
  cases statement with
  | returns value =>
      cases value with
      | none =>
          cases hpipe with
          | some htext => exact .pure htext
          | none => exact .pure (bears_nil _ _)
      | some value =>
          have hvalue : Harmless fails value.subterms := by
            simpa [Simple.expressions, Expr.all] using hliterals
          exact .of_ends (ends_valueText hpipe hvalue)
  | assigns targets value =>
      rw [Simple.expressions, all_append, harmless_append] at hliterals
      exact textFrom_assignText line hpipe targets (by simpa [Expr.all] using hliterals.2)
  | annotates target hint value =>
      rw [Simple.expressions, Expr.all, Expr.all, harmless_append, harmless_append] at hliterals
      exact textFrom_annotatedText hpipe target (h.hint _ _ _ _ rfl) hliterals.2.2
  | augments target op value =>
      rw [Simple.expressions, Expr.all, Expr.all, harmless_append, harmless_append] at hliterals
      exact textFrom_augmentedText line target op hliterals.2.1
  | asserts test message =>
      rw [Simple.expressions, Expr.all, harmless_append] at hliterals
      exact .of_ends ((ends_lower base test hliterals.1).bind fun _ htext =>
        .pure (htext.after "expect "))
  | raises exception cause => exact .of_ends (ends_raiseText exception cause)
  | passes => exact .pure (bears_nil _ _)
  | evaluates value =>
      rw [simpleText, writtenSimple]
      have hvalue : Harmless fails value.subterms := by
        simpa [Simple.expressions, Expr.all] using hliterals
      cases value.text? with
      | some s => exact .pure (bears_nil _ _)
      | none => exact .of_ends (ends_valueText hpipe hvalue)
  | _ => exact .of_ends ((ends_warnNested _).bind fun _ _ => .pure (bears_nil _ _))

/-! ## Blocks and clauses -/

/-- What statements write is what each of them writes where it is reached. -/
theorem writtenIn_cons (reach : Arrival) (rest : List Arrival) :
    writtenIn ctx (reach :: rest) = writtenAt ctx reach ++ writtenIn ctx rest :=
  List.flatMap_cons

theorem writtenIn_append (first rest : List Arrival) :
    writtenIn ctx (first ++ rest) = writtenIn ctx first ++ writtenIn ctx rest :=
  List.flatMap_append

/-- A block in a scope of its own leaves the aliases as they were. -/
theorem ends_blockText {lines : Lowering (List String)} (hcomposed : Composed .block lines)
    (h : LinesFrom ctx base fails strings lines) :
    EndsText ctx base fails strings (blockText lines) :=
  (h.map fun _ hlines => hlines.joinLines).inBlock (hcomposed.map joinLines).uniform

/-- Braces indent what they hold. -/
theorem bears_braced {text : String} (h : Bears ctx.options.indent.toNat strings text) :
    Bears ctx.options.indent.toNat strings (braced ctx text) :=
  h.indentBlock.inside "\x7b\n" "\n\x7d"

/-- A clause holds what its body holds. -/
theorem bears_armText {indent : Int} {body : String} (h : Bears indent.toNat strings body) :
    Bears indent.toNat strings (Guard.armText indent body) := by
  intro s hs
  have hcarries := h s hs
  have hbody : (nonEmpty? body).getD "todo" = body := by
    simp [nonEmpty?, hcarries.ne_empty]
  have hown : Bears indent.toNat [s] body := by simpa [Bears] using hcarries
  unfold Guard.armText
  simp only [hbody]
  split
  · exact hown.indentBlock.inside " => \x7b\n" "\n\x7d" s (List.mem_singleton_self s)
  · exact hown.after " => " s (List.mem_singleton_self s)

/-- A clause holds what its pattern, its guard and its body hold. -/
theorem bears_clause {indent : Int} {clause : WhenClause} {guards bodies : List CodePoints}
    (hpattern : Bears indent.toNat strings clause.pattern.render)
    (hguard : BearsAmong indent.toNat guards clause.guard.toList)
    (hbody : Bears indent.toNat bodies clause.body) :
    Bears indent.toNat (strings ++ (guards ++ bodies)) (clause.render indent) := by
  have harm := bears_armText hbody
  rw [Guard.render_eq, bears_append, bears_append]
  refine ⟨?_, fun s hs => ?_, ?_⟩
  · split
    · rename_i guard _
      have hhead := (hpattern.before " if ").before guard
      exact hhead.before (Guard.armText indent clause.body)
    · exact hpattern.before (Guard.armText indent clause.body)
  · obtain ⟨guard, hmem, hcarries⟩ := hguard s hs
    have hsome : clause.guard = some guard := Option.mem_toList.mp hmem
    have hpresent : clause.guard.bind nonEmpty? = some guard := by
      simp [hsome, nonEmpty?, hcarries.ne_empty]
    have hown : Bears indent.toNat [s] guard := by simpa [Bears] using hcarries
    rw [hpresent]
    exact hown.inside (clause.pattern.render ++ " if ") (Guard.armText indent clause.body) s
      (List.mem_singleton_self s)
  · split
    · rename_i guard _
      exact harm.after (clause.pattern.render ++ " if " ++ guard)
    · exact harm.after clause.pattern.render

/-- A clause of a dispatched chain holds its guard's strings and its body's. -/
theorem bears_wildcardClause {indent : Int} {guard : Option String} {body : String}
    {guards bodies : List CodePoints} (hguard : BearsAmong indent.toNat guards guard.toList)
    (hbody : Bears indent.toNat bodies body) :
    Bears indent.toNat (guards ++ bodies) (WhenClause.render indent ⟨.wildcard, body, guard⟩) :=
  bears_clause (bears_nil _ _) hguard hbody

/-- A `when` holds the strings of its value and of its clauses. -/
theorem ends_whenText {clauses : List WhenClause} {expression : String}
    (hexpression : Bears ctx.options.indent.toNat strings expression)
    (hclauses : BearsAmong ctx.options.indent.toNat others
      (clauses.map (WhenClause.render ctx.options.indent))) :
    EndsText ctx base fails (strings ++ others) (whenText ctx expression clauses) := by
  have hlines : BearsAmong ctx.options.indent.toNat others
      (clauses.map fun clause => clause.render ctx.options.indent ++ ",") := by
    intro s hs
    obtain ⟨text, htext, hcarries⟩ := hclauses s hs
    obtain ⟨clause, hclause, rfl⟩ := List.mem_map.mp htext
    exact ⟨_, List.mem_map_of_mem hclause, hcarries.trans (infix_append_left _ ",")⟩
  have hhead := (hexpression.after "when ").before " \x7b\n"
  refine (ends_modifyRecords _).bind fun _ _ => .pure (bears_append.mpr ⟨?_, ?_⟩)
  · exact (hhead.before _).before "\n\x7d"
  · exact hlines.joinLines.indentBlock.inside ("when " ++ expression ++ " \x7b\n") "\n\x7d"

/-- A whole statement: a pipe is read before it, and the expectations of its line after it. -/
theorem textFrom_around {statement : Stmt}
    (htable : HarmlessTable ctx.options.names fails ctx.directives)
    (h : ∀ pipe, StandsIn ctx.options.indent.toNat (writtenStanding ctx base statement.line) pipe →
      TextFrom ctx (dropped statement.ownBoundNames base) fails strings
        (lowerText ctx pipe statement)) :
    TextFrom ctx base fails
      (writtenExpectations ctx (stateAfter ctx base statement []) statement.line ++ strings)
      (around ctx statement fun pipe => lowerText ctx pipe statement) := by
  let whole : Lowering String := around ctx statement fun pipe => lowerText ctx pipe statement
  let first : Lowering String := do
    let pipe ← pipeLine? ctx statement.line
    dropAliases statement.ownBoundNames
    lowerText ctx pipe statement
  let last (text : String) : Lowering String := do
    let expects ← expectLines ctx statement.line
    return joinLines ((expects ++ [text]).filter fun line => !line.isEmpty)
  have hsplit : whole = first >>= last := by
    simp only [whole, first, last, around, bind_assoc]
  have hafter : stateAfter ctx base statement [] = reachedState (first >>= last) base := by
    rw [← hsplit, stateAfter, List.isEmpty_nil, Bool.not_true, Bool.and_false, if_neg (by simp)]
  have huniform : Uniform (first >>= last) :=
    hsplit ▸ (composed_around ctx statement fun pipe =>
      composed_lowerText ctx pipe statement).uniform
  have hsteady (text : String) : Steady (last text) :=
    ((composed_expectLines ctx statement.line).bind fun _ => .pure _ :
      Composed .expression (last text)).steady
  have hfirst : TextFrom ctx base fails strings first :=
    .after (ends_pipeLine? htable statement.line) fun pipe hpipe => .drop (h pipe hpipe)
  change TextFrom ctx base fails _ whole
  rw [hsplit, hafter]
  refine hfirst.bindSteady huniform hsteady fun text htext => .of_ends ?_
  exact (ends_expectLines htable statement.line).bind fun expects hexpects =>
    .pure (hexpects.append htext.among).filter.joinLines

/-- Parts of a statement that are lowered one after the other hold what each of them holds. -/
inductive EndsParts (ctx : Context) (base : LoweringState) (fails : Failure → Prop) :
    List CodePoints → List (Lowering (List String)) → Prop
  | nil : EndsParts ctx base fails [] []
  | cons {first second : List CodePoints} {part : Lowering (List String)}
      {parts : List (Lowering (List String))} : EndsLines ctx base fails first part →
      EndsParts ctx base fails second parts →
        EndsParts ctx base fails (first ++ second) (part :: parts)

theorem endsParts_singleton {part : Lowering (List String)}
    (h : EndsLines ctx base fails strings part) : EndsParts ctx base fails strings [part] := by
  simpa using EndsParts.cons h .nil

/-- The lines of parts that are lowered one after the other. -/
theorem EndsParts.lines {parts : List (Lowering (List String))}
    (h : EndsParts ctx base fails strings parts) :
    Ends (Alike base) fails
      (fun texts => BearsAmong ctx.options.indent.toNat strings texts.flatten) (parts.mapM id) := by
  induction h with
  | nil => exact .pure (bearsAmong_nil _ _)
  | cons hpart _ ih =>
      rw [List.mapM_cons]
      exact hpart.bind fun _ hfirst => ih.bind fun _ hrest => .pure (hfirst.append hrest)

/-- A statement with blocks of its own, whose targets are hidden in them. -/
theorem textFrom_nestedText (statement : Stmt) {parts : List (Lowering (List String))}
    (h : EndsParts ctx (dropped statement.blockTargets base) fails strings parts) :
    TextFrom ctx base fails strings (nestedText statement parts) :=
  .after (ends_warnNested statement) fun _ _ =>
    .drop (.of_ends (h.lines.bind fun _ htexts => .pure htexts.filter.joinLines))

/-! ## Branches and dispatches -/

/-- A branch holds the strings of its test, its body and its alternative. -/
theorem ends_branchText (line : Nat) {test : Expr} {body : Lowering (List String)}
    {alternative : Alternative} {bodies : List CodePoints} (htest : Harmless fails test.subterms)
    (hbody : EndsText ctx base fails bodies (blockText body))
    (hempty : alternative.statements = [] → others = [])
    (hchain : continuesChain ctx alternative.statements = true →
      EndsText ctx base fails others alternative.chain)
    (hlines : continuesChain ctx alternative.statements = false →
      EndsText ctx base fails others (blockText alternative.lines)) :
    EndsText ctx base fails (written ctx base test ++ (bodies ++ others))
      (branchText ctx line test body alternative) := by
  have htest : EndsText ctx base fails (written ctx base test) (lower ctx test) :=
    ends_lower base test htest
  refine htest.bind fun condition hcondition => hbody.bind fun body hbody => ?_
  have hblock := bears_braced hbody
  have hhead : Bears ctx.options.indent.toNat (written ctx base test ++ bodies)
      ("if " ++ condition ++ " " ++ braced ctx body) :=
    bears_append.mpr ⟨((hcondition.after "if ").before " ").before (braced ctx body),
      hblock.after ("if " ++ condition ++ " ")⟩
  rw [← List.append_assoc]
  dsimp only
  split
  · rename_i hnone
    rw [hempty (List.isEmpty_iff.mp hnone), List.append_nil]
    exact (ends_warn _ _).bind fun _ _ => .pure hhead
  split
  · rename_i hcontinues
    refine (hchain hcontinues).bind fun text htext => .pure (bears_append.mpr ⟨?_, ?_⟩)
    · exact (hhead.before " else ").before text
    · exact htext.after ("if " ++ condition ++ " " ++ braced ctx body ++ " else ")
  · rename_i hcontinues
    refine (hlines (by simpa using hcontinues)).bind fun text htext =>
      .pure (bears_append.mpr ⟨?_, ?_⟩)
    · exact (hhead.before " else ").before (braced ctx text)
    · exact (bears_braced htext).after ("if " ++ condition ++ " " ++ braced ctx body ++ " else ")

/-- A link of a dispatched chain and those after it. -/
theorem ends_chainClauses {test : Expr} {body lines : Lowering (List String)} {orelse : List Stmt}
    {chain : Lowering (List WhenClause)} {bodies : List CodePoints}
    (htest : Harmless fails test.subterms)
    (hbody : EndsText ctx base fails bodies (blockText body))
    (hchain : isSingleBranch orelse = true → EndsClauses ctx base fails others chain)
    (hlines : isSingleBranch orelse = false → EndsText ctx base fails others (blockText lines))
    (hempty : orelse = [] → others = []) :
    EndsClauses ctx base fails (written ctx base test ++ (bodies ++ others))
      (chainClauses ctx test body orelse chain lines) := by
  have htest : EndsText ctx base fails (written ctx base test) (lower ctx test) :=
    ends_lower base test htest
  refine htest.bind fun guard hguard => hbody.bind fun body hbody => ?_
  have hclause : Bears ctx.options.indent.toNat (written ctx base test ++ bodies)
      (WhenClause.render ctx.options.indent ⟨.wildcard, body, some guard⟩) :=
    bears_wildcardClause hguard.among hbody
  rw [← List.append_assoc]
  dsimp only
  split
  · rename_i hsingle
    exact (hchain hsingle).bind fun _ hclauses => .pure (hclause.cons hclauses)
  split
  · rename_i hnone
    rw [hempty (List.isEmpty_iff.mp hnone)]
    exact .pure (hclause.cons (bearsAmong_nil _ _))
  · rename_i hsingle _
    refine (hlines (by simpa using hsingle)).bind fun last hlast => .pure ?_
    have hfinal : Bears ctx.options.indent.toNat others
        (WhenClause.render ctx.options.indent ⟨.wildcard, last, none⟩) :=
      bears_wildcardClause (bearsAmong_nil _ _) hlast
    exact hclause.cons hfinal.among

/-- A guard holds what is written in it. -/
theorem ends_guard {guard : Option Expr} (h : Harmless fails (Expr.all guard.toList)) :
    Ends (Alike base) fails
      (fun text => BearsAmong ctx.options.indent.toNat (writtenGuard ctx base guard) text.toList)
      (guard.mapM (lower ctx)) := by
  cases guard with
  | none => exact .pure (bearsAmong_nil _ _)
  | some e =>
      rw [Option.toList_some, Expr.all, Expr.all, List.append_nil] at h
      exact (ends_lower base e h).bind fun _ htext => .pure htext.among

/-- A case holds the strings of its pattern, its guard and its body. -/
theorem ends_caseClause {pattern : Pattern} {guard : Option Expr} {body : Lowering (List String)}
    {bodies : List CodePoints} (hpattern : Harmless fails (Expr.all pattern.expressions))
    (hguard : Harmless fails (Expr.all guard.toList))
    (hbody : EndsText ctx base fails bodies (blockText body)) :
    Ends (Alike base) fails
      (fun clause => Bears ctx.options.indent.toNat
        (writtenPattern ctx base pattern ++ (writtenGuard ctx base guard ++ bodies))
        (clause.render ctx.options.indent))
      (caseClause ctx pattern guard body) :=
  (ends_lowerPattern pattern hpattern).bind fun _ hpattern =>
    (ends_guard hguard).bind fun _ hguard =>
    hbody.bind fun _ hbody => .pure (bears_clause hpattern hguard hbody)

end Ends

end AikenForge.Lowering
