/-
# Walks over source

The same source is lowered in two contexts, and a relation between computations is to hold of the
two ways. It holds of an expression if it holds of the uses of names in it; of a statement if it
holds of the expressions that are written of it and of what its line asks for, there and in the
statements inside it. There is no other induction over the forms of source for such a relation: what
it needs to show is what it says of single names and lines.
-/

import AikenForge.Proofs.Congruence.Statement
import AikenForge.Proofs.Local.Use

namespace AikenForge.Lowering

-- Some settings of the contexts matter to one form alone, which the others reach by the recursion.
set_option linter.unusedSectionVars false

open AikenForge.Source AikenForge.Text AikenForge.Locals
open AikenForge.Expectation (nestedAll nested nestedCases nestedHandlers)

variable (related : ∀ {α : Type}, Lowering α → Lowering α → Prop) (ctx ctx' : Context)

/-! ## Names -/

/-- A use of a name is lowered in related ways. A call of it is the same special form in both
contexts, or in neither. -/
def UseRelated : Use → Prop
  | .load id => related (nameText ctx id) (nameText ctx' id)
  | .call id hasArguments =>
    related (calleeText ctx (.name id) (nameText ctx id))
      (calleeText ctx' (.name id) (nameText ctx' id)) ∧
      ∀ args : List Expr, (!args.isEmpty) = hasArguments →
        specialCall? ctx' (.name id) args = specialCall? ctx (.name id) args
  | .field id label =>
    related (lower ctx (.attribute (.name id) label)) (lower ctx' (.attribute (.name id) label))

/-- All of some uses are lowered in related ways. -/
abbrev UsesRelated (found : List Use) : Prop :=
  ∀ use ∈ found, UseRelated @related ctx ctx' use

/-- Only a name can be a builtin. -/
theorem builtinTarget?_of_unnamed {callee : Expr} (h : callee.name? = none) :
    builtinTarget? ctx callee = pure none := by
  unfold builtinTarget?
  rw [h]
  rfl

/-- Only a name can be an enumeration. -/
theorem enumMember?_of_unnamed {value : Expr} (h : value.name? = none) (label : String) :
    enumMember? ctx value label = none := by
  unfold enumMember?
  rw [h]
  rfl

/-- Only a call of a name can be special. -/
theorem specialCall?_of_unnamed {callee : Expr} (h : callee.name? = none) (args : List Expr) :
    specialCall? ctx callee args = none := by
  unfold specialCall?
  rw [h]

theorem eq_name {e : Expr} {id : String} (h : e.name? = some id) : e = .name id := by
  cases e
  case name => exact congrArg Expr.name (Option.some.inj h)
  all_goals cases h

variable {related ctx ctx'}

/-! ## Expressions -/

namespace ScopeCongruence

variable (h : ScopeCongruence @related) (hoptions : ctx'.options = ctx.options)

include h

/-- What is called is a name that is called in related ways, or it is lowered in related ways. -/
theorem calleeOf {callee : Expr} {hasArguments : Bool}
    (huses : UsesRelated @related ctx ctx' (calleeUses callee hasArguments (uses ctx callee)))
    (hlower : UsesRelated @related ctx ctx' (uses ctx callee) →
      related (lower ctx callee) (lower ctx' callee)) :
    related (calleeText ctx callee (lower ctx callee))
      (calleeText ctx' callee (lower ctx' callee)) := by
  unfold calleeUses at huses
  cases hname : callee.name? with
  | some id =>
      rw [hname] at huses
      rw [eq_name hname]
      exact (huses _ List.mem_cons_self).1
  | none =>
      rw [hname] at huses
      refine h.callee rfl ?_ (hlower huses)
      rw [builtinTarget?_of_unnamed ctx hname, builtinTarget?_of_unnamed ctx' hname]
      exact h.pure none

omit h in
/-- A call stands for the same form in both contexts. -/
theorem specialCall?_eq {callee : Expr} {args : List Expr}
    (huses : UsesRelated @related ctx ctx' (calleeUses callee (!args.isEmpty) (uses ctx callee))) :
    specialCall? ctx' callee args = specialCall? ctx callee args := by
  unfold calleeUses at huses
  cases hname : callee.name? with
  | some id =>
      rw [hname] at huses
      rw [eq_name hname]
      exact (huses _ List.mem_cons_self).2 args rfl
  | none => rw [specialCall?_of_unnamed ctx hname, specialCall?_of_unnamed ctx' hname]

/-- An attribute is the member of an enumeration, left out after a plain `self`, or written after
its value. -/
theorem field {value : Expr} {label : String}
    (huses : UsesRelated @related ctx ctx' (uses ctx (.attribute value label)))
    (hvalue : UsesRelated @related ctx ctx' (uses ctx value) →
      related (lower ctx value) (lower ctx' value)) :
    related (lower ctx (.attribute value label)) (lower ctx' (.attribute value label)) := by
  rw [uses] at huses
  cases hname : value.name? with
  | some id =>
      rw [hname] at huses
      rw [eq_name hname]
      exact huses _ List.mem_cons_self
  | none =>
      rw [hname] at huses
      have hself : value.name? ≠ some "self" := by simp [hname]
      exact h.attribute label rfl (enumMember?_of_unnamed ctx hname label)
        (enumMember?_of_unnamed ctx' hname label) hself hself (hvalue huses)

include hoptions

mutual

/-- An expression is lowered in related ways if the names in it are used in related ways. -/
theorem expression : ∀ e : Expr, UsesRelated @related ctx ctx' (uses ctx e) →
    related (lower ctx e) (lower ctx' e)
  | .name id, huses => huses (.load id) List.mem_cons_self
  | .constant value, _ => h.constant value
  | .attribute value label, huses => h.field huses (expression value)
  | .subscript value index, huses => by
      rw [uses_subscript] at huses
      refine h.subscript rfl rfl (fun hslice => expression value ?_) fun hslice =>
        expression index ?_
      all_goals rw [hslice, if_neg Bool.false_ne_true] at huses
      · exact (List.forall_mem_append.mp huses).1
      · exact (List.forall_mem_append.mp huses).2
  | .list items, huses => h.list (all items huses)
  | .tuple items, huses => h.tuple (all items huses)
  | .starred value, huses => h.starred (expression value huses)
  | .dict entries, huses => h.dict (dictEntries entries huses)
  | .unary op operand, huses => h.unary op rfl (expression operand huses)
  | .binary op left right, huses => by
      obtain ⟨hleft, hright⟩ := List.forall_mem_append.mp huses
      exact h.binary op rfl rfl (expression left hleft) (expression right hright)
  | .boolean op values, huses => h.boolean op (operands _ values huses)
  | .compare left links, huses => by
      obtain ⟨hleft, hlinks⟩ := List.forall_mem_append.mp huses
      exact h.compare rfl (comparisons _ (expression left hleft) links hlinks)
  | .conditional test body orelse, huses => by
      obtain ⟨htest, huses⟩ := List.forall_mem_append.mp huses
      obtain ⟨hbody, horelse⟩ := List.forall_mem_append.mp huses
      exact h.conditional (expression test htest) (expression body hbody)
        (expression orelse horelse)
  | .call callee args keywords, huses => by
      rw [uses] at huses
      obtain ⟨hcallee, hinside⟩ := List.forall_mem_append.mp huses
      refine h.call (specialCall?_eq hcallee) rfl rfl (fun hform => pipeArguments args ?_)
        (fun hform => expectArguments args ?_) (h.calleeOf hcallee (expression callee))
        (fun hform => fields keywords ?_) (fun hform => all args ?_)
        fun hform => labelled true keywords ?_
      all_goals rw [hform] at hinside
      · exact hinside
      · exact hinside
      · exact (List.forall_mem_append.mp hinside).2
      · exact (List.forall_mem_append.mp hinside).1
      · exact (List.forall_mem_append.mp hinside).2
  | .lambda parameters body, huses =>
      h.lambda parameters (h.withAliases _ (expression body huses))
  | .comprehension .list element [.mk target iterable conditions _], huses => by
      have hiterable := expression iterable
      have hconditions := all conditions
      have helement := expression element
      cases target
      case name target =>
        obtain ⟨hsource, huses⟩ := List.forall_mem_append.mp huses
        obtain ⟨htests, hmapped⟩ := List.forall_mem_append.mp huses
        refine h.comprehension h.toCongruence (fun hinside => h.withAliases _ hinside) rfl
          (hiterable hsource) (hconditions htests) fun hother => helement ?_
        rwa [hother, if_neg Bool.false_ne_true] at hmapped
      all_goals exact h.reported _ _ _
  | .comprehension .list _ [], _ => h.reported _ _ _
  | .comprehension .list _ (.mk target _ _ _ :: _ :: _), _ => by
      cases target <;> exact h.reported _ _ _
  | .comprehension .set _ _, _ | .comprehension .generator _ _, _ | .slice .., _ | .set _, _
  | .dictComprehension .., _ | .named .., _ | .await _, _ | .yield _, _ | .yieldFrom _, _
  | .joined _, _ | .formatted .., _ => h.unsupported _ _

/-- The arguments of a pipe: its first value, and the steps. -/
theorem pipeArguments : ∀ args : List Expr, UsesRelated @related ctx ctx' (usesPipe ctx args) →
    related (lowerPipe ctx args) (lowerPipe ctx' args)
  | [], _ => h.pure _
  | value :: rest, huses => by
      obtain ⟨hvalue, hrest⟩ := List.forall_mem_append.mp huses
      exact h.pipe_cons (expression value hvalue) (steps rest hrest)

/-- The arguments of an expectation: what is expected, and the message. -/
theorem expectArguments : ∀ args : List Expr, UsesRelated @related ctx ctx' (usesExpect ctx args) →
    related (lowerExpect ctx args) (lowerExpect ctx' args)
  | [], _ => h.pure _
  | value :: _, huses => h.expect_cons hoptions rfl (expression value huses)

theorem all : ∀ items : List Expr, UsesRelated @related ctx ctx' (usesAll ctx items) →
    related (lowerAll ctx items) (lowerAll ctx' items)
  | [], _ => h.pure _
  | e :: rest, huses => by
      obtain ⟨he, hrest⟩ := List.forall_mem_append.mp huses
      exact h.all_cons (expression e he) (all rest hrest)

theorem operands (place : Precedence) : ∀ values : List Expr,
    UsesRelated @related ctx ctx' (usesAll ctx values) →
    related (lowerOperands ctx place values) (lowerOperands ctx' place values)
  | [], _ => h.pure _
  | e :: rest, huses => by
      obtain ⟨he, hrest⟩ := List.forall_mem_append.mp huses
      exact h.operands_cons place rfl (expression e he) (operands place rest hrest)

theorem dictEntries : ∀ entries : List Entry,
    UsesRelated @related ctx ctx' (usesEntries ctx entries) →
    related (lowerEntries ctx entries) (lowerEntries ctx' entries)
  | [], _ => h.pure _
  | .spread value :: rest, huses => by
      obtain ⟨hvalue, hrest⟩ := List.forall_mem_append.mp huses
      exact h.entries_spread (expression value hvalue) (dictEntries rest hrest)
  | .pair key value :: rest, huses => by
      obtain ⟨hkey, huses⟩ := List.forall_mem_append.mp huses
      obtain ⟨hvalue, hrest⟩ := List.forall_mem_append.mp huses
      exact h.entries_pair rfl (expression key hkey) (expression value hvalue)
        (dictEntries rest hrest)

theorem comparisons (leftOwn : Precedence) {left left' : Lowering String}
    (hleft : related left left') : ∀ links : List Link,
    UsesRelated @related ctx ctx' (usesLinks ctx links) →
    related (lowerLinks ctx leftOwn left links) (lowerLinks ctx' leftOwn left' links)
  | [], _ => h.pure _
  | .mk op right :: rest, huses => by
      obtain ⟨hright, hrest⟩ := List.forall_mem_append.mp huses
      have hright := expression right hright
      exact h.links_cons op leftOwn rfl hleft hright (comparisons _ hright rest hrest)

theorem fields : ∀ keywords : List Keyword,
    UsesRelated @related ctx ctx' (usesKeywords ctx keywords) →
    related (lowerFields ctx keywords) (lowerFields ctx' keywords)
  | [], _ => h.pure _
  | .labelled label value :: rest, huses => by
      obtain ⟨hvalue, hrest⟩ := List.forall_mem_append.mp huses
      exact h.fields_labelled label (expression value hvalue) (fields rest hrest)
  | .spread value :: rest, huses => by
      obtain ⟨hvalue, hrest⟩ := List.forall_mem_append.mp huses
      exact h.fields_spread (expression value hvalue) (fields rest hrest)

theorem labelled (warnSpread : Bool) : ∀ keywords : List Keyword,
    UsesRelated @related ctx ctx' (usesKeywords ctx keywords) →
    related (lowerLabelled ctx warnSpread keywords) (lowerLabelled ctx' warnSpread keywords)
  | [], _ => h.pure _
  | .labelled label value :: rest, huses => by
      obtain ⟨hvalue, hrest⟩ := List.forall_mem_append.mp huses
      exact h.labelled_labelled warnSpread label (expression value hvalue)
        (labelled warnSpread rest hrest)
  | .spread value :: rest, huses =>
      h.labelled_spread warnSpread value value
        (labelled warnSpread rest (List.forall_mem_append.mp huses).2)

theorem steps : ∀ items : List Expr, UsesRelated @related ctx ctx' (usesSteps ctx items) →
    related (lowerSteps ctx items) (lowerSteps ctx' items)
  | [], _ => h.pure _
  | e :: rest, huses => by
      have he := expression e
      have hrest := steps rest
      cases hcall : e.kind == "Call" with
      | false =>
          rw [usesSteps_cons hcall] at huses
          obtain ⟨hcallee, hafter⟩ := List.forall_mem_append.mp huses
          exact h.steps_cons hcall hcall (h.calleeOf hcallee he) (hrest hafter)
      | true =>
          cases e with
          | call callee args keywords =>
              obtain ⟨hargs, huses⟩ := List.forall_mem_append.mp huses
              obtain ⟨hkeywords, huses⟩ := List.forall_mem_append.mp huses
              obtain ⟨hcallee, hafter⟩ := List.forall_mem_append.mp huses
              exact h.steps_call (all args hargs) (labelled false keywords hkeywords)
                (h.calleeOf hcallee (expression callee)) (hrest hafter)
          | _ => first | contradiction | (rename_i kind _ _; cases kind <;> contradiction)

end

end ScopeCongruence

/-! ## Patterns -/

namespace Congruence

variable (h : Congruence @related) (hknows : ctx'.knowsSource = ctx.knowsSource)

include h hknows

mutual

/-- A pattern is lowered in related ways if the expressions in it are. -/
theorem pattern : ∀ pattern : Pattern,
    (∀ e ∈ pattern.expressions, related (lower ctx e) (lower ctx' e)) →
    related (lowerPattern ctx pattern) (lowerPattern ctx' pattern)
  | .value e, he => h.pattern_value (he e List.mem_cons_self)
  | .singleton _, _ | .capture none, _ | .capture (some _), _ | .star _, _ => h.pure _
  | .binding inner name, he => h.pattern_binding name (pattern inner he)
  | .class callee args labels fields, he => by
      obtain ⟨hcallee, hparts⟩ := List.forall_mem_cons.mp he
      obtain ⟨hargs, hfields⟩ := List.forall_mem_append.mp hparts
      exact h.pattern_class labels hcallee (patterns args hargs) (patterns fields hfields)
  | .sequence opensRound items, he => h.pattern_sequence hknows opensRound (patterns items he)
  | .alternatives items, he => h.pattern_alternatives (patterns items he)
  | .mapping .., _ => h.reported _ _ _

/-- Patterns are related by the expressions in them. -/
theorem patterns : ∀ patterns : List Pattern,
    (∀ e ∈ Pattern.expressionsAll patterns, related (lower ctx e) (lower ctx' e)) →
    related (lowerPatterns ctx patterns) (lowerPatterns ctx' patterns)
  | [], _ => h.pure _
  | first :: rest, he => by
      rw [Pattern.expressionsAll] at he
      obtain ⟨hfirst, hrest⟩ := List.forall_mem_append.mp he
      exact h.patterns_cons (pattern first hfirst) (patterns rest hrest)

end

end Congruence

/-! ## Statements -/

variable (related ctx ctx') in
/-- What lowering looks at of a statement, without the statements inside it, is lowered in related
ways: the expressions that are written of it and what its line asks for. Its line dispatches on the
same in both contexts, and a value that it assigns to a name is an alias in both or in neither. -/
structure RelatedAt (statement : Stmt) : Prop where
  heads : ∀ e ∈ heads statement, related (lower ctx e) (lower ctx' e)
  pipe : related (pipeLine? ctx statement.line) (pipeLine? ctx' statement.line)
  checks : related (expectLines ctx statement.line) (expectLines ctx' statement.line)
  dispatches : whenSubject? ctx' statement.line = whenSubject? ctx statement.line
  subject : ∀ text ∈ whenSubject? ctx statement.line,
    related (subjectText ctx text) (subjectText ctx' text)
  isAlias : ∀ line simple, statement = .simple line simple → ∀ value ∈ simple.namedValue?,
    isTransactionAlias ctx' value = isTransactionAlias ctx value

/-- The same alternative of a branch, lowered in related ways. -/
structure RelatedAlternatives (related : ∀ {α : Type}, Lowering α → Lowering α → Prop)
    (ctx ctx' : Context) (alternative alternative' : Alternative) : Prop where
  statements : alternative'.statements = alternative.statements
  continues : continuesChain ctx' alternative.statements = continuesChain ctx alternative.statements
  chain : related alternative.chain alternative'.chain
  lines : related alternative.lines alternative'.lines

namespace BlockCongruence

variable (h : BlockCongruence @related) (hoptions : ctx'.options = ctx.options)
  (hknows : ctx'.knowsSource = ctx.knowsSource)

include h hoptions

/-- A simple statement by the expressions that it writes, and by whether it makes an alias. -/
theorem simple (line : Nat) (pipe : Option String) {statement : Simple}
    (hwritten : ∀ e ∈ written statement, related (lower ctx e) (lower ctx' e))
    (halias : ∀ value ∈ statement.namedValue?,
      isTransactionAlias ctx' value = isTransactionAlias ctx value) :
    related (simpleText ctx line pipe statement) (simpleText ctx' line pipe statement) := by
  cases statement with
  | returns value =>
      cases value with
      | none => exact h.pure _
      | some value => exact h.valueOr pipe (hwritten value List.mem_cons_self)
  | assigns targets value =>
      refine h.assignment line pipe targets (fun hnamed => ?_) (hwritten value List.mem_cons_self)
      exact halias value (by rw [Simple.namedValue?, if_pos hnamed, Option.mem_some])
  | annotates target hint value =>
      refine h.annotation hoptions pipe target hint (fun hnamed => ?_) fun e he => ?_
      · rwa [Simple.namedValue?, if_pos hnamed] at halias
      · exact hwritten e (Option.mem_toList.mpr he)
  | augments target op value =>
      exact h.combination line target op (hwritten target List.mem_cons_self) rfl
        (hwritten value (List.mem_cons_of_mem _ List.mem_cons_self))
  | asserts test message => exact h.thenPure (hwritten test List.mem_cons_self) _
  | raises exception cause => exact h.failure exception
  | passes => exact h.pure _
  | evaluates value =>
      rw [simpleText, simpleText]
      split
      · exact h.pure _
      · exact h.valueOr pipe (hwritten value List.mem_cons_self)
  | _ => exact h.reported _ _ _

/-- A branch by its test, its body and what comes instead. -/
theorem branchOf (line : Nat) {test : Expr} (htest : related (lower ctx test) (lower ctx' test))
    {body body' : Lowering (List String)} (hbody : related body body')
    {alternative alternative' : Alternative}
    (halternative : RelatedAlternatives @related ctx ctx' alternative alternative') :
    related (branchText ctx line test body alternative)
      (branchText ctx' line test body' alternative') :=
  h.branch hoptions line (congrArg List.isEmpty halternative.statements)
    (halternative.statements ▸ halternative.continues) htest (h.block hbody)
    (fun _ => halternative.chain) fun _ => h.block halternative.lines

omit hoptions in
/-- The clauses of a chain by its tests and its bodies. -/
theorem clausesOf {test : Expr} (htest : related (lower ctx test) (lower ctx' test))
    {body body' : Lowering (List String)} (hbody : related body body') (orelse : List Stmt)
    {chain chain' : Lowering (List WhenClause)} (hchain : related chain chain')
    {lines lines' : Lowering (List String)} (hlines : related lines lines') :
    related (chainClauses ctx test body orelse chain lines)
      (chainClauses ctx' test body' orelse chain' lines') :=
  h.clauses rfl rfl htest (h.block hbody) (fun _ => hchain) fun _ => h.block hlines

omit hoptions in
/-- A statement with what its line asks for around it. -/
theorem wholeOf {statement : Stmt} (hstatement : RelatedAt @related ctx ctx' statement)
    {text text' : Option String → Lowering String}
    (htext : ∀ pipe, related (text pipe) (text' pipe)) :
    related (around ctx statement text) (around ctx' statement text') :=
  h.whole rfl hstatement.pipe htext hstatement.checks

omit h hoptions in
/-- Whether a chain goes on is the same on both sides if the directives of its lines are. -/
theorem continuesChain_eq {statements : List Stmt}
    (hinside : ∀ statement ∈ nestedAll statements, RelatedAt @related ctx ctx' statement) :
    continuesChain ctx' statements = continuesChain ctx statements :=
  continuesChain_congr fun _ hmem =>
    (hinside _ (AikenForge.Expectation.mem_nestedAll hmem)).dispatches

include hknows

mutual

/-- Statements are lowered in related ways if each of them is, at any depth. -/
theorem lines : ∀ statements : List Stmt,
    (∀ statement ∈ nestedAll statements, RelatedAt @related ctx ctx' statement) →
    related (lowerLines ctx statements) (lowerLines ctx' statements)
  | [], _ => h.pure _
  | statement :: rest, hall => by
      obtain ⟨hstatement, hall⟩ := List.forall_mem_cons.mp hall
      obtain ⟨hinside, hafter⟩ := List.forall_mem_append.mp hall
      have hrest := lines rest hafter
      have hinstead : Option.Rel (RelatedAlternatives @related ctx ctx')
          (some ⟨rest, lowerFirst ctx rest, lowerLines ctx rest⟩)
          (some ⟨rest, lowerFirst ctx' rest, lowerLines ctx' rest⟩) :=
        .some ⟨rfl, continuesChain_eq hafter, first rest hafter, hrest⟩
      have hbranch := branchWith hinstead statement hstatement hinside
      have htext (pipe : Option String) := text pipe statement hstatement hinside
      rw [lowerLines, lowerLines, isGuard_congr hstatement.dispatches]
      split
      · exact h.bind (h.dropAliases _) fun _ => h.bind hstatement.checks fun _ =>
          h.thenPure hbranch _
      · exact h.bind (h.wholeOf hstatement htext) fun _ => h.thenPure hrest _

/-- A branch and all that is inside it, by induction on the statement. -/
theorem branchWith {instead instead' : Option Alternative}
    (hinstead : Option.Rel (RelatedAlternatives @related ctx ctx') instead instead') :
    ∀ statement : Stmt, RelatedAt @related ctx ctx' statement →
    (∀ inside ∈ nested statement, RelatedAt @related ctx ctx' inside) →
    related (lowerBranch ctx instead statement) (lowerBranch ctx' instead' statement)
  | .branch line test body orelse, hstatement, hinside => by
      obtain ⟨hbody, horelse⟩ := List.forall_mem_append.mp hinside
      have htest := hstatement.heads test List.mem_cons_self
      have hbody := lines body hbody
      have hchain := first orelse horelse
      have hlines := lines orelse horelse
      rw [lowerBranch, lowerBranch]
      cases hinstead with
      | none =>
          exact h.branchOf hoptions line htest hbody
            ⟨rfl, continuesChain_eq horelse, hchain, hlines⟩
      | some hinstead => exact h.branchOf hoptions line htest hbody hinstead
  | .simple .., _, _ | .select .., _, _ | .forLoop .., _, _ | .whileLoop .., _, _
  | .context .., _, _ | .attempt .., _, _ | .function .., _, _ | .classDef .., _, _ => h.pure _

theorem first : ∀ statements : List Stmt,
    (∀ statement ∈ nestedAll statements, RelatedAt @related ctx ctx' statement) →
    related (lowerFirst ctx statements) (lowerFirst ctx' statements)
  | [], _ => h.pure _
  | statement :: _, hall => by
      obtain ⟨hstatement, hall⟩ := List.forall_mem_cons.mp hall
      exact branchWith .none statement hstatement (List.forall_mem_append.mp hall).1

/-- A statement and all that is inside it. -/
theorem text (pipe : Option String) : ∀ statement : Stmt,
    RelatedAt @related ctx ctx' statement →
    (∀ inside ∈ nested statement, RelatedAt @related ctx ctx' inside) →
    related (lowerText ctx pipe statement) (lowerText ctx' pipe statement)
  | .simple line statement, hstatement, _ =>
      h.simple hoptions line pipe hstatement.heads (hstatement.isAlias line statement rfl)
  | .branch line test body orelse, hstatement, hinside => by
      obtain ⟨hbody, horelse⟩ := List.forall_mem_append.mp hinside
      have htest := hstatement.heads test List.mem_cons_self
      have hbody := lines body hbody
      have hchain := first orelse horelse
      have hclauses := firstClausesOf orelse horelse
      have hlines := lines orelse horelse
      have hwhen : whenSubject? ctx' line = whenSubject? ctx line := hstatement.dispatches
      rw [lowerText, lowerText, hwhen]
      split
      · rename_i subject hsubject
        exact h.bind (hstatement.subject subject hsubject) fun _ =>
          h.bind (h.clausesOf htest hbody orelse hclauses hlines) fun _ => h.dispatch hoptions _ _
      · exact h.branchOf hoptions line htest hbody
          ⟨rfl, continuesChain_eq horelse, hchain, hlines⟩
  | .select _ subject cases, hstatement, hinside => by
      obtain ⟨hsubject, hcases⟩ := List.forall_mem_cons.mp hstatement.heads
      exact h.bind (casesOf cases hcases hinside) fun _ => h.bind hsubject fun _ =>
        h.dispatch hoptions _ _
  | .forLoop _ _ _ _ body orelse, _, hinside | .whileLoop _ _ body orelse, _, hinside => by
      obtain ⟨hbody, horelse⟩ := List.forall_mem_append.mp hinside
      exact h.parts _ (.cons (each body hbody) (.cons (each orelse horelse) .nil))
  | .context _ _ _ body, _, hinside | .function _ _ body, _, hinside
  | .classDef _ _ body, _, hinside => h.parts _ (.cons (each body hinside) .nil)
  | .attempt _ _ body handlers orelse finals, _, hinside => by
      obtain ⟨hbody, hinside⟩ := List.forall_mem_append.mp hinside
      obtain ⟨horelse, hinside⟩ := List.forall_mem_append.mp hinside
      obtain ⟨hhandlers, hfinals⟩ := List.forall_mem_append.mp hinside
      exact h.parts _ (.cons (each body hbody) (.cons (each orelse horelse)
        (.cons (handlersOf handlers hhandlers) (.cons (each finals hfinals) .nil))))

/-- The links of a dispatched chain and all that is inside them. -/
theorem branchClausesOf : ∀ statement : Stmt, RelatedAt @related ctx ctx' statement →
    (∀ inside ∈ nested statement, RelatedAt @related ctx ctx' inside) →
    related (branchClauses ctx statement) (branchClauses ctx' statement)
  | .branch _ test body orelse, hstatement, hinside => by
      obtain ⟨hbody, horelse⟩ := List.forall_mem_append.mp hinside
      exact h.clausesOf (hstatement.heads test List.mem_cons_self) (lines body hbody) orelse
        (firstClausesOf orelse horelse) (lines orelse horelse)
  | .simple .., _, _ | .select .., _, _ | .forLoop .., _, _ | .whileLoop .., _, _
  | .context .., _, _ | .attempt .., _, _ | .function .., _, _ | .classDef .., _, _ => h.pure _

theorem firstClausesOf : ∀ statements : List Stmt,
    (∀ statement ∈ nestedAll statements, RelatedAt @related ctx ctx' statement) →
    related (firstClauses ctx statements) (firstClauses ctx' statements)
  | [], _ => h.pure _
  | statement :: _, hall => by
      obtain ⟨hstatement, hall⟩ := List.forall_mem_cons.mp hall
      exact branchClausesOf statement hstatement (List.forall_mem_append.mp hall).1

/-- The cases of a `match`, by their patterns, their guards and their bodies. -/
theorem casesOf : ∀ cases : List Case,
    (∀ e ∈ caseHeads cases, related (lower ctx e) (lower ctx' e)) →
    (∀ inside ∈ nestedCases cases, RelatedAt @related ctx ctx' inside) →
    related (lowerCases ctx cases) (lowerCases ctx' cases)
  | [], _, _ => h.pure _
  | .mk pattern guard body :: rest, hheads, hinside => by
      obtain ⟨hpattern, hheads⟩ := List.forall_mem_append.mp hheads
      obtain ⟨hguard, hheads⟩ := List.forall_mem_append.mp hheads
      obtain ⟨hbody, hrest⟩ := List.forall_mem_append.mp hinside
      have hguards : Option.Rel (fun e e' => related (lower ctx e) (lower ctx' e')) guard
        guard := by
        cases guard with
        | none => exact .none
        | some e => exact .some (hguard e List.mem_cons_self)
      exact h.bind (h.clause (h.pattern hknows pattern hpattern) hguards
        (h.block (lines body hbody)))
        fun _ => h.thenPure (casesOf rest hheads hrest) _

/-- Statements one by one, without a look at how they chain. -/
theorem each : ∀ statements : List Stmt,
    (∀ statement ∈ nestedAll statements, RelatedAt @related ctx ctx' statement) →
    related (lowerEach ctx statements) (lowerEach ctx' statements)
  | [], _ => h.pure _
  | statement :: rest, hall => by
      obtain ⟨hstatement, hall⟩ := List.forall_mem_cons.mp hall
      obtain ⟨hinside, hafter⟩ := List.forall_mem_append.mp hall
      have htext (pipe : Option String) := text pipe statement hstatement hinside
      have hrest := each rest hafter
      exact h.bind (h.withAliases id (h.wholeOf hstatement htext)) fun _ => h.thenPure hrest _

/-- What catches failures is lowered by its body. -/
theorem handlersOf : ∀ handlers : List Handler,
    (∀ inside ∈ nestedHandlers handlers, RelatedAt @related ctx ctx' inside) →
    related (lowerHandlers ctx handlers) (lowerHandlers ctx' handlers)
  | [], _ => h.pure _
  | .mk _ _ body :: rest, hinside => by
      obtain ⟨hbody, hrest⟩ := List.forall_mem_append.mp hinside
      exact h.bind (h.block (lines body hbody)) fun _ => h.thenPure (handlersOf rest hrest) _

end

/-- The body of a function is lowered in related ways if its statements are, and the expectations
above it. -/
theorem function {f : FunctionSource}
    (honLine : ∀ line ∈ f.headLines, ctx'.directives.onLine line = ctx.directives.onLine line)
    (hchecks : ∀ d ∈ f.headLines.flatMap ctx.directives.onLine, d.kind = .expect →
      related (expectDirective ctx d.text) (expectDirective ctx' d.text))
    (hbody : ∀ statement ∈ nestedAll (withoutDocumentation f.body),
      RelatedAt @related ctx ctx' statement) :
    related (functionText ctx f) (functionText ctx' f) := by
  have hfound : f.headLines.flatMap ctx'.directives.onLine =
      f.headLines.flatMap ctx.directives.onLine := by
    rw [List.flatMap, List.flatMap, List.map_congr_left honLine]
  unfold functionText
  rw [hfound]
  exact h.bind (h.header f.header.name hchecks) fun _ =>
    h.thenPure (h.map (h.lines hoptions hknows _ hbody) joinLines) _

end BlockCongruence

end AikenForge.Lowering
