/-
# Lowering side by side

Two ways to lower source are compared by a relation between computations: that they agree in what
they give, that one follows the other without aliases, or that they are equal. What is to be shown
of such a relation is that it passes through values, failures, sequences, reports and records. Then
two forms of source are lowered in related ways as soon as their parts are, which is shown here once
for each form, whatever the relation says. A form that comes to be lowered in another way changes
its lemma here and leaves the comparisons alone.

The two sides may look at different contexts and at different source, as far as that has the same
form.
-/

import AikenForge.Lowering.Pattern
import AikenForge.Proofs.Reports

namespace AikenForge

/-- The records of one body and then those of another. -/
def Records.append (first second : Records) : Records :=
  ⟨first.whens ++ second.whens, first.pipes ++ second.pipes, first.expects ++ second.expects⟩

instance : Append Records := ⟨Records.append⟩

/-- Nothing recorded adds nothing. -/
@[simp]
theorem Records.append_empty (records : Records) : records ++ ({} : Records) = records := by
  change Records.append records {} = records
  simp [Records.append]

/-- Records add up in order, however they are grouped. -/
theorem Records.append_assoc (first second third : Records) :
    first ++ second ++ third = first ++ (second ++ third) := by
  change Records.append (Records.append first second) third =
    Records.append first (Records.append second third)
  simp [Records.append]

namespace Lowering

open AikenForge.Source AikenForge.Text

/-! ## Relations of computations -/

/-- A relation between computations passes through what lowering is put together from. -/
structure Congruence (related : ∀ {α : Type}, Lowering α → Lowering α → Prop) : Prop where
  pure {α : Type} (value : α) : related (Pure.pure value) (Pure.pure value)
  throw {α : Type} (failure : Failure) : related (throw failure : Lowering α) (throw failure)
  bind {α β : Type} {action other : Lowering α} {next further : α → Lowering β} :
    related action other → (∀ value, related (next value) (further value)) →
    related (action >>= next) (other >>= further)
  note (level : Level) (channel : Channel) (message : String) :
    related (note level channel message) (note level channel message)
  record (added : Records) : related (modifyRecords (· ++ added)) (modifyRecords (· ++ added))

/-- The relation also passes into scopes. -/
structure ScopeCongruence (related : ∀ {α : Type}, Lowering α → Lowering α → Prop) : Prop
    extends Congruence @related where
  withAliases {α : Type} {action other : Lowering α} (change : Table String → Table String) :
    related action other → related (withAliases change action) (withAliases change other)

/-- The relation also passes through bindings and annotations, and so through whole blocks. -/
structure BlockCongruence (related : ∀ {α : Type}, Lowering α → Lowering α → Prop) : Prop
    extends ScopeCongruence @related where
  setAlias (name text : String) : related (setAlias name text) (setAlias name text)
  dropAliases (names : List String) : related (dropAliases names) (dropAliases names)
  ofReporting {α : Type} {action : Reporting α} :
    action.Steady → related (ofReporting action) (ofReporting action)

namespace Congruence

variable {related : ∀ {α : Type}, Lowering α → Lowering α → Prop} (h : Congruence @related)
  {ctx ctx' : Context} {α β : Type}

include h

/-! ## Small computations -/

/-- A last step that only puts the value together. -/
theorem thenPure {action action' : Lowering α} (haction : related action action') (make : α → β) :
    related (action >>= fun value => Pure.pure (make value))
      (action' >>= fun value => Pure.pure (make value)) :=
  h.bind haction fun value => h.pure (make value)

/-- A value put together afterwards. -/
theorem map {action action' : Lowering α} (haction : related action action') (f : α → β) :
    related (f <$> action) (f <$> action') := by
  rw [map_eq_pure_bind, map_eq_pure_bind]
  exact h.thenPure haction f

/-- A list that is gone through, element by element. -/
theorem mapM {f g : α → Lowering β} {values : List α}
    (hvalues : ∀ value ∈ values, related (f value) (g value)) :
    related (values.mapM f) (values.mapM g) := by
  induction values with
  | nil => exact h.pure []
  | cons value values ih =>
      rw [List.mapM_cons, List.mapM_cons]
      refine h.bind (hvalues value List.mem_cons_self) fun _ => h.thenPure (ih ?_) _
      exact fun value hmem => hvalues value (List.mem_cons_of_mem _ hmem)

/-- A warning is a note with its level. -/
theorem warn (channel : Channel) (message : String) :
    related (Lowering.warn channel message) (Lowering.warn channel message) :=
  h.note .warning channel message

/-- A report, and a value whatever it says. -/
theorem reported (channel : Channel) (message : String) (value : α) :
    related (Lowering.warn channel message >>= fun _ => Pure.pure value)
      (Lowering.warn channel message >>= fun _ => Pure.pure value) :=
  h.bind (h.warn channel message) fun _ => h.pure value

/-- A form that is not supported gives a warning and an empty text. -/
theorem unsupported (what kind : String) :
    related (Lowering.unsupported what kind) (Lowering.unsupported what kind) :=
  h.reported .expressions _ _

/-- A change of the records that only adds to them. -/
theorem modifyRecords {change : Records → Records} (added : Records)
    (hchange : ∀ records, change records = records ++ added) :
    related (Lowering.modifyRecords change) (Lowering.modifyRecords change) := by
  obtain rfl : change = (· ++ added) := funext hchange
  exact h.record added

/-- A number is written, or has too many digits and fails, on both sides. -/
theorem integer (n : Nat) : related (integerText n) (integerText n) := by
  unfold integerText
  split
  · exact h.pure _
  · exact h.throw _

/-- A constant is written without a look at the context. -/
theorem constant (value : Constant) : related (constantText value) (constantText value) := by
  unfold constantText
  split
  case h_7 => exact h.integer _
  case h_8 x =>
    extract_lets truncated
    have htruncated (u : Unit) : related (truncated u) (truncated u) := by
      dsimp only [truncated]
      split
      · exact h.integer _
      · exact h.throw _
    split
    · exact h.bind (h.warn _ _) htruncated
    · exact htruncated ()
  case h_9 => exact h.reported _ _ _
  all_goals exact h.pure _

/-- The message of an expectation is read off its arguments. -/
theorem message (further : List Expr) :
    related (expectMessage further) (expectMessage further) := by
  unfold expectMessage
  split
  · exact h.pure _
  · split
    · exact h.pure _
    · exact h.reported _ _ _

/-- A pipe is recorded and written with the records before it. -/
theorem pipe (initialValue : String) (operations : List PipeOperation) :
    related (pipeText initialValue operations) (pipeText initialValue operations) := by
  refine h.bind (h.modifyRecords { pipes := [⟨initialValue, operations⟩] } fun records => ?_)
    fun _ => h.pure _
  change _ = Records.append records _
  simp [Records.append]

/-- An expectation is recorded and written by the options. -/
theorem expect (hoptions : ctx'.options = ctx.options) (expression : String)
    (message : Option CodePoints) :
    related (expectText ctx expression message) (expectText ctx' expression message) := by
  unfold expectText
  rw [hoptions]
  refine h.bind (h.modifyRecords { expects := [⟨expression, message⟩] } fun records => ?_)
    fun _ => h.pure _
  change _ = Records.append records _
  simp [Records.append]

/-- A `when` is recorded and written by the options. -/
theorem dispatch (hoptions : ctx'.options = ctx.options) (expression : String)
    (clauses : List WhenClause) :
    related (whenText ctx expression clauses) (whenText ctx' expression clauses) := by
  unfold whenText
  rw [hoptions]
  refine h.bind (h.modifyRecords { whens := [⟨expression, clauses⟩] } fun records => ?_)
    fun _ => h.pure _
  change _ = Records.append records _
  simp [Records.append]

/-- The two sides of a comparison are lowered in the order in which they are written. -/
theorem comparison (op : CompareOp) (leftOwn rightOwn : Precedence)
    {left left' right right' : Lowering String} (hleft : related left left')
    (hright : related right right') :
    related (comparisonText op leftOwn left rightOwn right)
      (comparisonText op leftOwn left' rightOwn right') := by
  unfold comparisonText
  split
  · exact h.bind hleft fun _ => h.thenPure hright _
  · exact h.bind hright fun _ => h.thenPure hleft _

/-- What is called is the same builtin on both sides, or is lowered in related ways. -/
theorem callee {callee callee' : Expr} (hown : callee'.precedence = callee.precedence)
    (htarget : related (builtinTarget? ctx callee) (builtinTarget? ctx' callee'))
    {lowered lowered' : Lowering String} (hlowered : related lowered lowered') :
    related (calleeText ctx callee lowered) (calleeText ctx' callee' lowered') := by
  unfold calleeText
  rw [hown]
  refine h.bind htarget fun target => ?_
  split
  · exact h.pure _
  · exact h.thenPure hlowered _

/-! ## The forms of expressions -/

section Forms

variable {value value' index index' left left' right right' : Expr}

omit h in
/-- A subscript by its two cases: a slice is not supported, and everything else is written. -/
theorem lower_subscript (ctx : Context) (value index : Expr) :
    lower ctx (.subscript value index) =
      if index.kind == "Slice" then do
        Lowering.warn .expressions "Slices are not supported"
        return ""
      else do
        let text ← lower ctx value
        let inside ← lower ctx index
        return bracketOperand value.precedence .atom false text ++ "[" ++ inside ++ "]" := by
  cases index <;> first | rfl | (rename_i kind _ _; cases kind <;> rfl)

/-- A field of what is neither an enumeration nor the receiver `self`. -/
theorem «attribute» (label : String) (hown : value'.precedence = value.precedence)
    (hmember : enumMember? ctx value label = none) (hmember' : enumMember? ctx' value' label = none)
    (hself : value.name? ≠ some "self") (hself' : value'.name? ≠ some "self")
    (hvalue : related (lower ctx value) (lower ctx' value')) :
    related (lower ctx (.attribute value label)) (lower ctx' (.attribute value' label)) := by
  have hplain {ctx : Context} {value : Expr} (hmember : enumMember? ctx value label = none)
      (hself : value.name? ≠ some "self") :
      lower ctx (.attribute value label) = lower ctx value >>= fun text =>
        Pure.pure (bracketOperand value.precedence .atom false text ++ "." ++ label) := by
    rw [lower, hmember]
    simp only [beq_false_of_ne hself, Bool.false_and, if_neg Bool.false_ne_true]
    rfl
  rw [hplain hmember hself, hplain hmember' hself', hown]
  exact h.thenPure hvalue _

/-- Both sides are a slice or none is, and only then are the parts lowered. -/
theorem subscript (hown : value'.precedence = value.precedence)
    (hslice : (index'.kind == "Slice") = (index.kind == "Slice"))
    (hvalue : (index.kind == "Slice") = false → related (lower ctx value) (lower ctx' value'))
    (hindex : (index.kind == "Slice") = false → related (lower ctx index) (lower ctx' index')) :
    related (lower ctx (.subscript value index)) (lower ctx' (.subscript value' index')) := by
  rw [lower_subscript, lower_subscript, hown, hslice]
  cases hkind : index.kind == "Slice" with
  | true => exact h.reported _ _ _
  | false => exact h.bind (hvalue hkind) fun _ => h.thenPure (hindex hkind) _

theorem list {items items' : List Expr}
    (hitems : related (lowerAll ctx items) (lowerAll ctx' items')) :
    related (lower ctx (.list items)) (lower ctx' (.list items')) :=
  h.thenPure hitems _

theorem tuple {items items' : List Expr}
    (hitems : related (lowerAll ctx items) (lowerAll ctx' items')) :
    related (lower ctx (.tuple items)) (lower ctx' (.tuple items')) :=
  h.thenPure hitems _

theorem starred (hvalue : related (lower ctx value) (lower ctx' value')) :
    related (lower ctx (.starred value)) (lower ctx' (.starred value')) :=
  h.thenPure hvalue _

theorem dict {entries entries' : List Entry}
    (hentries : related (lowerEntries ctx entries) (lowerEntries ctx' entries')) :
    related (lower ctx (.dict entries)) (lower ctx' (.dict entries')) :=
  h.thenPure hentries _

/-- A sign or a negation in front; brackets depend on the operand's precedence. -/
theorem unary (op : UnaryOp) (hown : value'.precedence = value.precedence)
    (hvalue : related (lower ctx value) (lower ctx' value')) :
    related (lower ctx (.unary op value)) (lower ctx' (.unary op value')) := by
  cases op with
  | plus => exact hvalue
  | minus | not =>
      rw [lower, lower, hown]
      · exact h.thenPure hvalue _
      all_goals simp
  | invert => exact h.bind hvalue fun _ => h.unsupported _ _

/-- Brackets depend on the precedences of the operands, so these must be the same on both sides. -/
theorem binary (op : BinaryOp) (hleftOwn : left'.precedence = left.precedence)
    (hrightOwn : right'.precedence = right.precedence)
    (hleft : related (lower ctx left) (lower ctx' left'))
    (hright : related (lower ctx right) (lower ctx' right')) :
    related (lower ctx (.binary op left right)) (lower ctx' (.binary op left' right')) := by
  rw [lower, lower, hleftOwn, hrightOwn]
  cases op.target? with
  | none => exact h.unsupported _ _
  | some target => exact h.bind hleft fun _ => h.thenPure hright _

theorem boolean (op : BoolOp) {values values' : List Expr}
    (hvalues : related (lowerOperands ctx (connective op).2 values)
      (lowerOperands ctx' (connective op).2 values')) :
    related (lower ctx (.boolean op values)) (lower ctx' (.boolean op values')) :=
  h.thenPure hvalues _

/-- A chain of comparisons starts from its first operand and goes on link by link. -/
theorem compare {links links' : List Link} (hown : left'.precedence = left.precedence)
    (hlinks : related (lowerLinks ctx left.precedence (lower ctx left) links)
      (lowerLinks ctx' left.precedence (lower ctx' left') links')) :
    related (lower ctx (.compare left links)) (lower ctx' (.compare left' links')) := by
  rw [lower, lower, hown]
  exact h.thenPure hlinks _

theorem conditional {test test' body body' orelse orelse' : Expr}
    (htest : related (lower ctx test) (lower ctx' test'))
    (hbody : related (lower ctx body) (lower ctx' body'))
    (horelse : related (lower ctx orelse) (lower ctx' orelse')) :
    related (lower ctx (.conditional test body orelse))
      (lower ctx' (.conditional test' body' orelse')) :=
  h.bind htest fun _ => h.bind hbody fun _ => h.thenPure horelse _

/-- Both calls are the same special form, or neither is one. -/
theorem call {callee callee' : Expr} {args args' : List Expr} {keywords keywords' : List Keyword}
    (hspecial : specialCall? ctx' callee' args' = specialCall? ctx callee args)
    (hargsEmpty : args'.isEmpty = args.isEmpty)
    (hkeywordsEmpty : keywords'.isEmpty = keywords.isEmpty)
    (hpipe : specialCall? ctx callee args = some .pipe →
      related (lowerPipe ctx args) (lowerPipe ctx' args'))
    (hexpect : specialCall? ctx callee args = some .expect →
      related (lowerExpect ctx args) (lowerExpect ctx' args'))
    (hcallee : related (calleeText ctx callee (lower ctx callee))
      (calleeText ctx' callee' (lower ctx' callee')))
    (hfields : specialCall? ctx callee args = none →
      related (lowerFields ctx keywords) (lowerFields ctx' keywords'))
    (hargs : specialCall? ctx callee args = none →
      related (lowerAll ctx args) (lowerAll ctx' args'))
    (hlabelled : specialCall? ctx callee args = none →
      related (lowerLabelled ctx true keywords) (lowerLabelled ctx' true keywords')) :
    related (lower ctx (.call callee args keywords))
      (lower ctx' (.call callee' args' keywords')) := by
  rw [lower, lower, hspecial, hargsEmpty, hkeywordsEmpty]
  cases hform : specialCall? ctx callee args with
  | some form =>
      cases form with
      | pipe => exact hpipe hform
      | expect => exact hexpect hform
  | none =>
      refine h.bind hcallee fun name => ?_
      split
      · exact h.thenPure (hfields hform) _
      · exact h.bind (hargs hform) fun _ => h.thenPure (hlabelled hform) _

/-- The parameters hide aliases in the body, in the same way on both sides. -/
theorem lambda (parameters : Parameters) {body body' : Expr}
    (hbody : related
      (withAliases (fun aliases =>
        (parameters.regular.map Parameter.name).foldl Table.erase aliases)
        (lower ctx body))
      (withAliases (fun aliases =>
        (parameters.regular.map Parameter.name).foldl Table.erase aliases)
        (lower ctx' body'))) :
    related (lower ctx (.lambda parameters body)) (lower ctx' (.lambda parameters body')) :=
  h.thenPure hbody _

/-- Inside a list comprehension the target has no alias, and another relation may hold there. -/
theorem comprehension {inside : ∀ {α : Type}, Lowering α → Lowering α → Prop}
    (hinside : Congruence @inside) {target : String} {isAsync : Bool}
    {element element' iterable iterable' : Expr} {conditions conditions' : List Expr}
    (hscope : ∀ {action action' : Lowering String}, inside action action' →
      related (withAliases (·.erase target) action) (withAliases (·.erase target) action'))
    (hname : (element'.name? == some target) = (element.name? == some target))
    (hiterable : related (lower ctx iterable) (lower ctx' iterable'))
    (hconditions : inside (lowerAll ctx conditions) (lowerAll ctx' conditions'))
    (helement : (element.name? == some target) = false →
      inside (lower ctx element) (lower ctx' element')) :
    related
      (lower ctx (.comprehension .list element [.mk (.name target) iterable conditions isAsync]))
      (lower ctx'
        (.comprehension .list element' [.mk (.name target) iterable' conditions' isAsync])) := by
  refine h.bind hiterable fun source => hscope (hinside.bind hconditions fun texts => ?_)
  dsimp only
  rw [hname]
  split
  · exact hinside.pure _
  · rename_i hother
    exact hinside.thenPure (helement (Bool.not_eq_true _ ▸ hother)) _

end Forms

/-! ## The parts of expressions -/

section Parts

variable {e e' callee callee' value value' key key' right right' : Expr}
  {items items' rest rest' : List Expr}

/-- A pipe has a first value, and steps after it. -/
theorem pipe_cons {steps steps' : List Expr}
    (hfirst : related (lower ctx value) (lower ctx' value'))
    (hsteps : related (lowerSteps ctx steps) (lowerSteps ctx' steps')) :
    related (lowerPipe ctx (value :: steps)) (lowerPipe ctx' (value' :: steps')) :=
  h.bind hfirst fun _ => h.bind hsteps fun _ => h.pipe _ _

/-- An expectation has a value, and perhaps a message. -/
theorem expect_cons (hoptions : ctx'.options = ctx.options)
    (hmessage : expectMessage rest' = expectMessage rest)
    (hvalue : related (lower ctx value) (lower ctx' value')) :
    related (lowerExpect ctx (value :: rest)) (lowerExpect ctx' (value' :: rest')) := by
  rw [lowerExpect, lowerExpect, hmessage]
  exact h.bind (h.message rest) fun _ => h.bind hvalue fun _ => h.expect hoptions _ _

theorem all_cons (he : related (lower ctx e) (lower ctx' e'))
    (hrest : related (lowerAll ctx rest) (lowerAll ctx' rest')) :
    related (lowerAll ctx (e :: rest)) (lowerAll ctx' (e' :: rest')) :=
  h.bind he fun _ => h.thenPure hrest _

/-- An operand of a connective, which is put in brackets by its precedence. -/
theorem operands_cons (place : Precedence) (hown : e'.precedence = e.precedence)
    (he : related (lower ctx e) (lower ctx' e'))
    (hrest : related (lowerOperands ctx place rest) (lowerOperands ctx' place rest')) :
    related (lowerOperands ctx place (e :: rest)) (lowerOperands ctx' place (e' :: rest')) := by
  rw [lowerOperands, lowerOperands, hown]
  exact h.bind he fun _ => h.thenPure hrest _

theorem entries_spread {rest rest' : List Entry}
    (hvalue : related (lower ctx value) (lower ctx' value'))
    (hrest : related (lowerEntries ctx rest) (lowerEntries ctx' rest')) :
    related (lowerEntries ctx (.spread value :: rest)) (lowerEntries ctx' (.spread value' ::
      rest')) :=
  h.bind hvalue fun _ => h.thenPure hrest _

/-- A key that is a text is written as it is, so both keys must have the same text. -/
theorem entries_pair {rest rest' : List Entry} (htext : key'.text? = key.text?)
    (hkey : related (lower ctx key) (lower ctx' key'))
    (hvalue : related (lower ctx value) (lower ctx' value'))
    (hrest : related (lowerEntries ctx rest) (lowerEntries ctx' rest')) :
    related (lowerEntries ctx (.pair key value :: rest))
      (lowerEntries ctx' (.pair key' value' :: rest')) := by
  rw [lowerEntries, lowerEntries, htext]
  cases key.text? with
  | some label => exact h.bind (h.pure _) fun _ => h.bind hvalue fun _ => h.thenPure hrest _
  | none => exact h.bind hkey fun _ => h.bind hvalue fun _ => h.thenPure hrest _

/-- One link of a chain: its right side is the left one of the next link. -/
theorem links_cons (op : CompareOp) (own : Precedence) {left left' : Lowering String}
    {rest rest' : List Link} (hown : right'.precedence = right.precedence)
    (hleft : related left left')
    (hright : related (lower ctx right) (lower ctx' right'))
    (hrest : related (lowerLinks ctx right.precedence (lower ctx right) rest)
      (lowerLinks ctx' right.precedence (lower ctx' right') rest')) :
    related (lowerLinks ctx own left (.mk op right :: rest))
      (lowerLinks ctx' own left' (.mk op right' :: rest')) := by
  rw [lowerLinks, lowerLinks, hown]
  exact h.bind (h.comparison op _ _ hleft hright) fun _ => h.thenPure hrest _

section Keywords

variable {rest rest' : List Keyword}

theorem fields_labelled (label : String) (hvalue : related (lower ctx value) (lower ctx' value'))
    (hrest : related (lowerFields ctx rest) (lowerFields ctx' rest')) :
    related (lowerFields ctx (.labelled label value :: rest))
      (lowerFields ctx' (.labelled label value' :: rest')) :=
  h.bind hvalue fun _ => h.thenPure hrest _

theorem fields_spread (hvalue : related (lower ctx value) (lower ctx' value'))
    (hrest : related (lowerFields ctx rest) (lowerFields ctx' rest')) :
    related (lowerFields ctx (.spread value :: rest)) (lowerFields ctx' (.spread value' ::
      rest')) :=
  h.bind hvalue fun _ => h.thenPure hrest _

/-- A labelled argument and the ones after it. -/
theorem labelled_labelled (warnSpread : Bool) (label : String)
    (hvalue : related (lower ctx value) (lower ctx' value'))
    (hrest : related (lowerLabelled ctx warnSpread rest) (lowerLabelled ctx' warnSpread rest')) :
    related (lowerLabelled ctx warnSpread (.labelled label value :: rest))
      (lowerLabelled ctx' warnSpread (.labelled label value' :: rest')) :=
  h.bind hvalue fun _ => h.thenPure hrest _

/-- A spread is not lowered here. -/
theorem labelled_spread (warnSpread : Bool) (value value' : Expr)
    (hrest : related (lowerLabelled ctx warnSpread rest) (lowerLabelled ctx' warnSpread rest')) :
    related (lowerLabelled ctx warnSpread (.spread value :: rest))
      (lowerLabelled ctx' warnSpread (.spread value' :: rest')) := by
  cases warnSpread with
  | true => exact h.bind (h.warn _ _) fun _ => hrest
  | false => exact hrest

end Keywords

/-- A step that is a call, with what is called and its arguments. -/
theorem steps_call {args args' : List Expr} {keywords keywords' : List Keyword}
    (hargs : related (lowerAll ctx args) (lowerAll ctx' args'))
    (hlabelled : related (lowerLabelled ctx false keywords) (lowerLabelled ctx' false keywords'))
    (hcallee : related (calleeText ctx callee (lower ctx callee))
      (calleeText ctx' callee' (lower ctx' callee')))
    (hrest : related (lowerSteps ctx rest) (lowerSteps ctx' rest')) :
    related (lowerSteps ctx (.call callee args keywords :: rest))
      (lowerSteps ctx' (.call callee' args' keywords' :: rest')) :=
  h.bind hargs fun _ => h.bind hlabelled fun _ => h.bind hcallee fun _ => h.thenPure hrest _

omit h in
/-- A step that is no call is named as a callee is. -/
theorem lowerSteps_cons (ctx : Context) {e : Expr} (hcall : (e.kind == "Call") = false)
    (rest : List Expr) :
    lowerSteps ctx (e :: rest) = do
      let name ← calleeText ctx e (lower ctx e)
      return ⟨name, []⟩ :: (← lowerSteps ctx rest) := by
  cases e <;> first | rfl | contradiction

/-- A step that is called as it is. -/
theorem steps_cons (hcall : (e.kind == "Call") = false) (hcall' : (e'.kind == "Call") = false)
    (he : related (calleeText ctx e (lower ctx e)) (calleeText ctx' e' (lower ctx' e')))
    (hrest : related (lowerSteps ctx rest) (lowerSteps ctx' rest')) :
    related (lowerSteps ctx (e :: rest)) (lowerSteps ctx' (e' :: rest')) := by
  rw [lowerSteps_cons ctx hcall, lowerSteps_cons ctx' hcall']
  exact h.bind he fun _ => h.thenPure hrest _

end Parts

/-! ## Patterns -/

section Patterns

variable {e e' : Expr} {pattern pattern' : Pattern} {items items' : List Pattern}

theorem pattern_value (he : related (lower ctx e) (lower ctx' e')) :
    related (lowerPattern ctx (.value e)) (lowerPattern ctx' (.value e')) :=
  h.thenPure he _

/-- A pattern with a name gives a warning, and its name is not written. -/
theorem pattern_binding (name : String)
    (hpattern : related (lowerPattern ctx pattern) (lowerPattern ctx' pattern')) :
    related (lowerPattern ctx (.binding pattern name))
      (lowerPattern ctx' (.binding pattern' name)) :=
  h.bind (h.warn _ _) fun _ => hpattern

/-- A class pattern: the class, its patterns by position, and those by label. -/
theorem pattern_class (labels : List String) {fields fields' : List Pattern}
    (he : related (lower ctx e) (lower ctx' e'))
    (hitems : related (lowerPatterns ctx items) (lowerPatterns ctx' items'))
    (hfields : related (lowerPatterns ctx fields) (lowerPatterns ctx' fields')) :
    related (lowerPattern ctx (.class e items labels fields))
      (lowerPattern ctx' (.class e' items' labels fields')) :=
  h.bind he fun _ => h.bind hitems fun _ => h.thenPure hfields _

/-- A sequence is a tuple or a list as the source shows, if the source is known. -/
theorem pattern_sequence (hknows : ctx'.knowsSource = ctx.knowsSource) (opensRound : Bool)
    (hitems : related (lowerPatterns ctx items) (lowerPatterns ctx' items')) :
    related (lowerPattern ctx (.sequence opensRound items))
      (lowerPattern ctx' (.sequence opensRound items')) := by
  rw [lowerPattern, lowerPattern, hknows]
  exact h.thenPure hitems _

theorem pattern_alternatives
    (hitems : related (lowerPatterns ctx items) (lowerPatterns ctx' items')) :
    related (lowerPattern ctx (.alternatives items)) (lowerPattern ctx' (.alternatives items')) :=
  h.thenPure hitems _

theorem patterns_cons (hpattern : related (lowerPattern ctx pattern) (lowerPattern ctx' pattern'))
    (hitems : related (lowerPatterns ctx items) (lowerPatterns ctx' items')) :
    related (lowerPatterns ctx (pattern :: items)) (lowerPatterns ctx' (pattern' :: items')) :=
  h.bind hpattern fun _ => h.thenPure hitems _

end Patterns

end Congruence

end Lowering

end AikenForge
