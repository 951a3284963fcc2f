/-
# Lowering keeps to shapes

An expression is lowered to a text of its shape, without failing. Names must be words that may stand
for values, numbers must have a decimal text, and what stands for a name by an alias or as a builtin
must be an atom. Of what is written in brackets it is shown only that it closes what it opens.
-/

import AikenForge.Proofs.Composition
import AikenForge.Proofs.Ending
import AikenForge.Proofs.Inlined.Text

namespace AikenForge.Readback

open AikenForge.Source AikenForge.Number AikenForge.Text AikenForge.Outline AikenForge.Lowering

/-! ## Proper expressions and regular states -/

/-- The names, labels and numbers that an expression itself writes are fit to be written, and a
connective has two operands or more. -/
def Proper (ctx : Context) : Expr → Prop
  | .name id =>
    IsName id ∧ (ctx.scope.constants.contains id = true → IsName (Naming.constantName id))
  | .constant (.int n) => n < digitBound
  | .constant (.real x) => ∃ n, x.truncate? = some n ∧ n < digitBound
  | .attribute value label =>
    IsWord label ∧ (value.name? = some "self" → IsName label) ∧
      ∀ constructor, enumMember? ctx value label = some constructor → IsName constructor
  | .dict entries =>
    ∀ key value, .pair key value ∈ entries → ∀ label, key.text? = some label → Closed label
  | .boolean _ values => 2 ≤ values.length
  | .call _ _ keywords => ∀ label value, .labelled label value ∈ keywords → IsWord label
  | .lambda parameters _ => ∀ name ∈ parameters.regular.map Parameter.name, IsWord name
  | _ => True

/-- Expressions of a list are proper. -/
def Tidy (ctx : Context) (expressions : List Expr) : Prop :=
  ∀ e ∈ expressions, Proper ctx e

variable {ctx : Context}

/-- Expressions are tidy one by one. -/
@[simp]
theorem tidy_cons {e : Expr} {rest : List Expr} :
    Tidy ctx (e :: rest) ↔ Proper ctx e ∧ Tidy ctx rest := by
  simp [Tidy]

@[simp]
theorem tidy_append {first rest : List Expr} :
    Tidy ctx (first ++ rest) ↔ Tidy ctx first ∧ Tidy ctx rest := by
  simp only [Tidy, List.mem_append]
  exact ⟨fun h => ⟨fun e he => h e (.inl he), fun e he => h e (.inr he)⟩,
    fun h e he => he.elim (h.1 e) (h.2 e)⟩

/-- What stands for a name, by an alias or as a builtin, is an atom. -/
structure Regular (state : LoweringState) : Prop where
  aliases {id text : String} : state.aliases.find? id = some text → Shaped .atom text
  builtins {mappings : Table String} {id text : String} :
    state.registry.map Registry.mappings = some mappings → mappings.find? id = some text →
    Shaped .atom text

/-- From every regular state a computation gives a value of one kind and leaves a regular state. -/
def Makes {α : Type} (gives : α → Prop) (action : Lowering α) : Prop :=
  AikenForge.Ends Regular (fun _ => False) gives action

section Operations

variable {α : Type} {gives : α → Prop}

theorem makes_warn (channel : Channel) (message : String) :
    Makes (fun _ => True) (warn channel message) :=
  ends_modify trivial fun _ h => ⟨h.aliases, h.builtins⟩

/-- Recording something makes no text. -/
theorem makes_modifyRecords (change : Records → Records) :
    Makes (fun _ => True) (modifyRecords change) :=
  ends_modify trivial fun _ h => ⟨h.aliases, h.builtins⟩

/-- A scope in which fewer names have an alias makes what its body makes. -/
theorem makes_withAliases {action : Lowering α} {change : Table String → Table String}
    (hchange : ∀ {aliases : Table String} {id text : String},
      (change aliases).find? id = some text → aliases.find? id = some text)
    (h : Makes gives action) : Makes gives (withAliases change action) := by
  intro state hstate
  have hinside := h { state with aliases := change state.aliases }
    ⟨fun hfind => hstate.aliases (hchange hfind), hstate.builtins⟩
  exact ⟨hinside.1, hstate.aliases, hinside.2.builtins⟩

/-- An alias that is left was there before. -/
theorem find?_of_erase {aliases : Table String} {key id text : String}
    (h : (aliases.erase key).find? id = some text) : aliases.find? id = some text := by
  rw [Table.find?_erase] at h
  split at h
  · cases h
  · exact h

/-- An alias that is left after several were taken out was there before. -/
theorem find?_of_foldl_erase {names : List String} {aliases : Table String} {id text : String}
    (h : (names.foldl Table.erase aliases).find? id = some text) :
    aliases.find? id = some text := by
  rw [Table.find?_foldl_erase] at h
  split at h
  · cases h
  · exact h

/-- A builtin is found for names only, and what it stands for is an atom. -/
theorem makes_builtinTarget? (callee : Expr) :
    Makes (fun target => ∀ text, target = some text → callee.name?.isSome ∧ Shaped .atom text)
      (builtinTarget? ctx callee) := by
  intro state hstate
  have hrun := outcome_builtinTarget? ctx callee state
  unfold outcome at hrun
  rw [hrun]
  refine ⟨?_, hstate.aliases, ?_⟩
  · intro text htext
    unfold foundTarget? at htext
    split at htext
    · rename_i id mappings hname hmappings
      split at htext
      · cases htext
      · exact ⟨by rw [hname]; rfl, hstate.builtins hmappings htext⟩
    · cases htext
  · intro mappings id text hmappings
    rw [mappings_useTarget] at hmappings
    exact hstate.builtins hmappings

end Operations

/-! ## Names, literals and functions -/

/-- A proper name is written as an atom, by its alias or by itself. -/
theorem makes_nameText {id : String} (h : Proper ctx (.name id)) :
    Makes (Shaped .atom) (nameText ctx id) := by
  refine .get fun state hstate => ?_
  split
  · rename_i text halias
    exact .pure (hstate.aliases halias)
  · refine .pure ?_
    unfold plainName
    split
    · rename_i hconstant
      exact shaped_name (h.2 hconstant)
    · exact shaped_name h.1

/-- A number within the digit limit is written, as an atom. -/
theorem makes_integerText {n : Nat} (h : n < digitBound) :
    Makes (Shaped .atom) (integerText n) := by
  intro state hstate
  have hrun : (integerText n).run state = _ := yields_integerText h state
  rw [hrun]
  exact ⟨shaped_number n, hstate⟩

theorem closed_empty : Closed "" :=
  outlines_empty.closed

/-- A constant is written in the shape of its form. -/
theorem makes_constantText {value : Constant} (h : Proper ctx (.constant value)) :
    Makes (Shaped (shape ctx (.constant value))) (constantText value) := by
  cases value with
  | int n =>
      simp only [constantText, shape]
      exact makes_integerText h
  | real x =>
      obtain ⟨n, htruncate, hbound⟩ := h
      simp only [constantText, shape, htruncate]
      split
      · exact (makes_warn _ _).bind fun _ _ => makes_integerText hbound
      · exact makes_integerText hbound
  | imaginary x => exact (makes_warn _ _).bind fun _ _ => .pure (shaped_broken closed_empty)
  | bool b => cases b <;> exact .pure (shaped_name (by decide))
  | none | ellipsis => exact .pure (shaped_name (by decide))
  | text points isMarked => exact .pure (shaped_quotePoints _ points)
  | bytes content => exact .pure (shaped_bytes content)

/-- A form that is not supported has an empty text, and its shape is broken. -/
theorem makes_unsupported (what kind : String) : Makes (Shaped .broken) (unsupported what kind) :=
  (makes_warn _ _).bind fun _ _ => .pure (shaped_broken closed_empty)

/-- What a suffix is put after: the text in brackets, unless it is an atom. -/
theorem Shaped.base {e : Expr} {text : String} (h : Shaped (shape ctx e) text) :
    Shaped ((shape ctx e).base e) (bracketOperand e.precedence .atom false text) := by
  unfold Shape.base
  split
  · rename_i hname
    obtain ⟨id, rfl⟩ : ∃ id, e = .name id := by
      cases e <;> first | exact ⟨_, rfl⟩ | cases hname
    rw [shape] at h
    exact h
  · exact h.inPlace _ _ _

/-- A text with a suffix after it. -/
theorem Shaped.onto {e : Expr} {text tail : String} {suffix : Suffix}
    (h : Shaped ((shape ctx e).base e) text) (htail : Follows suffix tail) :
    Shaped ((shape ctx e).onto e) (text ++ tail) := by
  unfold Shape.onto
  split
  · rename_i hname
    rw [Shape.base, if_pos hname] at h
    exact h.atom_suffixed htail
  · exact h.suffixed htail

/-- A builtin is called by its target, and any other callee by its text. -/
theorem makes_calleeText {callee : Expr} {lowered : Lowering String}
    (h : Makes (Shaped (shape ctx callee)) lowered) :
    Makes (Shaped ((shape ctx callee).base callee)) (calleeText ctx callee lowered) := by
  refine (makes_builtinTarget? callee).bind fun target htarget => ?_
  split
  · rename_i text
    obtain ⟨hname, htext⟩ := htarget text rfl
    rw [Shape.base, if_pos hname]
    exact .pure htext
  · exact h.bind fun _ htext => .pure htext.base

/-! ## Operators -/

/-- The text that an operator of comparison stands for between its sides. -/
theorem target?_of_comparisonOf? {op : CompareOp} {comparison : Comparison}
    (h : comparisonOf? op = some comparison) :
    ∃ symbol, op.target? = some symbol ∧
      Divides (" " ++ symbol ++ " ") (.comparison comparison) ∧
      (" " ++ symbol ++ " ").toList.all isBare = true := by
  cases op <;> cases h <;>
    exact ⟨_, rfl, divides_of_readToken fun _ => rfl, by decide⟩

/-- A comparison that the grammar does not have has no target operator. -/
theorem target?_of_comparisonOf?_eq_none {op : CompareOp} (h : comparisonOf? op = none) :
    op.target? = none := by
  cases op <;> first | rfl | cases h

/-- A comparison is an operation, a negated one, or a call that tests membership, by its
operator. -/
theorem makes_comparisonText (op : CompareOp) {left right : Lowering String} {ls rs : Shape}
    (leftOwn rightOwn : Precedence) (hl : Makes (Shaped ls) left) (hr : Makes (Shaped rs) right) :
    Makes (Shaped (comparisonShape op leftOwn ls rightOwn rs))
      (comparisonText op leftOwn left rightOwn right) := by
  unfold comparisonText comparisonShape
  cases hcomparison : comparisonOf? op with
  | some comparison =>
      obtain ⟨symbol, htarget, hdivides, hbare⟩ := target?_of_comparisonOf? hcomparison
      simp only [htarget]
      refine hl.bind fun l hleft => hr.bind fun r hright => .pure ?_
      have htext := Shaped.operation (.comparison comparison) (hleft.inPlace leftOwn .compare true)
        (hright.inPlace rightOwn .compare true) hdivides hbare
      simpa only [String.append_assoc] using htext
  | none =>
      simp only [target?_of_comparisonOf?_eq_none hcomparison]
      refine hr.bind fun container hcontainer => hl.bind fun item hitem => .pure ?_
      have htext := shaped_membership hcontainer.closed hitem.closed
      split
      · exact htext.not
      · exact htext

/-- The text of an arithmetic operator stands between operands, and its place is the operator's. -/
theorem divides_of_target? {op : BinaryOp} {symbol : String} {own : Precedence}
    (h : op.target? = some (symbol, own)) :
    Divides (" " ++ symbol ++ " ") (.arithmetic (arithmeticOf op)) ∧
      (" " ++ symbol ++ " ").toList.all isBare = true ∧ own = (arithmeticOf op).place := by
  cases op <;> cases h <;>
    exact ⟨divides_of_readToken fun _ => rfl, by decide, rfl⟩

/-- A binary operation has the shape of its operator, over operands in brackets where they need
them. -/
theorem makes_binary (op : BinaryOp) {left right : Expr}
    (hl : Makes (Shaped (shape ctx left)) (lower ctx left))
    (hr : Makes (Shaped (shape ctx right)) (lower ctx right)) :
    Makes (Shaped (shape ctx (.binary op left right))) (lower ctx (.binary op left right)) := by
  rw [lower, shape]
  cases htarget : op.target? with
  | none => exact makes_unsupported _ _
  | some target =>
      obtain ⟨symbol, own⟩ := target
      obtain ⟨hdivides, hbare, -⟩ := divides_of_target? htarget
      refine hl.bind fun l hleft => hr.bind fun r hright => .pure ?_
      have htext := Shaped.operation (.arithmetic (arithmeticOf op))
        (hleft.inPlace left.precedence own false) (hright.inPlace right.precedence own true)
        hdivides hbare
      simpa only [String.append_assoc] using htext

/-- A sign, a negation, or nothing at all for a plus. -/
theorem makes_unary (op : UnaryOp) {operand : Expr}
    (h : Makes (Shaped (shape ctx operand)) (lower ctx operand)) :
    Makes (Shaped (shape ctx (.unary op operand))) (lower ctx (.unary op operand)) := by
  cases op with
  | plus =>
      rw [lower, shape]
      exact h
  | minus =>
      simp only [lower, shape]
      exact h.bind fun _ htext => .pure (htext.inPlace _ _ _).minus
  | not =>
      simp only [lower, shape]
      exact h.bind fun _ htext => .pure (htext.inPlace _ _ _).not
  | invert =>
      simp only [lower, shape]
      exact h.bind fun _ _ => makes_unsupported _ _

/-- Operands of a connective make an operation, each with all that follow. -/
theorem shaped_operands {op : BoolOp} {values : List Expr} {texts : List String}
    (h : List.Forall₂ (fun e text =>
      Shaped ((shape ctx e).inPlace e.precedence (connectivePlace op) false) text) values texts) :
    Shaped (shapeOperands ctx op values) ((connective op).1.intercalate texts) := by
  induction h with
  | nil => exact shaped_broken closed_empty
  | cons hfirst hrest ih =>
      cases hrest with
      | nil =>
          rw [String.intercalate_singleton, shapeOperands]
          exact hfirst
      | cons =>
          rw [String.intercalate_cons_cons, shapeOperands]
          · exact .operation (.connective op) hfirst ih (divides_connective op)
              (isBare_connective op)
          · simp

/-! ## Suffixes -/

/-- An attribute is a suffix, unless it names the member of an enumeration. -/
theorem makes_attribute {value : Expr} {label : String}
    (hproper : Proper ctx (.attribute value label))
    (h : Makes (Shaped (shape ctx value)) (lower ctx value)) :
    Makes (Shaped (shape ctx (.attribute value label))) (lower ctx (.attribute value label)) := by
  obtain ⟨hword, hself, hmember⟩ := hproper
  have hnamed {text : String} (hname : value.name?.isSome) (htext : IsName text) :
      Shaped ((shape ctx value).onto value) text := by
    rw [Shape.onto, if_pos hname]
    exact shaped_name htext
  rw [lower, shape]
  split
  · rename_i constructor hconstructor
    refine .pure (hnamed ?_ (hmember constructor hconstructor))
    unfold enumMember? at hconstructor
    cases hname : value.name? with
    | none => simp [hname] at hconstructor
    | some id => rfl
  · refine .get fun state _ => ?_
    split
    · rename_i hname
      have hname : value.name? = some "self" :=
        beq_iff_eq.mp (Bool.and_eq_true _ _ ▸ hname).1
      exact .pure (hnamed (by rw [hname]; rfl) (hself hname))
    · refine h.bind fun text htext => .pure ?_
      have hall := htext.base.onto (follows_field hword)
      simpa only [String.append_assoc] using hall

/-- A subscript is a suffix in square brackets; a slice is not supported. -/
theorem makes_subscript {value index : Expr}
    (hvalue : Makes (Shaped (shape ctx value)) (lower ctx value))
    (hindex : Makes (Shaped (shape ctx index)) (lower ctx index)) :
    Makes (Shaped (shape ctx (.subscript value index))) (lower ctx (.subscript value index)) := by
  have hboth : Makes (Shaped ((shape ctx value).onto value)) (do
      let text ← lower ctx value
      let inside ← lower ctx index
      return bracketOperand value.precedence .atom false text ++ "[" ++ inside ++ "]") := by
    refine hvalue.bind fun text htext => hindex.bind fun inside hinside => .pure ?_
    have hall := htext.base.onto (follows_position hinside.closed)
    simpa only [String.append_assoc] using hall
  cases index with
  | slice =>
      simp only [lower, shape]
      exact (makes_warn _ _).bind fun _ _ => .pure (shaped_broken closed_empty)
  | _ =>
      simp only [lower, shape] at hboth ⊢
      exact hboth

/-- Rows between commas close what they open. -/
theorem closed_row {texts : List String} (h : ∀ text ∈ texts, Closed text) :
    Closed (", ".intercalate texts) :=
  closed_intercalate (closed_bare (by decide)) h

/-- Texts of expressions close what they open. -/
theorem closed_of_forall₂ {shapes : Expr → Shape} {items : List Expr} {texts : List String}
    (h : List.Forall₂ (fun e text => Shaped (shapes e) text) items texts) :
    ∀ text ∈ texts, Closed text := by
  have hclosed : List.Forall₂ (fun _ text => Closed text) items texts :=
    h.imp fun _ _ hshaped => hshaped.closed
  exact of_forall₂ hclosed

/-- Closed texts in braces are closed, whatever their number. -/
theorem closed_bracedFields {fields : List String} (h : ∀ text ∈ fields, Closed text) :
    bracedFields fields = "\x7b" ++ (" " ++ ", ".intercalate fields ++ " ") ++ "\x7d" ∧
      Closed (" " ++ ", ".intercalate fields ++ " ") := by
  have hblank : Closed " " := closed_bare (by decide)
  refine ⟨?_, (hblank.append (closed_row h)).append hblank⟩
  rw [bracedFields, ← String.toList_inj]
  simp [String.toList_append]

/-- Forms that look like calls have arguments. -/
theorem ne_nil_of_specialCall? {callee : Expr} {args : List Expr} {special : SpecialCall}
    (h : specialCall? ctx callee args = some special) : args ≠ [] := by
  rintro rfl
  unfold specialCall? at h
  split at h <;> simp at h

/-- A call is a suffix in round brackets, and a constructor's a suffix in braces. -/
theorem makes_call {callee : Expr} {args : List Expr} {keywords : List Keyword}
    (hcallee : Makes (Shaped (shape ctx callee)) (lower ctx callee))
    (hargs : Makes (List.Forall₂ (fun e text => Shaped (shape ctx e) text) args)
      (lowerAll ctx args))
    (hfields : Makes (fun texts => ∀ text ∈ texts, Closed text) (lowerFields ctx keywords))
    (hlabelled : Makes (fun texts => ∀ text ∈ texts, Closed text) (lowerLabelled ctx true keywords))
    (hpipe : Makes (Shaped (shapePipe ctx args)) (lowerPipe ctx args))
    (hexpect : args ≠ [] → Makes (Shaped .atom) (lowerExpect ctx args)) :
    Makes (Shaped (shape ctx (.call callee args keywords)))
      (lower ctx (.call callee args keywords)) := by
  rw [lower, shape]
  cases hspecial : specialCall? ctx callee args with
  | some special =>
      cases special with
      | pipe => exact hpipe
      | expect => exact hexpect (ne_nil_of_specialCall? hspecial)
  | none =>
      dsimp only
      refine (makes_calleeText hcallee).bind fun name hname => ?_
      split
      · apply hfields.bind
        intro fields hclosed
        refine .pure ?_
        obtain ⟨htext, hinside⟩ := closed_bracedFields hclosed
        have hall := hname.onto (follows_fields hinside)
        rw [htext]
        simpa only [String.append_assoc] using hall
      · refine hargs.bind fun positional hpositional =>
          hlabelled.bind fun labels hlabels => .pure ?_
        have hinside : Closed (", ".intercalate (positional ++ labels)) :=
          closed_row fun text htext =>
          (List.mem_append.mp htext).elim (closed_of_forall₂ hpositional text) (hlabels text)
        have hall := hname.onto (follows_arguments hinside)
        simpa only [String.append_assoc] using hall

/-! ## Pipes and expectations -/

/-- The call that a step makes of a value. -/
theorem shaped_apply {callee : Expr} {value name : String} {args : List String}
    (hname : Shaped ((shape ctx callee).base callee) name) (hvalue : Closed value)
    (hargs : ∀ text ∈ args, Closed text) :
    Shaped ((shape ctx callee).onto callee) (PipeOperation.apply value ⟨name, args⟩) := by
  have hinside : Closed (", ".intercalate (value :: args)) := closed_row fun text htext => by
    rcases List.mem_cons.mp htext with rfl | htext
    · exact hvalue
    · exact hargs text htext
  have hall := hname.onto (follows_arguments hinside)
  simpa only [PipeOperation.apply, String.append_assoc] using hall

/-- What steps make of a text with a shape. -/
def ShapesSteps (ctx : Context) (steps : List Expr) (operations : List PipeOperation) : Prop :=
  ∀ (own : Shape) (value : String), Shaped own value →
    Shaped (shapeSteps ctx own steps) (operations.foldl PipeOperation.apply value)

/-- A step of a pipe that is a call. -/
theorem makes_callStep {callee : Expr} {args : List Expr} {keywords : List Keyword}
    {rest : List Expr}
    (hcallee : Makes (Shaped (shape ctx callee)) (lower ctx callee))
    (hargs : Makes (List.Forall₂ (fun e text => Shaped (shape ctx e) text) args)
      (lowerAll ctx args))
    (hlabelled : Makes (fun texts => ∀ text ∈ texts, Closed text)
      (lowerLabelled ctx false keywords))
    (hrest : Makes (ShapesSteps ctx rest) (lowerSteps ctx rest)) :
    Makes (ShapesSteps ctx (.call callee args keywords :: rest))
      (lowerSteps ctx (.call callee args keywords :: rest)) := by
  rw [lowerSteps]
  refine hargs.bind fun positional hpositional => hlabelled.bind fun labels hlabels =>
    (makes_calleeText hcallee).bind fun name hname => hrest.bind fun operations hoperations =>
      .pure fun own value hvalue => ?_
  rw [shapeSteps]
  refine hoperations _ _ (shaped_apply hname hvalue.closed fun text htext => ?_)
  exact (List.mem_append.mp htext).elim (closed_of_forall₂ hpositional text) (hlabels text)

/-- A step of a pipe that is no call. -/
theorem makes_plainStep {e : Expr} {rest : List Expr}
    (hcall : ∀ callee args keywords, e ≠ .call callee args keywords)
    (h : Makes (Shaped (shape ctx e)) (lower ctx e))
    (hrest : Makes (ShapesSteps ctx rest) (lowerSteps ctx rest)) :
    Makes (ShapesSteps ctx (e :: rest)) (lowerSteps ctx (e :: rest)) := by
  rw [lowerSteps]
  · refine (makes_calleeText h).bind fun name hname => hrest.bind fun operations hoperations =>
      .pure fun own value hvalue => ?_
    rw [shapeSteps]
    · exact hoperations _ _ (shaped_apply hname hvalue.closed (by simp))
    · exact hcall
  · exact hcall

theorem makes_expectText {expression : String} (h : Closed expression)
    (message : Option CodePoints) :
    Makes (Shaped .atom) (expectText ctx expression message) := by
  refine (makes_modifyRecords _).bind fun _ _ => .pure ?_
  have hmessage := (shaped_quotePoints .ascii
    (ExpectExpression.message ⟨expression, message⟩ (some ctx.options.expectMessage))).closed
  have hall := (shaped_name (by decide : IsName "expect")).atom_suffixed
    (follows_arguments ((h.append (closed_bare (by decide : ", ".toList.all isBare = true))).append
      hmessage))
  have htext : ExpectExpression.render ⟨expression, message⟩ (some ctx.options.expectMessage) =
      "expect" ++ ("(" ++ (expression ++ ", " ++ quotePoints .ascii
        (ExpectExpression.message ⟨expression, message⟩ (some ctx.options.expectMessage))) ++
          ")") := by
    rw [ExpectExpression.render, ← String.toList_inj]
    simp [String.toList_append]
  rw [htext]
  exact hall

theorem makes_expectMessage (further : List Expr) :
    Makes (fun _ => True) (expectMessage further) := by
  unfold expectMessage
  split
  · exact .pure trivial
  · split
    · exact .pure trivial
    · exact (makes_warn _ _).bind fun _ _ => .pure trivial

/-! ## Comprehensions -/

/-- A call of a function of lists with a function of their elements. -/
theorem shaped_traversal {name source target body : String} (hname : IsWord name)
    (hsource : Closed source) (htarget : Closed target) (hbody : Closed body) :
    Shaped .atom ("list" ++ ("." ++ name) ++
      ("(" ++ (source ++ ", " ++ ("fn(" ++ target ++ ") \x7b " ++ body ++ " \x7d")) ++ ")")) :=
  shaped_listCall hname
    ((hsource.append (closed_bare (by decide))).append (shaped_function htarget hbody).closed)

/-- Conditions make a call of what they filter. -/
theorem shaped_filtered {own : Shape} {source target : String} {conditions : List String}
    (h : Shaped own source) (htarget : Closed target)
    (hconditions : ∀ condition ∈ conditions, Closed condition) :
    Shaped (if conditions.isEmpty then own else .atom)
      (conditions.foldl (filterText target) source) := by
  induction conditions generalizing own source with
  | nil => exact h
  | cons condition conditions ih =>
      have hfilter := shaped_traversal (by decide : IsWord "filter") h.closed htarget
        (hconditions condition List.mem_cons_self)
      have htext : filterText target source condition = "list" ++ ("." ++ "filter") ++
          ("(" ++ (source ++ ", " ++ ("fn(" ++ target ++ ") \x7b " ++ condition ++ " \x7d")) ++
            ")") := by
        unfold filterText
        rw [← String.toList_inj]
        simp [String.toList_append]
      have hrest := ih (htext ▸ hfilter) fun other hother =>
        hconditions other (List.mem_cons_of_mem _ hother)
      simpa using hrest

/-- Filters by the conditions around what is gone through, and a map around those. -/
theorem makes_comprehension {target : String} {iterable element : Expr} {conditions : List Expr}
    (isAsync : Bool) (htarget : Closed target)
    (hiterable : Makes (Shaped (shape ctx iterable)) (lower ctx iterable))
    (hconditions : Makes (List.Forall₂ (fun e text => Shaped (shape ctx e) text) conditions)
      (lowerAll ctx conditions))
    (helement : Makes (Shaped (shape ctx element)) (lower ctx element)) :
    Makes (Shaped (shape ctx
        (.comprehension .list element [.mk (.name target) iterable conditions isAsync])))
      (lower ctx (.comprehension .list element [.mk (.name target) iterable conditions
        isAsync])) := by
  rw [lower, shape]
  refine hiterable.bind fun source hsource => ?_
  refine makes_withAliases (fun hfind => find?_of_erase hfind) (hconditions.bind fun texts htexts =>
    ?_)
  have hempty : texts.isEmpty = conditions.isEmpty := by cases htexts <;> rfl
  have hfiltered := shaped_filtered hsource htarget (closed_of_forall₂ htexts)
  rw [hempty] at hfiltered
  by_cases hcopies : (element.name? == some target) = true
  · simp only [hcopies, Bool.and_true, if_true]
    exact .pure hfiltered
  · simp only [hcopies, Bool.and_false, Bool.false_eq_true, if_false]
    refine helement.bind fun mapped hmapped => .pure ?_
    have hall := shaped_traversal (by decide : IsWord "map") hfiltered.closed htarget hmapped.closed
    have htext (source : String) :
        "list.map(" ++ source ++ ", fn(" ++ target ++ ") \x7b " ++ mapped ++ " \x7d)" =
          "list" ++ ("." ++ "map") ++
            ("(" ++ (source ++ ", " ++ ("fn(" ++ target ++ ") \x7b " ++ mapped ++ " \x7d")) ++
              ")") := by
      rw [← String.toList_inj]
      simp [String.toList_append]
    rw [htext]
    exact hall

/-- Comprehensions over another target than a name have no text. -/
theorem makes_otherComprehension {target iterable element : Expr} {conditions : List Expr}
    (isAsync : Bool) (h : target.name? = none) :
    Makes (Shaped (shape ctx
      (.comprehension .list element [.mk target iterable conditions isAsync])))
      (lower ctx (.comprehension .list element [.mk target iterable conditions isAsync])) := by
  cases target with
  | name id => cases h
  | _ =>
      simp only [lower, shape]
      exact (makes_warn _ _).bind fun _ _ => .pure (shaped_broken closed_empty)

/-! ## Rows of labelled texts -/

/-- A label before a closed text keeps it closed. -/
theorem closed_labelled {label text : String} (hlabel : Closed label) (htext : Closed text) :
    Closed (label ++ ": " ++ text) :=
  (hlabel.append (closed_bare (by decide))).append htext

theorem closed_spread {text : String} (h : Closed text) : Closed (".." ++ text) :=
  (closed_bare (by decide)).append h

/-- An item and the items after it. -/
theorem makes_item {item : Lowering String} {change : String → String}
    {rest : Lowering (List String)}
    (hitem : Makes Closed item) (hchange : ∀ text, Closed text → Closed (change text))
    (hrest : Makes (fun texts => ∀ text ∈ texts, Closed text) rest) :
    Makes (fun texts => ∀ text ∈ texts, Closed text) (do
      let text ← item
      return change text :: (← rest)) :=
  hitem.bind fun text htext => hrest.bind fun _ htexts =>
    .pure (List.forall_mem_cons.mpr ⟨hchange text htext, htexts⟩)

/-- A text of whatever shape is closed. -/
theorem Makes.closed {own : Shape} {action : Lowering String} (h : Makes (Shaped own) action) :
    Makes Closed action :=
  h.imp fun _ hshaped => hshaped.closed

/-! ## Expressions -/

mutual

/-- From a regular state, a tidy expression is lowered to a text of its shape. -/
theorem makes_lower : ∀ e : Expr, Tidy ctx e.subterms → Makes (Shaped (shape ctx e)) (lower ctx e)
  | .name id, h => by
      rw [lower, shape]
      exact makes_nameText (h _ (by simp [Expr.subterms]))
  | .constant value, h => by
      rw [lower]
      exact makes_constantText (h _ (by simp [Expr.subterms]))
  | .attribute value label, h => by
      simp only [Expr.subterms, tidy_cons] at h
      exact makes_attribute h.1 (makes_lower value h.2)
  | .subscript value index, h => by
      simp only [Expr.subterms, tidy_cons, tidy_append] at h
      exact makes_subscript (makes_lower value h.2.1) (makes_lower index h.2.2)
  | .list items, h => by
      simp only [Expr.subterms, tidy_cons] at h
      rw [lower, shape]
      exact (makes_lowerAll items h.2).bind fun _ htexts =>
        .pure (shaped_square (closed_row (closed_of_forall₂ htexts)))
  | .tuple items, h => by
      simp only [Expr.subterms, tidy_cons] at h
      rw [lower, shape]
      exact (makes_lowerAll items h.2).bind fun _ htexts =>
        .pure (shaped_round (closed_row (closed_of_forall₂ htexts)))
  | .starred value, h => by
      simp only [Expr.subterms, tidy_cons] at h
      simp only [lower, shape]
      exact (makes_lower value h.2).bind fun _ htext =>
        .pure (shaped_broken (closed_spread htext.closed))
  | .dict entries, h => by
      simp only [Expr.subterms, tidy_cons] at h
      rw [lower, shape]
      refine (makes_lowerEntries entries h.1 h.2).bind fun fields hfields => .pure ?_
      split
      · exact shaped_brace closed_empty
      · obtain ⟨htext, hinside⟩ := closed_bracedFields hfields
        rw [htext]
        exact shaped_brace hinside
  | .unary op operand, h => by
      simp only [Expr.subterms, tidy_cons] at h
      exact makes_unary op (makes_lower operand h.2)
  | .binary op left right, h => by
      simp only [Expr.subterms, tidy_cons, tidy_append] at h
      exact makes_binary op (makes_lower left h.2.1) (makes_lower right h.2.2)
  | .boolean op values, h => by
      simp only [Expr.subterms, tidy_cons] at h
      have hplace : (connective op).2 = connectivePlace op := by cases op <;> rfl
      rw [lower, shape]
      dsimp only
      rw [hplace]
      exact (makes_lowerOperands (connectivePlace op) values h.2).bind fun _ htexts =>
        .pure (shaped_operands htexts)
  | .compare left links, h => by
      simp only [Expr.subterms, tidy_cons, tidy_append] at h
      rw [lower, shape]
      exact (makes_lowerLinks left.precedence (makes_lower left h.2.1) links h.2.2).bind
        fun _ htexts => .pure htexts.2
  | .conditional test body orelse, h => by
      simp only [Expr.subterms, tidy_cons, tidy_append] at h
      rw [lower, shape]
      exact (makes_lower test h.2.1.1).bind fun _ htest =>
        (makes_lower body h.2.1.2).bind fun _ hbody =>
          (makes_lower orelse h.2.2).bind fun _ horelse =>
          .pure (shaped_conditional htest hbody.closed horelse.closed)
  | .call callee args keywords, h => by
      simp only [Expr.subterms, tidy_cons, tidy_append] at h
      exact makes_call (makes_lower callee h.2.1.1) (makes_lowerAll args h.2.1.2)
        (makes_lowerFields keywords h.1 h.2.2) (makes_lowerLabelled true keywords h.1 h.2.2)
        (makes_lowerPipe args h.2.1.2) fun hne => makes_lowerExpect args hne h.2.1.2
  | .lambda parameters body, h => by
      simp only [Expr.subterms, tidy_cons, tidy_append] at h
      have hparameters : Closed (", ".intercalate (parameters.regular.map Parameter.name)) :=
        closed_row fun name hname => (outlines_word (h.1 name hname)).closed
      rw [lower, shape]
      exact (makes_withAliases find?_of_foldl_erase (makes_lower body h.2.2)).bind fun _ hbody =>
        .pure (shaped_function hparameters hbody.closed)
  | .comprehension .list element [.mk target iterable conditions isAsync], h => by
      simp only [Expr.subterms, Expr.ofClauses, tidy_cons, tidy_append] at h
      cases htarget : target.name? with
      | none => exact makes_otherComprehension isAsync htarget
      | some id =>
          obtain rfl : target = .name id := by
            cases target <;> simp_all [Expr.name?]
          have hid : Proper ctx (.name id) := h.2.2.1.1.1 _ (by simp [Expr.subterms])
          exact makes_comprehension isAsync (outlines_word hid.1.1).closed
            (makes_lower iterable h.2.2.1.1.2) (makes_lowerAll conditions h.2.2.1.2)
            (makes_lower element h.2.1)
  | .comprehension .list _ [], _ => by
      simp only [lower, shape]
      exact (makes_warn _ _).bind fun _ _ => .pure (shaped_broken closed_empty)
  | .comprehension .list _ (.mk target _ _ _ :: _ :: _), _ => by
      simp only [lower, shape]
      exact (makes_warn _ _).bind fun _ _ => .pure (shaped_broken closed_empty)
  | .comprehension .set _ _, _ | .comprehension .generator _ _, _ | .slice .., _ | .set _, _
  | .dictComprehension .., _ | .named .., _ | .await _, _ | .yield _, _ | .yieldFrom _, _
  | .joined _, _ | .formatted .., _ => by
      simp only [lower, shape]
      exact makes_unsupported _ _

theorem makes_lowerPipe : ∀ args : List Expr, Tidy ctx (Expr.all args) →
    Makes (Shaped (shapePipe ctx args)) (lowerPipe ctx args)
  | [], _ => by
      rw [lowerPipe, shapePipe]
      exact .pure (shaped_broken closed_empty)
  | first :: steps, h => by
      simp only [Expr.all, tidy_append] at h
      rw [lowerPipe, shapePipe]
      exact (makes_lower first h.1).bind fun _ hinitial =>
        (makes_lowerSteps steps h.2).bind fun _ hsteps =>
          (makes_modifyRecords _).bind fun _ _ => .pure (hsteps _ _ hinitial)

theorem makes_lowerExpect : ∀ args : List Expr, args ≠ [] → Tidy ctx (Expr.all args) →
    Makes (Shaped .atom) (lowerExpect ctx args)
  | [], hne, _ => absurd rfl hne
  | value :: further, _, h => by
      simp only [Expr.all, tidy_append] at h
      rw [lowerExpect]
      exact (makes_expectMessage further).bind fun _ _ =>
        (makes_lower value h.1).bind fun _ htext => makes_expectText htext.closed _

theorem makes_lowerAll : ∀ items : List Expr, Tidy ctx (Expr.all items) →
    Makes (List.Forall₂ (fun e text => Shaped (shape ctx e) text) items) (lowerAll ctx items)
  | [], _ => by
      rw [lowerAll]
      exact .pure .nil
  | e :: rest, h => by
      simp only [Expr.all, tidy_append] at h
      rw [lowerAll]
      exact (makes_lower e h.1).bind fun _ htext =>
        (makes_lowerAll rest h.2).bind fun _ htexts => .pure (.cons htext htexts)

theorem makes_lowerOperands (place : Precedence) : ∀ values : List Expr,
    Tidy ctx (Expr.all values) →
    Makes (List.Forall₂ (fun e text => Shaped ((shape ctx e).inPlace e.precedence place false) text)
      values) (lowerOperands ctx place values)
  | [], _ => by
      rw [lowerOperands]
      exact .pure .nil
  | e :: rest, h => by
      simp only [Expr.all, tidy_append] at h
      rw [lowerOperands]
      exact (makes_lower e h.1).bind fun _ htext =>
        (makes_lowerOperands place rest h.2).bind fun _ htexts =>
          .pure (.cons (htext.inPlace _ _ _) htexts)

theorem makes_lowerEntries : ∀ entries : List Entry, Proper ctx (.dict entries) →
    Tidy ctx (Expr.ofEntries entries) →
    Makes (fun texts => ∀ text ∈ texts, Closed text) (lowerEntries ctx entries)
  | [], _, _ => by
      rw [lowerEntries]
      exact .pure (by simp)
  | .spread value :: rest, hproper, h => by
      simp only [Expr.ofEntries, tidy_append] at h
      rw [lowerEntries]
      exact makes_item (makes_lower value h.1).closed (fun _ => closed_spread)
        (makes_lowerEntries rest (fun key value hmem => hproper key value (.tail _ hmem)) h.2)
  | .pair key value :: rest, hproper, h => by
      simp only [Expr.ofEntries, tidy_append] at h
      have hrest := makes_lowerEntries rest (fun key value hmem =>
        hproper key value (.tail _ hmem)) h.2
      have hvalue := (makes_lower value h.1.2).closed
      rw [lowerEntries]
      cases hlabel : key.text? with
      | some label =>
          have hclosed := hproper key value List.mem_cons_self label hlabel
          exact makes_item hvalue (fun _ => closed_labelled hclosed) hrest
      | none =>
          exact (makes_lower key h.1.1).closed.bind fun _ hclosed =>
            makes_item hvalue (fun _ => closed_labelled hclosed) hrest

theorem makes_lowerLinks (leftOwn : Precedence) {own : Shape} {left : Lowering String}
    (hleft : Makes (Shaped own) left) : ∀ links : List Link, Tidy ctx (Expr.ofLinks links) →
    Makes (fun texts => texts.length = links.length ∧
      Shaped (shapeLinks ctx leftOwn own links) (" && ".intercalate texts))
      (lowerLinks ctx leftOwn left links)
  | [], _ => by
      rw [lowerLinks, shapeLinks]
      exact .pure ⟨rfl, shaped_broken closed_empty⟩
  | .mk op right :: rest, h => by
      simp only [Expr.ofLinks, tidy_append] at h
      have hright := makes_lower right h.1
      rw [lowerLinks]
      refine (makes_comparisonText op _ _ hleft hright).bind fun text htext =>
        (makes_lowerLinks _ hright rest h.2).bind fun texts htexts => .pure ?_
      obtain ⟨hlength, htexts⟩ := htexts
      refine ⟨congrArg (· + 1) hlength, ?_⟩
      match rest, texts, hlength with
      | [], [], _ =>
          rw [String.intercalate_singleton, shapeLinks]
          exact htext
      | .mk _ _ :: _, _ :: _, _ =>
          rw [String.intercalate_cons_cons, shapeLinks]
          · exact .operation (.connective .and) htext htexts (divides_connective .and)
              (isBare_connective .and)
          · simp

theorem makes_lowerFields : ∀ keywords : List Keyword,
    (∀ label value, .labelled label value ∈ keywords → IsWord label) →
    Tidy ctx (Expr.ofKeywords keywords) →
    Makes (fun texts => ∀ text ∈ texts, Closed text) (lowerFields ctx keywords)
  | [], _, _ => by
      rw [lowerFields]
      exact .pure (by simp)
  | .labelled label value :: rest, hwords, h => by
      simp only [Expr.ofKeywords, tidy_append] at h
      have hlabel := (outlines_word (hwords label value List.mem_cons_self)).closed
      rw [lowerFields]
      exact makes_item (makes_lower value h.1).closed (fun _ => closed_labelled hlabel)
        (makes_lowerFields rest (fun label value hmem => hwords label value (.tail _ hmem)) h.2)
  | .spread value :: rest, hwords, h => by
      simp only [Expr.ofKeywords, tidy_append] at h
      rw [lowerFields]
      exact makes_item (makes_lower value h.1).closed (fun _ => closed_spread)
        (makes_lowerFields rest (fun label value hmem => hwords label value (.tail _ hmem)) h.2)

theorem makes_lowerLabelled (warnSpread : Bool) : ∀ keywords : List Keyword,
    (∀ label value, .labelled label value ∈ keywords → IsWord label) →
    Tidy ctx (Expr.ofKeywords keywords) →
    Makes (fun texts => ∀ text ∈ texts, Closed text) (lowerLabelled ctx warnSpread keywords)
  | [], _, _ => by
      rw [lowerLabelled]
      exact .pure (by simp)
  | .labelled label value :: rest, hwords, h => by
      simp only [Expr.ofKeywords, tidy_append] at h
      have hlabel := (outlines_word (hwords label value List.mem_cons_self)).closed
      rw [lowerLabelled]
      exact makes_item (makes_lower value h.1).closed (fun _ => closed_labelled hlabel)
        (makes_lowerLabelled warnSpread rest
          (fun label value hmem => hwords label value (.tail _ hmem)) h.2)
  | .spread _ :: rest, hwords, h => by
      simp only [Expr.ofKeywords, tidy_append] at h
      have hrest := makes_lowerLabelled warnSpread rest
        (fun label value hmem => hwords label value (.tail _ hmem)) h.2
      rw [lowerLabelled]
      split
      · exact (makes_warn _ _).bind fun _ _ => hrest
      · exact hrest

theorem makes_lowerSteps : ∀ steps : List Expr, Tidy ctx (Expr.all steps) →
    Makes (ShapesSteps ctx steps) (lowerSteps ctx steps)
  | [], _ => by
      rw [lowerSteps]
      refine .pure fun own value hvalue => ?_
      rw [shapeSteps]
      exact hvalue
  | e :: rest, h => by
      simp only [Expr.all, tidy_append] at h
      have hrest := makes_lowerSteps rest h.2
      have hown := makes_lower e h.1
      cases e with
      | call callee args keywords =>
          have hcall := h.1
          simp only [Expr.subterms, tidy_cons, tidy_append] at hcall
          exact makes_callStep (makes_lower callee hcall.2.1.1) (makes_lowerAll args hcall.2.1.2)
            (makes_lowerLabelled false keywords hcall.1 hcall.2.2) hrest
      | _ => exact makes_plainStep (by simp) hown hrest

end

end AikenForge.Readback
