/-
# Operands that pass on a text

An operand is put in brackets by its own precedence, which is meant to say how tightly its text
binds. A pipe without steps and a comprehension that copies its list have the precedence of an atom,
but their text is that of the value they are applied to. So an operator takes them for whole
operands exactly if that value binds as tightly as its place asks. All other operands bind at least
as tightly as their precedence says and are always kept whole.
-/

import AikenForge.Proofs.Inlined.Lowered
import AikenForge.Proofs.Steady

namespace AikenForge.Readback

open AikenForge.Source AikenForge.Number AikenForge.Text AikenForge.Outline AikenForge.Lowering

/-! ## Operators and their operands -/

/-- An operand and the place that it is put in. -/
structure Operand where
  expr : Expr
  place : Precedence
  strict : Bool

namespace Operand

/-- The text of an operand in its place. -/
def put (o : Operand) (text : String) : String :=
  bracketOperand o.expr.precedence o.place o.strict text

/-- How tightly the place of an operand asks it to bind. -/
def asked (o : Operand) : Precedence :=
  operandPlace o.place o.strict

/-- The shape of an operand in its place. -/
def shape (ctx : Context) (o : Operand) : Shape :=
  (Readback.shape ctx o.expr).inPlace o.expr.precedence o.place o.strict

end Operand

/-- One comparison of a chain: its left side, its operator and its right side. -/
abbrev Side :=
  Expr × CompareOp × Expr

/-- The comparisons of a chain, each between one operand and the next. -/
def sides (left : Expr) : List Link → List Side
  | [] => []
  | .mk op right :: rest => (left, op, right) :: sides right rest

/-- A comparison as a part of a chain. -/
def partOf : Side → Part Operand
  | (left, op, right) =>
    match comparisonOf? op with
    | some comparison => .comparison comparison ⟨left, .compare, true⟩ ⟨right, .compare, true⟩
    | none => .membership (op == .notIn)

/-- An expression is lowered to an operator, with its operands outside brackets in their places. A
plus sign is dropped. A name is no operand of a suffix: it may stand for a member or a builtin with
it. -/
inductive Joins : Expr → Joint Operand → Prop
  | minus {operand : Expr} :
      Joins (.unary .minus operand) (.signed .minus ⟨operand, .unary, false⟩)
  | not {operand : Expr} : Joins (.unary .not operand) (.signed .not ⟨operand, .unary, false⟩)
  | arithmetic {op : BinaryOp} {symbol : String} {own : Precedence} {left right : Expr} :
      op.target? = some (symbol, own) →
      Joins (.binary op left right)
        (.arithmetic (arithmeticOf op) ⟨left, own, false⟩ ⟨right, own, true⟩)
  | connective {op : BoolOp} {values : List Expr} :
      Joins (.boolean op values)
        (.connective op (values.map fun e => ⟨e, connectivePlace op, false⟩))
  | comparisons {left : Expr} {links : List Link} :
      links ≠ [] → Joins (.compare left links) (.comparisons ((sides left links).map partOf))
  | field {value : Expr} {label : String} :
      value.name? = none →
      Joins (.attribute value label) (.suffixed (.field label) ⟨value, .atom, false⟩)
  | position {value index : Expr} :
      value.name? = none → (∀ lower upper step, index ≠ .slice lower upper step) →
      Joins (.subscript value index) (.suffixed .position ⟨value, .atom, false⟩)
  | arguments {callee : Expr} {args : List Expr} {keywords : List Keyword} :
      callee.name? = none →
      Joins (.call callee args keywords) (.suffixed .arguments ⟨callee, .atom, false⟩)

variable {ctx : Context}

/-! ## Precedences and strengths -/

/-- A call that passes nothing on is an atom. -/
theorem strength_call {callee : Expr} {args : List Expr} {keywords : List Keyword}
    (hsound : (shape ctx (.call callee args keywords)).Sound)
    (hpassed : passed? ctx (.call callee args keywords) = none) :
    (shape ctx (.call callee args keywords)).strength = .atom := by
  rw [shape] at hsound ⊢
  cases hspecial : specialCall? ctx callee args with
  | none =>
      simp only [hspecial] at hsound ⊢
      exact strength_onto hsound
  | some special =>
      cases special with
      | expect => rfl
      | pipe =>
          simp only [hspecial] at hsound ⊢
          match args with
          | [] => exact absurd rfl (ne_nil_of_specialCall? hspecial)
          | [value] => simp [passed?, hspecial] at hpassed
          | value :: step :: steps =>
              rw [shapePipe] at hsound ⊢
              exact strength_shapeSteps hsound

/-- A comprehension that passes nothing on is an atom. -/
theorem strength_comprehension {target : String} {iterable element : Expr} {conditions : List Expr}
    {isAsync : Bool}
    (hpassed : passed? ctx
      (.comprehension .list element [.mk (.name target) iterable conditions isAsync]) = none) :
    (shape ctx (.comprehension .list element
      [.mk (.name target) iterable conditions isAsync])).strength = .atom := by
  rw [shape]
  split
  · rename_i hcopies
    obtain ⟨hempty, hcopies⟩ := Bool.and_eq_true_iff.mp hcopies
    obtain rfl := List.isEmpty_iff.mp hempty
    rw [passed?] at hpassed
    split at hpassed
    · cases hpassed
    · contradiction
  · rfl

/-- What passes on no text binds at least as tightly as its precedence says. -/
theorem rank_precedence_le_strength : ∀ e : Expr, Tidy ctx e.subterms → (shape ctx e).Sound →
    passed? ctx e = none → e.precedence.rank ≤ (shape ctx e).strength.rank
  | .conditional .., _, _, _ | .lambda .., _, _, _ => Nat.zero_le _
  | .unary .plus operand, htidy, hsound, hpassed => by
      simp only [Expr.subterms, tidy_cons] at htidy
      rw [shape] at hsound ⊢
      rw [passed?] at hpassed
      exact rank_precedence_le_strength operand htidy.2 hsound hpassed
  | .unary .minus operand, _, hsound, _ | .unary .not operand, _, hsound, _ => by
      rw [shape] at hsound ⊢
      exact (congrArg Precedence.rank (weaker_of_le hsound.2)).ge
  | .binary op left right, _, hsound, _ => by
      rw [shape] at hsound ⊢
      rw [Expr.precedence]
      cases htarget : op.target? with
      | none => simp [htarget, Shape.Sound] at hsound
      | some target =>
          simp only [htarget] at hsound ⊢
          rw [strength_operation hsound]
          exact (congrArg Precedence.rank (divides_of_target? htarget).2.2).le
  | .boolean op values, htidy, hsound, _ => by
      simp only [Expr.subterms, tidy_cons] at htidy
      rcases values with _ | ⟨first, _ | ⟨second, rest⟩⟩
      · exact absurd htidy.1 (by simp [Proper])
      · exact absurd htidy.1 (by simp [Proper])
      simp only [shape, shapeOperands] at hsound ⊢
      rw [strength_operation hsound]
      cases op <;> exact Nat.le_refl _
  | .compare left [], _, hsound, _ => by simp [shape, shapeLinks, Shape.Sound] at hsound
  | .compare left [.mk op right], _, hsound, _ => by
      simp only [shape, shapeLinks] at hsound ⊢
      exact (congrArg Precedence.rank (strength_comparisonShape hsound left right)).le
  | .compare left (.mk op right :: link :: links), _, hsound, _ => by
      simp only [shape, shapeLinks] at hsound ⊢
      rw [strength_operation hsound]
      exact Nat.le_refl _
  | .attribute value label, _, hsound, _ => by
      rw [shape] at hsound ⊢
      exact (congrArg Precedence.rank (strength_onto hsound)).ge
  | .subscript value index, _, hsound, _ => by
      cases index with
      | slice => simp [shape, Shape.Sound] at hsound
      | _ =>
          simp only [shape] at hsound ⊢
          exact (congrArg Precedence.rank (strength_onto hsound)).ge
  | .call callee args keywords, _, hsound, hpassed =>
      (congrArg Precedence.rank (strength_call hsound hpassed)).ge
  | .comprehension .list element [.mk target iterable conditions isAsync], _, hsound, hpassed => by
      cases target with
      | name id => exact (congrArg Precedence.rank (strength_comprehension hpassed)).ge
      | _ => simp [shape, Shape.Sound] at hsound
  | .name _, _, _, _ | .list _, _, _, _ | .tuple _, _, _, _ | .dict _, _, _, _ => by
      rw [shape]
      exact Nat.le_refl _
  | .constant value, _, hsound, _ => by
      cases value with
      | imaginary => simp [shape, Shape.Sound] at hsound
      | _ =>
          simp only [shape]
          exact Nat.le_refl _
  | .unary .invert _, _, hsound, _ | .comprehension .set _ _, _, hsound, _
  | .comprehension .generator _ _, _, hsound, _ | .comprehension .list _ [], _, hsound, _
  | .comprehension .list _ (_ :: _ :: _), _, hsound, _ | .slice .., _, hsound, _
  | .set _, _, hsound, _ | .starred _, _, hsound, _ | .dictComprehension .., _, hsound, _
  | .named .., _, hsound, _ | .await _, _, hsound, _ | .yield _, _, hsound, _
  | .yieldFrom _, _, hsound, _ | .joined _, _, hsound, _ | .formatted .., _, hsound, _ => by
      simp [shape, Shape.Sound] at hsound

/-- An operand is fit for its place unless it passes on the text of a value that is not. -/
theorem Operand.fits_iff {o : Operand} (hne : o.place ≠ .atom ∨ o.strict = false)
    (htidy : Tidy ctx o.expr.subterms) (hsound : (o.shape ctx).Sound) :
    o.asked.rank ≤ (o.shape ctx).strength.rank ↔
      ∀ value, passed? ctx o.expr = some value →
        o.asked.rank ≤ (Readback.shape ctx value).strength.rank := by
  unfold Operand.shape Shape.inPlace at hsound ⊢
  cases hpassed : passed? ctx o.expr with
  | none =>
      refine iff_of_true ?_ (by simp)
      split at hsound
      · rename_i hbracket
        rw [if_pos hbracket]
        exact rank_le_atom _
      · rename_i hbracket
        rw [if_neg hbracket]
        exact (rank_le_of_not_bracketed hbracket).trans
          (rank_precedence_le_strength o.expr htidy hsound hpassed)
  | some value =>
      -- What passes on a text has the precedence of an atom, so that it is never put in brackets.
      obtain ⟨hshape, hprecedence⟩ := shape_of_passed? hpassed
      have hbracket : isBracketed o.expr.precedence o.place o.strict = false := by
        rw [hprecedence]
        rcases hne with hplace | hstrict
        · cases hplace' : o.place <;> simp_all [isBracketed, Precedence.rank]
        · cases hplace' : o.place <;> simp [isBracketed, Precedence.rank, hstrict]
      simp [hbracket, hshape]

/-! ## Texts from operands -/

variable {base : LoweringState}

/-- An action gives one value. -/
theorem gives_unique {α : Type} {action : Lowering α} {value value' : α}
    (h : Gives base action value) (h' : Gives base action value') : value = value' := by
  obtain ⟨_, hrun, -⟩ := h base (.refl base)
  obtain ⟨_, hrun', -⟩ := h' base (.refl base)
  exact Except.ok.inj (congrArg Prod.fst (hrun.symm.trans hrun'))

/-- From a regular state, what is steady and never fails gives a value. -/
theorem Makes.exists_gives {α : Type} {gives : α → Prop} {action : Lowering α}
    (h : Makes gives action) (hsteady : Steady action) (hbase : Regular base) :
    ∃ value, Gives base action value ∧ gives value := by
  obtain ⟨value, after, hrun⟩ := h.exists_ok base hbase
  exact ⟨value, hsteady.gives hrun, h.of_ok hbase hrun⟩

/-- Looking at the state first changes nothing that is given from every state. -/
theorem gives_get_bind {α : Type} {next : LoweringState → Lowering α} {value : α}
    (h : ∀ state, Gives base (next state) value) : Gives base (get >>= next) value := by
  intro state hstate
  obtain ⟨after, hrun, hafter⟩ := h state state hstate
  exact ⟨after, hrun, hafter⟩

/-- Each of some expressions is lowered to its text. -/
def Texts (ctx : Context) (base : LoweringState) (text : Expr → String) : Prop :=
  ∀ e, Tidy ctx e.subterms → Gives base (lower ctx e) (text e) ∧ Shaped (shape ctx e) (text e)

variable {text : Expr → String}

/-- From a regular state every expression has its text. -/
theorem exists_texts (hbase : Regular base) : ∃ text, Texts ctx base text := by
  have hgives : ∀ e, ∃ text, Tidy ctx e.subterms →
      Gives base (lower ctx e) text ∧ Shaped (shape ctx e) text := by
    intro e
    by_cases htidy : Tidy ctx e.subterms
    · obtain ⟨text, htext⟩ := (makes_lower e htidy).exists_gives (steady_lower ctx e) hbase
      exact ⟨text, fun _ => htext⟩
    · exact ⟨"", fun h => absurd h htidy⟩
  choose text htext using hgives
  exact ⟨text, htext⟩

/-- The operands of a connective are put in brackets by their precedence. -/
theorem gives_lowerOperands (place : Precedence) {values : List Expr}
    (h : ∀ e ∈ values, Gives base (lower ctx e) (text e)) :
    Gives base (lowerOperands ctx place values)
      (values.map fun e => bracketOperand e.precedence place false (text e)) := by
  induction values with
  | nil => exact gives_pure _
  | cons first rest ih =>
      rw [lowerOperands]
      exact (h first List.mem_cons_self).bind
        ((ih fun e he => h e (List.mem_cons_of_mem first he)).bind (gives_pure _))

/-- The text of a comparison. -/
def sideText (text : Expr → String) : Side → String
  | (left, op, right) =>
    match op.target? with
    | some symbol =>
      bracketOperand left.precedence .compare true (text left) ++ " " ++ symbol ++ " " ++
        bracketOperand right.precedence .compare true (text right)
    | none =>
      let call := "list.has(" ++ text right ++ ", " ++ text left ++ ")"
      if op == .notIn then "!" ++ call else call

/-- A comparison is written from the texts of its sides. -/
theorem gives_comparisonText {left right : Expr} (op : CompareOp)
    (hl : Gives base (lower ctx left) (text left))
    (hr : Gives base (lower ctx right) (text right)) :
    Gives base (comparisonText op left.precedence (lower ctx left) right.precedence
      (lower ctx right))
      (sideText text (left, op, right)) := by
  cases htarget : op.target? with
  | some symbol =>
      simp only [comparisonText, sideText, htarget]
      exact hl.bind (hr.bind (gives_pure _))
  | none =>
      simp only [comparisonText, sideText, htarget]
      exact hr.bind (hl.bind (gives_pure _))

/-- A chain of comparisons is written link by link. -/
theorem gives_lowerLinks {left : Expr} {links : List Link}
    (hl : Gives base (lower ctx left) (text left))
    (h : ∀ op right, .mk op right ∈ links → Gives base (lower ctx right) (text right)) :
    Gives base (lowerLinks ctx left.precedence (lower ctx left) links)
      ((sides left links).map (sideText text)) := by
  induction links generalizing left with
  | nil => exact gives_pure _
  | cons link links ih =>
      obtain ⟨op, right⟩ := link
      have hr := h op right List.mem_cons_self
      rw [lowerLinks]
      exact (gives_comparisonText op hl hr).bind
        ((ih hr fun op right hlink => h op right (List.mem_cons_of_mem _ hlink)).bind
          (gives_pure _))

/-- The text of an expression is joined from those of its operands as its tokens are. -/
def Assembles (ctx : Context) (base : LoweringState) (tokens : Operand → List Token) (e : Expr)
    (joint : Joint Operand) : Prop :=
  ∃ whole, Gives base (lower ctx e) whole ∧ Shows whole (joint.tokens tokens)

variable {tokens : Operand → List Token}

/-- An arithmetic operation is put together from its two operands. -/
theorem assembles_arithmetic {op : BinaryOp} {symbol : String} {own : Precedence}
    {left right : Expr}
    (htarget : op.target? = some (symbol, own)) (hl : Gives base (lower ctx left) (text left))
    (hr : Gives base (lower ctx right) (text right))
    (hleft : Shows (bracketOperand left.precedence own false (text left)) (tokens ⟨left,
      own, false⟩))
    (hright : Shows (bracketOperand right.precedence own true (text right))
      (tokens ⟨right, own, true⟩)) :
    Assembles ctx base tokens (.binary op left right)
      (.arithmetic (arithmeticOf op) ⟨left, own, false⟩ ⟨right, own, true⟩) := by
  obtain ⟨hdivides, hbare, -⟩ := divides_of_target? htarget
  have hgives : Gives base (lower ctx (.binary op left right))
      (bracketOperand left.precedence own false (text left) ++ " " ++ symbol ++ " " ++
        bracketOperand right.precedence own true (text right)) := by
    simp only [lower, htarget]
    exact hl.bind (hr.bind (gives_pure _))
  exact ⟨_, hgives, hleft.around hright hdivides hbare⟩

/-- A connective is put together from a row of operands. -/
theorem assembles_connective {op : BoolOp} {values : List Expr} (hproper : 2 ≤ values.length)
    (h : ∀ e ∈ values, Gives base (lower ctx e) (text e))
    (hshows : ∀ e ∈ values, Shows (bracketOperand e.precedence (connectivePlace op) false (text e))
      (tokens ⟨e, connectivePlace op, false⟩)) :
    Assembles ctx base tokens (.boolean op values)
      (.connective op (values.map fun e => ⟨e, connectivePlace op, false⟩)) := by
  have hne : values ≠ [] := by
    rintro rfl
    cases hproper
  have hplace : (connective op).2 = connectivePlace op := by cases op <;> rfl
  have hgives : Gives base (lower ctx (.boolean op values))
      ((connective op).1.intercalate
        (values.map fun e => bracketOperand e.precedence (connectivePlace op) false (text e))) := by
    rw [lower]
    dsimp only
    rw [hplace]
    exact (gives_lowerOperands _ h).bind (gives_pure _)
  refine ⟨_, hgives, ?_⟩
  rw [Joint.tokens, List.map_map]
  exact shows_row hne hshows

/-- One comparison of a chain shows its tokens between those of its operands. -/
theorem shows_side {side : Side}
    (hclosed : Closed (text side.1) ∧ Closed (text side.2.2))
    (hshows : ∀ o ∈ (partOf side).operands, Shows (o.put (text o.expr)) (tokens o)) :
    Shows (sideText text side) ((partOf side).tokens tokens) := by
  obtain ⟨left, op, right⟩ := side
  cases hcomparison : comparisonOf? op with
  | some comparison =>
      obtain ⟨symbol, htarget, hdivides, hbare⟩ := target?_of_comparisonOf? hcomparison
      simp only [partOf, hcomparison, sideText, htarget] at hshows ⊢
      have hleft := hshows ⟨left, .compare, true⟩ (by simp [Part.operands])
      have hright := hshows ⟨right, .compare, true⟩ (by simp [Part.operands])
      exact hleft.around hright hdivides hbare
  | none =>
      have hcall := shows_membership tokens hclosed.2 hclosed.1
      simp only [partOf, hcomparison, sideText, target?_of_comparisonOf?_eq_none hcomparison]
      cases hop : op == .notIn with
      | false => exact hcall
      | true =>
          have hstands := Part.stands_membership tokens (fun _ => .name "_") false
          exact hcall.not (hstands.derives.loosen (Nat.zero_le _)).starts

/-- What holds of the expressions in a chain holds of both sides of each comparison. -/
theorem forall_sides {p : Expr → Prop} {left : Expr} {links : List Link} (hleft : p left)
    (h : ∀ op right, .mk op right ∈ links → p right) :
    ∀ side ∈ sides left links, p side.1 ∧ p side.2.2 := by
  induction links generalizing left with
  | nil => simp [sides]
  | cons link links ih =>
      obtain ⟨op, right⟩ := link
      have hright := h op right List.mem_cons_self
      rw [sides, List.forall_mem_cons]
      exact ⟨⟨hleft, hright⟩, ih hright fun op right hlink =>
        h op right (List.mem_cons_of_mem _ hlink)⟩

/-- A chain of comparisons is put together as a row of them. -/
theorem assembles_comparisons {left : Expr} {links : List Link} (hlinks : links ≠ [])
    (hl : Gives base (lower ctx left) (text left))
    (h : ∀ op right, .mk op right ∈ links → Gives base (lower ctx right) (text right))
    (hclosed : ∀ side ∈ sides left links, Closed (text side.1) ∧ Closed (text side.2.2))
    (hshows : ∀ side ∈ sides left links, ∀ o ∈ (partOf side).operands,
      Shows (o.put (text o.expr)) (tokens o)) :
    Assembles ctx base tokens (.compare left links)
      (.comparisons ((sides left links).map partOf)) := by
  have hne : sides left links ≠ [] := by
    match links with
    | .mk op right :: rest => simp [sides]
  have hgives : Gives base (lower ctx (.compare left links))
      (" && ".intercalate ((sides left links).map (sideText text))) := by
    rw [lower]
    exact (gives_lowerLinks hl h).bind (gives_pure _)
  refine ⟨_, hgives, ?_⟩
  rw [Joint.tokens, List.map_map]
  exact @shows_row _ .and _ _ _ hne fun side hside =>
    shows_side (hclosed side hside) (hshows side hside)

/-- A sign is put together with its operand. -/
theorem assembles_minus {operand : Expr} (h : Gives base (lower ctx operand) (text operand))
    (hshows : Shows (bracketOperand operand.precedence .unary false (text operand))
      (tokens ⟨operand, .unary, false⟩)) :
    Assembles ctx base tokens (.unary .minus operand) (.signed .minus ⟨operand, .unary,
      false⟩) := by
  refine ⟨_, ?_, hshows.minus⟩
  simp only [lower]
  exact h.bind (gives_pure _)

theorem assembles_not {operand : Expr} (h : Gives base (lower ctx operand) (text operand))
    (hshows : Shows (bracketOperand operand.precedence .unary false (text operand))
      (tokens ⟨operand, .unary, false⟩))
    (hstarts : Starts .loose (tokens ⟨operand, .unary, false⟩)) :
    Assembles ctx base tokens (.unary .not operand) (.signed .not ⟨operand, .unary, false⟩) := by
  refine ⟨_, ?_, hshows.not hstarts⟩
  simp only [lower]
  exact h.bind (gives_pure _)

/-- An attribute is put together with what it is applied to. -/
theorem assembles_field {value : Expr} {label : String} (hname : value.name? = none)
    (hlabel : IsWord label) (h : Gives base (lower ctx value) (text value))
    (hshows : Shows (bracketOperand value.precedence .atom false (text value))
      (tokens ⟨value, .atom, false⟩)) :
    Assembles ctx base tokens (.attribute value label)
      (.suffixed (.field label) ⟨value, .atom, false⟩) := by
  have hgives : Gives base (lower ctx (.attribute value label))
      (bracketOperand value.precedence .atom false (text value) ++ "." ++ label) := by
    have hmember : enumMember? ctx value label = none := by simp [enumMember?, hname]
    rw [lower, hmember]
    refine gives_get_bind fun state => ?_
    simp only [hname, reduceCtorEq, beq_iff_eq, Bool.and_eq_true, false_and, if_false]
    exact h.bind (gives_pure _)
  have hall := hshows.suffixed (follows_field hlabel)
  rw [← String.append_assoc] at hall
  exact ⟨_, hgives, hall⟩

/-- A subscript stands in brackets, so only its base counts. -/
theorem assembles_position {value index : Expr}
    (hindex : ∀ lower upper step, index ≠ .slice lower upper step)
    (h : Gives base (lower ctx value) (text value)) (hi : Gives base (lower ctx index) (text index))
    (hclosed : Closed (text index))
    (hshows : Shows (bracketOperand value.precedence .atom false (text value))
      (tokens ⟨value, .atom, false⟩)) :
    Assembles ctx base tokens (.subscript value index)
      (.suffixed .position ⟨value, .atom, false⟩) := by
  have hgives : Gives base (lower ctx (.subscript value index))
      (bracketOperand value.precedence .atom false (text value) ++ "[" ++ text index ++ "]") := by
    cases index with
    | slice => exact absurd rfl (hindex _ _ _)
    | _ =>
        rw [lower]
        · exact h.bind (hi.bind (gives_pure _))
        · simp
  have hall := hshows.suffixed (follows_position hclosed)
  rw [← String.append_assoc, ← String.append_assoc] at hall
  exact ⟨_, hgives, hall⟩

/-- Only names are looked for among the builtins. -/
theorem gives_calleeText {callee : Expr} (hname : callee.name? = none)
    (h : Gives base (lower ctx callee) (text callee)) :
    Gives base (calleeText ctx callee (lower ctx callee))
      (bracketOperand callee.precedence .atom false (text callee)) := by
  have hbuiltin : Gives base (builtinTarget? ctx callee) none := by
    unfold builtinTarget?
    refine gives_get_bind fun state => ?_
    simp only [hname]
    exact gives_pure _
  exact hbuiltin.bind (h.bind (gives_pure _))

/-- Arguments stand in brackets, so only the callee counts. -/
theorem assembles_arguments {callee : Expr} {args : List Expr} {keywords : List Keyword}
    (hbase : Regular base) (hname : callee.name? = none)
    (htidy : Tidy ctx (Expr.call callee args keywords).subterms)
    (h : Gives base (lower ctx callee) (text callee))
    (hshows : Shows (bracketOperand callee.precedence .atom false (text callee))
      (tokens ⟨callee, .atom, false⟩)) :
    Assembles ctx base tokens (.call callee args keywords)
      (.suffixed .arguments ⟨callee, .atom, false⟩) := by
  have hspecial : specialCall? ctx callee args = none := by simp [specialCall?, hname]
  simp only [Expr.subterms, tidy_cons, tidy_append] at htidy
  unfold Assembles
  rw [lower, hspecial]
  dsimp only
  generalize hput : bracketOperand callee.precedence .atom false (text callee) = put at hshows
  have hcallee := gives_calleeText hname h
  rw [hput] at hcallee
  cases hconstructs : Naming.isConstructorName (afterLastDot put) && !keywords.isEmpty &&
      args.isEmpty with
  | true =>
      obtain ⟨fields, hfields, hclosed⟩ :=
        (makes_lowerFields keywords htidy.1 htidy.2.2).exists_gives
        (composed_lowerFields ctx keywords).steady hbase
      obtain ⟨htext, hinside⟩ := closed_bracedFields hclosed
      refine ⟨put ++ " " ++ bracedFields fields, hcallee.bind ?_, ?_⟩
      · rw [if_pos hconstructs]
        exact hfields.bind (gives_pure _)
      · rw [htext, String.append_assoc]
        exact hshows.suffixed (follows_fields hinside)
  | false =>
      obtain ⟨positional, hpositional, hclosed⟩ := (makes_lowerAll args htidy.2.1.2).exists_gives
        (composed_lowerAll ctx args).steady hbase
      obtain ⟨labels, hlabels, hclosed'⟩ :=
        (makes_lowerLabelled true keywords htidy.1 htidy.2.2).exists_gives
          (composed_lowerLabelled ctx true keywords).steady hbase
      have hinside : Closed (", ".intercalate (positional ++ labels)) :=
        closed_row fun text htext =>
        (List.mem_append.mp htext).elim (closed_of_forall₂ hclosed text) (hclosed' text)
      refine ⟨put ++ "(" ++ ", ".intercalate (positional ++ labels) ++ ")", hcallee.bind ?_, ?_⟩
      · rw [if_neg (by simp [hconstructs])]
        exact hpositional.bind (hlabels.bind (gives_pure _))
      · have hall := hshows.suffixed (follows_arguments hinside)
        rwa [← String.append_assoc, ← String.append_assoc] at hall

/-! ## What an operator asks of its operands -/

theorem tidy_all {values : List Expr} (h : Tidy ctx (Expr.all values)) :
    ∀ e ∈ values, Tidy ctx e.subterms := by
  induction values with
  | nil => simp
  | cons first rest ih =>
      simp only [Expr.all, tidy_append] at h
      rw [List.forall_mem_cons]
      exact ⟨h.1, ih h.2⟩

/-- The right sides of a tidy chain are tidy. -/
theorem tidy_ofLinks {links : List Link} (h : Tidy ctx (Expr.ofLinks links)) :
    ∀ op right, .mk op right ∈ links → Tidy ctx right.subterms := by
  induction links with
  | nil => simp
  | cons link links ih =>
      obtain ⟨op, right⟩ := link
      simp only [Expr.ofLinks, tidy_append] at h
      intro op' right' hmem
      rcases List.mem_cons.mp hmem with heq | hmem
      · cases heq
        exact h.1
      · exact ih h.2 op' right' hmem

/-- The operands of a comparison are its sides, in places that ask for more than a comparison. -/
theorem mem_operands_partOf {side : Side} {o : Operand} (ho : o ∈ (partOf side).operands) :
    (o.expr = side.1 ∨ o.expr = side.2.2) ∧ o.place = .compare ∧ o.strict = true := by
  obtain ⟨left, op, right⟩ := side
  cases hcomparison : comparisonOf? op with
  | none => simp [partOf, hcomparison, Part.operands] at ho
  | some comparison =>
      simp only [partOf, hcomparison, Part.operands, List.mem_cons, List.not_mem_nil,
        or_false] at ho
      rcases ho with rfl | rfl
      · exact ⟨.inl rfl, rfl, rfl⟩
      · exact ⟨.inr rfl, rfl, rfl⟩

/-- A comparison fits if each of its operands does. -/
theorem partOf_fits_iff (side : Side) {own : Operand → Precedence} :
    (partOf side).Fits own ↔ ∀ o ∈ (partOf side).operands, o.asked.rank ≤ (own o).rank := by
  obtain ⟨left, op, right⟩ := side
  cases hcomparison : comparisonOf? op <;>
    simp [partOf, hcomparison, Part.Fits, Part.operands, Operand.asked, operandPlace, tighter]

namespace Joins

variable {e : Expr} {joint : Joint Operand}

/-- A tidy expression joins operands properly. -/
theorem isProper (h : Joins e joint) (htidy : Tidy ctx e.subterms) : joint.IsProper := by
  cases h with
  | @connective op values =>
      have hlength : Proper ctx (.boolean op values) := htidy _ (by simp [Expr.subterms])
      rw [Joint.IsProper, List.length_map]
      exact hlength
  | @comparisons left links hlinks =>
      match links with
      | .mk op right :: rest => simp [Joint.IsProper, sides]
  | _ => trivial

/-- A joint fits if each of its operands does. -/
theorem fits_iff (h : Joins e joint) {own : Operand → Precedence} :
    joint.Fits own ↔ ∀ o ∈ joint.operands, o.asked.rank ≤ (own o).rank := by
  cases h with
  | arithmetic htarget =>
      obtain ⟨-, -, rfl⟩ := divides_of_target? htarget
      simp [Joint.Fits, Joint.operands, Operand.asked, operandPlace]
  | comparisons _ =>
      simp only [Joint.Fits, Joint.operands, List.forall_mem_map, List.mem_flatMap]
      constructor
      · rintro h o ⟨part, hpart, ho⟩
        obtain ⟨side, hside, rfl⟩ := List.mem_map.mp hpart
        exact (partOf_fits_iff side).mp (h side hside) o ho
      · intro h side hside
        exact (partOf_fits_iff side).mpr fun o ho => h o ⟨_, List.mem_map_of_mem hside, ho⟩
  | _ => simp [Joint.Fits, Joint.operands, Operand.asked, operandPlace]

/-- No operand outside brackets may bind loosest, and none must bind tighter than an atom. -/
theorem place_ne (h : Joins e joint) {o : Operand} (ho : o ∈ joint.operands) :
    o.asked ≠ .loose ∧ (o.place ≠ .atom ∨ o.strict = false) := by
  cases h with
  | @arithmetic op symbol own left right htarget =>
      simp only [Joint.operands, List.mem_cons, List.not_mem_nil, or_false] at ho
      obtain rfl | rfl : own = .add ∨ own = .mult := by cases op <;> cases htarget <;> simp
      all_goals rcases ho with rfl | rfl <;> simp [Operand.asked, operandPlace, tighter]
  | @connective op values =>
      obtain ⟨value, -, rfl⟩ := List.mem_map.mp ho
      cases op <;> simp [Operand.asked, operandPlace, connectivePlace]
  | comparisons _ =>
      obtain ⟨part, hpart, ho⟩ := List.mem_flatMap.mp ho
      obtain ⟨side, -, rfl⟩ := List.mem_map.mp hpart
      obtain ⟨-, hplace, hstrict⟩ := mem_operands_partOf ho
      simp [Operand.asked, hplace, hstrict, operandPlace, tighter]
  | _ =>
      obtain rfl := List.mem_singleton.mp ho
      simp [Operand.asked, operandPlace]

/-- The operands of a tidy expression are tidy. -/
theorem tidy (h : Joins e joint) (htidy : Tidy ctx e.subterms) {o : Operand}
    (ho : o ∈ joint.operands) : Tidy ctx o.expr.subterms := by
  cases h with
  | arithmetic _ =>
      simp only [Expr.subterms, tidy_cons, tidy_append] at htidy
      simp only [Joint.operands, List.mem_cons, List.not_mem_nil, or_false] at ho
      rcases ho with rfl | rfl
      · exact htidy.2.1
      · exact htidy.2.2
  | connective =>
      simp only [Expr.subterms, tidy_cons] at htidy
      obtain ⟨value, hvalue, rfl⟩ := List.mem_map.mp ho
      exact tidy_all htidy.2 value hvalue
  | comparisons _ =>
      simp only [Expr.subterms, tidy_cons, tidy_append] at htidy
      obtain ⟨part, hpart, ho⟩ := List.mem_flatMap.mp ho
      obtain ⟨side, hside, rfl⟩ := List.mem_map.mp hpart
      have hsides := @forall_sides (fun e => Tidy ctx e.subterms) _ _ htidy.2.1
        (tidy_ofLinks htidy.2.2) side hside
      rcases (mem_operands_partOf ho).1 with heq | heq
      · exact heq ▸ hsides.1
      · exact heq ▸ hsides.2
  | _ =>
      obtain rfl := List.mem_singleton.mp ho
      simp only [Expr.subterms, tidy_cons, tidy_append] at htidy
      simp only [htidy]

/-- The text of the expression is that of the operator over the texts of its operands. -/
theorem assembles (h : Joins e joint) (hbase : Regular base) (htidy : Tidy ctx e.subterms)
    (htext : Texts ctx base text)
    (hshows : ∀ o ∈ joint.operands, Shows (o.put (text o.expr)) (tokens o) ∧
      Starts .loose (tokens o)) :
    Assembles ctx base tokens e joint := by
  have hgives (o : Operand) (ho : o ∈ joint.operands) :
      Gives base (lower ctx o.expr) (text o.expr) :=
    (htext o.expr (h.tidy htidy ho)).1
  cases h with
  | minus =>
      simp only [Joint.operands, List.forall_mem_singleton] at hgives hshows
      exact assembles_minus hgives hshows.1
  | not =>
      simp only [Joint.operands, List.forall_mem_singleton] at hgives hshows
      exact assembles_not hgives hshows.1 hshows.2
  | arithmetic htarget =>
      simp only [Joint.operands, List.forall_mem_cons] at hgives hshows
      exact assembles_arithmetic htarget hgives.1 hgives.2.1 hshows.1.1 hshows.2.1.1
  | connective =>
      have hproper : Proper ctx (.boolean _ _) := htidy _ List.mem_cons_self
      simp only [Joint.operands, List.forall_mem_map] at hgives hshows
      exact assembles_connective hproper hgives fun e he => (hshows e he).1
  | comparisons hlinks =>
      simp only [Expr.subterms, tidy_cons, tidy_append] at htidy
      have hleft := htext _ htidy.2.1
      have hright := fun op right hlink => htext right (tidy_ofLinks htidy.2.2 op right hlink)
      refine assembles_comparisons hlinks hleft.1 (fun op right hlink => (hright op right hlink).1)
        (forall_sides hleft.2.closed fun op right hlink => (hright op right hlink).2.closed) ?_
      intro side hside o ho
      exact (hshows o (List.mem_flatMap.mpr ⟨_, List.mem_map_of_mem hside, ho⟩)).1
  | field hname =>
      have hproper : Proper ctx (.attribute _ _) := htidy _ List.mem_cons_self
      simp only [Joint.operands, List.forall_mem_singleton] at hgives hshows
      exact assembles_field hname hproper.1 hgives hshows.1
  | position _ hindex =>
      simp only [Expr.subterms, tidy_cons, tidy_append] at htidy
      have hinside := htext _ htidy.2.2
      simp only [Joint.operands, List.forall_mem_singleton] at hgives hshows
      exact assembles_position hindex hgives hinside.1 hinside.2.closed hshows.1
  | arguments hname =>
      simp only [Joint.operands, List.forall_mem_singleton] at hgives hshows
      exact assembles_arguments hbase hname htidy hgives hshows.1

end Joins

/-! ## Operands that are kept whole -/

/-- Where the outline of a text spells tokens, it reads as what the grammar derives from them. -/
theorem Shows.reads_iff {own : String} {ts : List Token} {t : Tree} (h : Shows own ts) :
    Reads (outline own) t ↔ Derives (.expression .loose) ts [t] := by
  have hscans : Scans (outline own).toList ts [] := by
    simpa using h.spells [] ends_nil
  constructor
  · rintro ⟨ts', hscans', hderives⟩
    rwa [hscans.unique hscans']
  · intro hderives
    exact ⟨ts, hscans, hderives⟩

/-- An operator keeps its operands whole in the text of an expression: in the outline of the text it
is read over the trees that the outlines of the operands are read as. -/
def KeepsOperands (ctx : Context) (base : LoweringState) (e : Expr)
    (joint : Joint Operand) : Prop :=
  ∃ tree : Operand → Tree,
    (∀ o ∈ joint.operands, ∃ text, Gives base (lower ctx o.expr) text ∧
      Reads (outline (o.put text)) (tree o)) ∧
    ∃ text, Gives base (lower ctx e) text ∧ Reads (outline text) (joint.tree tree)

/-- An expression that is lowered to an operator has a text, which closes what it opens. Where the
text of each operand is in order by itself, the operator keeps its operands whole exactly if each
value whose text is passed on, by a pipe without steps or by a comprehension that copies its list,
binds as tightly as the place asks. -/
theorem keepsOperands_iff (hbase : Regular base) {e : Expr} {joint : Joint Operand}
    (hjoins : Joins e joint) (htidy : Tidy ctx e.subterms)
    (hsound : ∀ o ∈ joint.operands, (o.shape ctx).Sound) :
    (∃ text, Gives base (lower ctx e) text ∧ Closed text) ∧
      (KeepsOperands ctx base e joint ↔
        ∀ o ∈ joint.operands, ∀ value, passed? ctx o.expr = some value →
          o.asked.rank ≤ (shape ctx value).strength.rank) := by
  obtain ⟨text, htext⟩ : ∃ text, Texts ctx base text := exists_texts hbase
  have htokens : ∀ o ∈ joint.operands, ∃ ts, Shows (o.put (text o.expr)) ts ∧
      Binds (o.shape ctx).strength ts := fun o ho =>
    ((htext o.expr (hjoins.tidy htidy ho)).2.inPlace _ _ _).exists_binds (hsound o ho)
  choose! tokens htokens using htokens
  obtain ⟨whole, hwhole, hshows⟩ := hjoins.assembles hbase htidy htext fun o ho =>
    ⟨(htokens o ho).1, (htokens o ho).2.starts⟩
  have hproper := hjoins.isProper htidy
  have hbinds (o : Operand) (ho : o ∈ joint.operands) := (htokens o ho).2
  have hfits : joint.Fits (fun o => (o.shape ctx).strength) ↔
      ∀ o ∈ joint.operands, ∀ value, passed? ctx o.expr = some value →
        o.asked.rank ≤ (shape ctx value).strength.rank :=
    hjoins.fits_iff.trans (forall₂_congr fun o ho =>
      Operand.fits_iff (hjoins.place_ne ho).2 (hjoins.tidy htidy ho) (hsound o ho))
  refine ⟨⟨whole, hwhole, hshows.closed⟩, ?_⟩
  rw [← hfits]
  constructor
  · rintro ⟨tree, hreads, own, hown, hall⟩
    obtain rfl := gives_unique hwhole hown
    refine (Joint.derives_iff hproper hbinds fun o ho => ?_).mp (hshows.reads_iff.mp hall)
    obtain ⟨operand, hoperand, hread⟩ := hreads o ho
    obtain rfl := gives_unique (htext o.expr (hjoins.tidy htidy ho)).1 hoperand
    exact (htokens o ho).1.reads_iff.mp hread
  · intro hfit
    have htree : ∀ o, ∃ t, o ∈ joint.operands → Derives (.expression .loose) (tokens o) [t] := by
      intro o
      by_cases ho : o ∈ joint.operands
      · obtain ⟨t, -, hstands, -⟩ :=
          (hbinds o ho).exists_stands (hjoins.fits_iff.mp hfit o ho) (hjoins.place_ne ho).1
        exact ⟨t, fun _ => hstands.derives.loosen (Nat.zero_le _)⟩
      · exact ⟨.name "_", fun h => absurd h ho⟩
    choose tree htree using htree
    refine ⟨tree, fun o ho => ⟨text o.expr, (htext o.expr (hjoins.tidy htidy ho)).1, ?_⟩,
      whole, hwhole, hshows.reads_iff.mpr ((Joint.derives_iff hproper hbinds htree).mpr hfit)⟩
    exact (htokens o ho).1.reads_iff.mpr (htree o ho)

/-- An operation of two names in a pipe without steps. -/
def pipedOperation (op : BinaryOp) : Expr :=
  .call (.name "pipe") [.binary op (.name "a") (.name "b")] []

/-- A comprehension that copies a list. -/
def copiedList : Expr :=
  .comprehension .list (.name "x") [.mk (.name "x") (.name "c") [] false]

/-- A product in a pipe is a whole operand of a sum, and so is a list that is copied:
`pipe(a * b) + [x for x in c]`. -/
theorem keepsOperands_iff_product :
    (∃ text, Gives {} (lower {} (.binary .add (pipedOperation .mult) copiedList)) text ∧
      Closed text) ∧
    KeepsOperands {} {} (.binary .add (pipedOperation .mult) copiedList)
      (.arithmetic .add ⟨pipedOperation .mult, .add, false⟩ ⟨copiedList, .add, true⟩) := by
  have hbase : Regular {} := by
    refine ⟨fun h => ?_, fun h => ?_⟩ <;> cases h
  have hname {id : String} (h : IsName id) : Proper {} (.name id) :=
    ⟨h, fun hconstant => by cases hconstant⟩
  have htidy : Tidy {} (Expr.binary .add (pipedOperation .mult) copiedList).subterms := by
    have hpipe : Proper {} (.name "pipe") := hname (by decide)
    have ha : Proper {} (.name "a") := hname (by decide)
    have hb : Proper {} (.name "b") := hname (by decide)
    have hx : Proper {} (.name "x") := hname (by decide)
    have hc : Proper {} (.name "c") := hname (by decide)
    simp only [pipedOperation, copiedList, Expr.subterms, Expr.all, Expr.ofKeywords, Expr.ofClauses,
      tidy_cons, tidy_append, hpipe, ha, hb, hx, hc]
    simp [Tidy, Proper]
  have hoperands : ∀ o ∈ (Joint.arithmetic Arithmetic.add
      (⟨pipedOperation .mult, .add, false⟩ : Operand) ⟨copiedList, .add, true⟩).operands,
      (o.shape {}).Sound ∧ ∀ value, passed? {} o.expr = some value →
        o.asked.rank ≤ (shape {} value).strength.rank := by
    have hproduct : passed? {} (pipedOperation .mult) =
        some (.binary .mult (.name "a") (.name "b")) := rfl
    have hcopied : passed? {} copiedList = some (.name "c") := rfl
    simp only [Joint.operands, List.forall_mem_cons, List.not_mem_nil, false_implies, implies_true,
      and_true, hproduct, hcopied, Option.some.injEq, forall_eq']
    refine ⟨⟨⟨⟨trivial, ?_⟩, trivial, ?_⟩, ?_⟩, trivial, ?_⟩ <;> exact of_decide_eq_true rfl
  have hiff := keepsOperands_iff hbase (.arithmetic rfl) htidy fun o ho => (hoperands o ho).1
  exact ⟨hiff.1, hiff.2.mpr fun o ho => (hoperands o ho).2⟩

/-- A sum in a pipe loses its second operand to a product around it: `pipe(a + b) * c`. -/
theorem lower_pipe_loses_operand :
    Gives {} (lower {} (pipedOperation .add)) "a + b" ∧
    Gives {} (lower {} (.binary .mult (pipedOperation .add) (.name "c"))) "a + b * c" ∧
    (∀ tree, Reads "a + b * c" tree ↔
      tree = .arithmetic .add (.name "a") (.arithmetic .mult (.name "b") (.name "c"))) ∧
    ¬ KeepsOperands {} {} (.binary .mult (pipedOperation .add) (.name "c"))
      (.arithmetic .mult ⟨pipedOperation .add, .mult, false⟩ ⟨.name "c", .mult, true⟩) := by
  have hpipe : Gives {} (lower {} (pipedOperation .add)) "a + b" :=
    (steady_lower _ _).gives (by rfl)
  have hproduct : Gives {} (lower {} (.binary .mult (pipedOperation .add) (.name "c")))
      "a + b * c" := (steady_lower _ _).gives (by rfl)
  have hreads : Reads "a + b * c"
      (.arithmetic .add (.name "a") (.arithmetic .mult (.name "b") (.name "c"))) := by
    have ha : Spells "a" [.word "a"] := spells_word (by decide)
    have hb : Spells "b" [.word "b"] := spells_word (by decide)
    have hc : Spells "c" [.word "c"] := spells_word (by decide)
    have hadd : Divides (" " ++ "+" ++ " ") (.arithmetic .add) := divides_of_readToken fun _ => rfl
    have hmult : Divides (" " ++ "*" ++ " ") (.arithmetic .mult) :=
      divides_of_readToken fun _ => rfl
    have htext : "a" ++ (" " ++ "+" ++ " ") ++ ("b" ++ (" " ++ "*" ++ " ") ++ "c") =
        "a + b * c" := rfl
    have hspells := htext ▸ spells_between hadd ha (spells_between hmult hb hc)
    have hname {id : String} (h : id ∉ keywords) (place : Precedence) :
        Derives (.expression place) [.word id] [.name id] :=
          (Derives.name h).loosen (rank_le_atom place)
    have hright := @Derives.arithmetic .mult _ _ _ _ (hname (by decide : "b" ∉ keywords) _)
      (hname (by decide : "c" ∉ keywords) _)
    have hall := @Derives.arithmetic .add _ _ _ _ (hname (by decide : "a" ∉ keywords) _) hright
    exact ⟨_, by simpa using hspells [] ends_nil, hall.loosen (Nat.zero_le _)⟩
  refine ⟨hpipe, hproduct, fun tree => ⟨fun h => h.unique hreads, fun h => h ▸ hreads⟩, ?_⟩
  rintro ⟨tree, -, text, htext, hread⟩
  obtain rfl := gives_unique hproduct htext
  have houtline : outline "a + b * c" = "a + b * c" := (outlines_bare (by decide)).outline_eq
  rw [houtline] at hread
  cases hread.unique hreads

end AikenForge.Readback
