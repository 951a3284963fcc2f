/-
# Shapes of lowered expressions

The shape of an expression is what stands outside brackets in its text. A pipe without steps and a
comprehension that copies its list have the shape of what they are applied to, since their text is
that text, although their precedence is that of an atom.

A shape is sound if nothing is missing in it and each operand in it binds as tightly as its place
asks.
-/

import AikenForge.Proofs.Inlined.Operation

namespace AikenForge.Readback

open AikenForge.Source

/-- What stands outside brackets in a text: nothing that reads, one word or literal or bracket,
signs, suffixes and operations around operands, a conditional after its test, or a function. -/
inductive Shape
  | broken
  | atom
  | signed (sign : Sign) (operand : Shape)
  | suffixed (base : Shape)
  | operation (op : Operation) (left right : Shape)
  | conditional (test : Shape)
  | function

/-- The place of the weakest operator of a shape. -/
def Shape.strength : Shape → Precedence
  | .broken | .atom => .atom
  | .signed _ operand => weaker .unary operand.strength
  | .suffixed base => base.strength
  | .operation op left right => weaker left.strength (weaker op.place right.strength)
  | .conditional _ | .function => .loose

/-- Nothing is missing, and each operand binds as tightly as its place asks. -/
def Shape.Sound : Shape → Prop
  | .broken => False
  | .atom | .function => True
  | .signed _ operand => operand.Sound ∧ Precedence.unary.rank ≤ operand.strength.rank
  | .suffixed base => base.Sound ∧ Precedence.atom.rank ≤ base.strength.rank
  | .operation op left right =>
    (left.Sound ∧ op.leftPlace.rank ≤ left.strength.rank) ∧
      right.Sound ∧ op.rightPlace.rank ≤ right.strength.rank
  | .conditional test => test.Sound

/-! ## The shapes of expressions -/

/-- The shape of an operand in its place. -/
def Shape.inPlace (own place : Precedence) (strict : Bool) (shape : Shape) : Shape :=
  if isBracketed own place strict then .atom else shape

/-- The shape of what a suffix is written after. A name is an atom, whatever it stands for. -/
def Shape.base (e : Expr) (shape : Shape) : Shape :=
  if e.name?.isSome then .atom else shape.inPlace e.precedence .atom false

/-- The shape of what has a suffix. -/
def Shape.onto (e : Expr) (shape : Shape) : Shape :=
  if e.name?.isSome then .atom else .suffixed (shape.base e)

/-- How an operator compares; membership does not. -/
def comparisonOf? : CompareOp → Option Comparison
  | .eq | .is => some .eq
  | .notEq | .isNot => some .notEq
  | .lt => some .lt
  | .ltE => some .ltE
  | .gt => some .gt
  | .gtE => some .gtE
  | .isIn | .notIn => none

/-- The shape of one comparison between operands. -/
def comparisonShape (op : CompareOp) (leftOwn : Precedence) (left : Shape) (rightOwn : Precedence)
    (right : Shape) : Shape :=
  match comparisonOf? op with
  | some comparison =>
    .operation (.comparison comparison) (left.inPlace leftOwn .compare true)
      (right.inPlace rightOwn .compare true)
  | none => if op == .notIn then .signed .not .atom else .atom

variable (ctx : Context)

mutual

/-- The shape of the text of an expression. -/
def shape : Expr → Shape
  | .name _ => .atom
  | .constant (.imaginary _) => .broken
  | .constant _ => .atom
  | .attribute value _ => .onto value (shape value)
  | .subscript _ (.slice ..) => .broken
  | .subscript value _ => .onto value (shape value)
  | .list _ | .tuple _ | .dict _ => .atom
  | .unary .plus operand => shape operand
  | .unary .minus operand =>
      .signed .minus ((shape operand).inPlace operand.precedence .unary false)
  | .unary .not operand => .signed .not ((shape operand).inPlace operand.precedence .unary false)
  | .binary op left right =>
    match op.target? with
    | some (_, own) =>
      .operation (.arithmetic (arithmeticOf op)) ((shape left).inPlace left.precedence own false)
        ((shape right).inPlace right.precedence own true)
    | none => .broken
  | .boolean op values => shapeOperands op values
  | .compare left links => shapeLinks left.precedence (shape left) links
  | .conditional test _ _ => .conditional (shape test)
  | .lambda .. => .function
  | .call callee args _ =>
    match Lowering.specialCall? ctx callee args with
    | some .pipe => shapePipe args
    | some .expect => .atom
    | none => .onto callee (shape callee)
  | .comprehension .list element [.mk (.name target) iterable conditions _] =>
    if conditions.isEmpty && element.name? == some target then shape iterable else .atom
  | _ => .broken

/-- The shape of the operands of a connective. -/
def shapeOperands (op : BoolOp) : List Expr → Shape
  | [] => .broken
  | [e] => (shape e).inPlace e.precedence (connectivePlace op) false
  | e :: rest =>
    .operation (.connective op) ((shape e).inPlace e.precedence (connectivePlace op) false)
      (shapeOperands op rest)

/-- The shape of a chain of comparisons. -/
def shapeLinks (leftOwn : Precedence) (left : Shape) : List Link → Shape
  | [] => .broken
  | [.mk op right] => comparisonShape op leftOwn left right.precedence (shape right)
  | .mk op right :: rest =>
    .operation (.connective .and) (comparisonShape op leftOwn left right.precedence (shape right))
      (shapeLinks right.precedence (shape right) rest)

/-- The shape of a pipe: that of its value, or of the call that its last step makes. -/
def shapePipe : List Expr → Shape
  | [] => .broken
  | value :: steps => shapeSteps (shape value) steps

/-- The shape of what the steps of a pipe make of a text with a shape. -/
def shapeSteps (own : Shape) : List Expr → Shape
  | [] => own
  | .call callee _ _ :: rest => shapeSteps (.onto callee (shape callee)) rest
  | step :: rest => shapeSteps (.onto step (shape step)) rest

end

/-- The value whose text an expression passes on as it is. -/
def passed? (ctx : Context) : Expr → Option Expr
  | .unary .plus operand => passed? ctx operand
  | .call callee [value] _ =>
    match Lowering.specialCall? ctx callee [value] with
    | some .pipe => some value
    | _ => none
  | .comprehension .list element [.mk (.name target) iterable [] _] =>
    if element.name? == some target then some iterable else none
  | _ => none

variable {ctx}

/-! ## The strengths of sound shapes -/

theorem strength_operation {op : Operation} {left right : Shape}
    (h : (Shape.operation op left right).Sound) :
    (Shape.operation op left right).strength = op.place :=
  weaker_operation (op.rank_le_leftPlace.trans h.1.2) (op.rank_le_rightPlace.trans h.2.2)

theorem strength_onto {e : Expr} {own : Shape} (h : (own.onto e).Sound) :
    (own.onto e).strength = .atom := by
  unfold Shape.onto at h ⊢
  split at h
  · rename_i hname
    rw [if_pos hname]
    rfl
  · rename_i hname
    rw [if_neg hname]
    exact eq_atom_of_rank_le h.2

/-- A pipe with steps is a call. -/
theorem strength_shapeSteps {step : Expr} {steps : List Expr} {own : Shape}
    (h : (shapeSteps ctx own (step :: steps)).Sound) :
    (shapeSteps ctx own (step :: steps)).strength = .atom := by
  induction steps generalizing step own with
  | nil =>
      cases step with
      | call callee args keywords =>
          simp only [shapeSteps] at h ⊢
          exact strength_onto h
      | _ =>
          simp only [shapeSteps] at h ⊢
          exact strength_onto h
  | cons next steps ih =>
      cases step with
      | call callee args keywords =>
          rw [shapeSteps] at h ⊢
          exact ih h
      | _ =>
          rw [shapeSteps] at h ⊢
          · exact ih h
          all_goals simp

theorem strength_comparisonShape {op : CompareOp} {leftOwn rightOwn : Precedence}
    {left right : Shape}
    (h : (comparisonShape op leftOwn left rightOwn right).Sound) (e e' : Expr) :
    (Expr.compare e [.mk op e']).precedence =
      (comparisonShape op leftOwn left rightOwn right).strength := by
  cases op with
  | isIn | notIn => rfl
  | _ => exact (strength_operation h).symm

/-- An expression that passes on a text has its shape, and the precedence of an atom. -/
theorem shape_of_passed? {e value : Expr} (h : passed? ctx e = some value) :
    shape ctx e = shape ctx value ∧ e.precedence = .atom := by
  fun_induction passed? ctx e with
  | case1 operand ih =>
      rw [shape]
      exact ih h
  | case2 callee first keywords hspecial =>
      cases h
      rw [shape, hspecial]
      simp only [shapePipe, shapeSteps, true_and]
      rfl
  | case4 element target iterable isAsync hcopies =>
      cases h
      rw [shape]
      simp only [List.isEmpty_nil, hcopies, Bool.and_self, if_true, true_and]
      rfl
  | _ => cases h

end AikenForge.Readback
