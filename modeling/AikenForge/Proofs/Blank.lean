/-
# Expressions without a text

Not every expression is lowered to a text: a form that is not supported leaves nothing, and so does
one that passes on the text of such a form. Which ones they are is told from the aliases in force.
-/

import AikenForge.Lowering.Expression

namespace AikenForge.Guard

open AikenForge.Source AikenForge.Lowering

variable (ctx : Context) (aliases : Table String)

/-- Whether the text of an expression is empty. The forms that are not supported have no text, nor
has one that passes on the text of such a form: a plus sign, a pipe without steps, a copy of a
list. -/
def isBlank : Expr → Bool
  | .name id =>
    match aliases.find? id with
    | some text => text.isEmpty
    | none => (if ctx.scope.constants.contains id then Naming.constantName id else id).isEmpty
  | .constant (.imaginary _) => true
  | .attribute value label =>
    match enumMember? ctx value label with
    | some constructor => constructor.isEmpty
    | none => value.name? == some "self" && !aliases.contains "self" && label.isEmpty
  | .subscript _ (.slice ..) => true
  | .unary .plus operand => isBlank operand
  | .unary .invert _ => true
  | .binary op _ _ => op.target?.isNone
  | .boolean _ [] => true
  | .boolean op [value] => value.precedence.rank ≥ (connective op).2.rank && isBlank value
  | .compare _ [] => true
  | .call callee [value] _ =>
    match specialCall? ctx callee [value] with
    | some .pipe => isBlank value
    | _ => false
  | .comprehension .list element [.mk (.name target) iterable conditions _] =>
    conditions.isEmpty && element.name? == some target && isBlank iterable
  | .comprehension .. => true
  | .slice .. | .set _ | .dictComprehension .. | .named .. | .await _ | .yield _ | .yieldFrom _
  | .joined _ | .formatted .. => true
  | _ => false

theorem specialCall?_nil (callee : Expr) : specialCall? ctx callee [] = none := by
  unfold specialCall?
  cases callee.name? with
  | none => rfl
  | some id => rfl

/-- Only a pipe of a value alone can be without text. -/
theorem isBlank_call (callee : Expr) (args : List Expr) (keywords : List Keyword) :
    isBlank ctx aliases (.call callee args keywords) =
      match specialCall? ctx callee args, args with
      | some .pipe, [value] => isBlank ctx aliases value
      | _, _ => false := by
  match args with
  | [] => simp [isBlank, specialCall?_nil]
  | [value] =>
      rw [isBlank]
      rcases specialCall? ctx callee [value] with _ | _ | _ <;> rfl
  | first :: second :: rest =>
      rcases specialCall? ctx callee (first :: second :: rest) with _ | _ | _ <;> simp [isBlank]

end AikenForge.Guard
