/-
# Kinds of source forms

The names by which messages call the forms of the source tree.
-/

import AikenForge.Source.Tree

namespace AikenForge.Source

/-- What messages call an operator of one operand. -/
def UnaryOp.kind : UnaryOp → String
  | .plus => "UAdd"
  | .minus => "USub"
  | .not => "Not"
  | .invert => "Invert"

/-- What messages call an operator of two operands. -/
def BinaryOp.kind : BinaryOp → String
  | .add => "Add"
  | .sub => "Sub"
  | .mult => "Mult"
  | .matMult => "MatMult"
  | .div => "Div"
  | .mod => "Mod"
  | .pow => "Pow"
  | .leftShift => "LShift"
  | .rightShift => "RShift"
  | .bitOr => "BitOr"
  | .bitXor => "BitXor"
  | .bitAnd => "BitAnd"
  | .floorDiv => "FloorDiv"

/-- What messages call a connective. -/
def BoolOp.kind : BoolOp → String
  | .and => "And"
  | .or => "Or"

/-- What messages call a comparison. -/
def CompareOp.kind : CompareOp → String
  | .eq => "Eq"
  | .notEq => "NotEq"
  | .lt => "Lt"
  | .ltE => "LtE"
  | .gt => "Gt"
  | .gtE => "GtE"
  | .is => "Is"
  | .isNot => "IsNot"
  | .isIn => "In"
  | .notIn => "NotIn"

/-- What messages call a comprehension. -/
def ComprehensionKind.kind : ComprehensionKind → String
  | .list => "ListComp"
  | .set => "SetComp"
  | .generator => "GeneratorExp"

/-- What messages call an expression. -/
def Expr.kind : Expr → String
  | .name _ => "Name"
  | .constant _ => "Constant"
  | .attribute .. => "Attribute"
  | .subscript .. => "Subscript"
  | .slice .. => "Slice"
  | .list _ => "List"
  | .tuple _ => "Tuple"
  | .set _ => "Set"
  | .dict _ => "Dict"
  | .starred _ => "Starred"
  | .unary .. => "UnaryOp"
  | .binary .. => "BinOp"
  | .boolean .. => "BoolOp"
  | .compare .. => "Compare"
  | .conditional .. => "IfExp"
  | .call .. => "Call"
  | .lambda .. => "Lambda"
  | .comprehension kind _ _ => kind.kind
  | .dictComprehension .. => "DictComp"
  | .named .. => "NamedExpr"
  | .await _ => "Await"
  | .yield _ => "Yield"
  | .yieldFrom _ => "YieldFrom"
  | .joined _ => "JoinedStr"
  | .formatted .. => "FormattedValue"

/-- What messages call a simple statement. -/
def Simple.kind : Simple → String
  | .returns _ => "Return"
  | .assigns .. => "Assign"
  | .annotates .. => "AnnAssign"
  | .augments .. => "AugAssign"
  | .asserts .. => "Assert"
  | .raises .. => "Raise"
  | .passes => "Pass"
  | .evaluates _ => "Expr"
  | .deletes _ => "Delete"
  | .imports _ => "Import"
  | .importsFrom .. => "ImportFrom"
  | .globals _ => "Global"
  | .nonlocals _ => "Nonlocal"
  | .breaks => "Break"
  | .continues => "Continue"

/-- What messages call a statement. -/
def Stmt.kind : Stmt → String
  | .simple _ statement => statement.kind
  | .branch .. => "If"
  | .select .. => "Match"
  | .forLoop _ isAsync .. => if isAsync then "AsyncFor" else "For"
  | .whileLoop .. => "While"
  | .context _ isAsync .. => if isAsync then "AsyncWith" else "With"
  | .attempt _ isGroup .. => if isGroup then "TryStar" else "Try"
  | .function _ header _ => if header.isAsync then "AsyncFunctionDef" else "FunctionDef"
  | .classDef .. => "ClassDef"

end AikenForge.Source
