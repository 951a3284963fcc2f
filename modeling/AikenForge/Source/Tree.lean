/-
# The source tree

Expressions, patterns and statements of annotated Python source. A statement carries the line of its
first token; a decorator carries the line of its expression; a sequence pattern remembers whether
its first token is a round bracket, which is what separates a tuple from a list later on.
-/

import AikenForge.Number.Binary64
import AikenForge.Text.CodePoints

namespace AikenForge.Source

open AikenForge.Number

/-- A literal value. A text is a list of code points, because an escape can write half of a
surrogate pair, and remembers whether its literal is marked as text. -/
inductive Constant
  | none
  | ellipsis
  | bool (value : Bool)
  | int (value : Nat)
  | real (value : Magnitude)
  | imaginary (value : Magnitude)
  | text (value : CodePoints) (isMarked : Bool)
  | bytes (value : List UInt8)
  deriving DecidableEq

/-- Operators of one operand. -/
inductive UnaryOp
  | plus | minus | not | invert
  deriving DecidableEq

/-- Operators of two operands. -/
inductive BinaryOp
  | add | sub | mult | matMult | div | mod | pow | leftShift | rightShift | bitOr | bitXor | bitAnd
  | floorDiv
  deriving DecidableEq

/-- Connectives of conditions. -/
inductive BoolOp
  | and | or
  deriving DecidableEq

/-- Comparison operators. -/
inductive CompareOp
  | eq | notEq | lt | ltE | gt | gtE | is | isNot | isIn | notIn
  deriving DecidableEq

/-- What a comprehension builds. -/
inductive ComprehensionKind
  | list | set | generator
  deriving DecidableEq

mutual

/-- An expression. -/
inductive Expr
  | name (id : String)
  | constant (value : Constant)
  | attribute (value : Expr) (label : String)
  | subscript (value index : Expr)
  | slice (lower upper step : Option Expr)
  | list (items : List Expr)
  | tuple (items : List Expr)
  | set (items : List Expr)
  | dict (entries : List Entry)
  | starred (value : Expr)
  | unary (op : UnaryOp) (operand : Expr)
  | binary (op : BinaryOp) (left right : Expr)
  | boolean (op : BoolOp) (values : List Expr)
  | compare (left : Expr) (links : List Link)
  | conditional (test body orelse : Expr)
  | call (callee : Expr) (args : List Expr) (keywords : List Keyword)
  | lambda (parameters : Parameters) (body : Expr)
  | comprehension (kind : ComprehensionKind) (element : Expr) (clauses : List Clause)
  | dictComprehension (key value : Expr) (clauses : List Clause)
  | named (target : String) (value : Expr)
  | await (value : Expr)
  | yield (value : Option Expr)
  | yieldFrom (value : Expr)
  | joined (parts : List Expr)
  | formatted (value : Expr) (conversion : Option Char) (layout : Option Expr)

/-- An entry of a dictionary display. -/
inductive Entry
  | pair (key value : Expr)
  | spread (value : Expr)

/-- One further operand of a comparison. -/
inductive Link
  | mk (op : CompareOp) (right : Expr)

/-- A keyword argument. -/
inductive Keyword
  | labelled (label : String) (value : Expr)
  | spread (value : Expr)

/-- A `for` clause of a comprehension with its conditions. -/
inductive Clause
  | mk (target iterable : Expr) (conditions : List Expr) (isAsync : Bool)

/-- One parameter. -/
inductive Parameter
  | mk (name : String) (hint fallback : Option Expr)

/-- The parameters of a function by kind. -/
inductive Parameters
  | mk (positionalOnly regular : List Parameter) (variadic : Option Parameter)
      (keywordOnly : List Parameter) (keywords : Option Parameter)

end

instance : Inhabited Expr := ⟨.constant .none⟩

/-- The name of a parameter. -/
def Parameter.name : Parameter → String
  | .mk name _ _ => name

/-- The annotation of a parameter. -/
def Parameter.hint : Parameter → Option Expr
  | .mk _ hint _ => hint

/-- The parameters before a bare slash. -/
def Parameters.positionalOnly : Parameters → List Parameter
  | .mk positionalOnly _ _ _ _ => positionalOnly

/-- The parameters that may be passed by position or by name. -/
def Parameters.regular : Parameters → List Parameter
  | .mk _ regular _ _ _ => regular

/-- The parameter that takes the surplus positional arguments. -/
def Parameters.variadic : Parameters → Option Parameter
  | .mk _ _ variadic _ _ => variadic

/-- The parameters that can only be passed by name. -/
def Parameters.keywordOnly : Parameters → List Parameter
  | .mk _ _ _ keywordOnly _ => keywordOnly

/-- The parameter that takes the surplus keyword arguments. -/
def Parameters.keywords : Parameters → Option Parameter
  | .mk _ _ _ _ keywords => keywords

/-- No parameters. -/
def Parameters.empty : Parameters :=
  .mk [] [] none [] none

/-- A pattern of a `case`. `capture none` is the wildcard, and `star none` the anonymous rest. -/
inductive Pattern
  | value (expression : Expr)
  | singleton (value : Constant)
  | capture (name : Option String)
  | binding (pattern : Pattern) (name : String)
  | sequence (opensRound : Bool) (items : List Pattern)
  | star (name : Option String)
  | mapping (keys : List Expr) (patterns : List Pattern) (rest : Option String)
  | class (callee : Expr) (args : List Pattern) (labels : List String) (fields : List Pattern)
  | alternatives (items : List Pattern)

instance : Inhabited Pattern := ⟨.capture none⟩

/-- A name in an import, with the name it is bound to if that differs. -/
structure ImportName where
  name : String
  binding : Option String

/-- A statement without nested statements. -/
inductive Simple
  | returns (value : Option Expr)
  | assigns (targets : List Expr) (value : Expr)
  | annotates (target hint : Expr) (value : Option Expr)
  | augments (target : Expr) (op : BinaryOp) (value : Expr)
  | asserts (test : Expr) (message : Option Expr)
  | raises (exception cause : Option Expr)
  | passes
  | evaluates (value : Expr)
  | deletes (targets : List Expr)
  | imports (names : List ImportName)
  | importsFrom (module : Option String) (names : List ImportName) (level : Nat)
  | globals (names : List String)
  | nonlocals (names : List String)
  | breaks
  | continues

/-- A decorator and the line of its expression. -/
structure Decorator where
  line : Nat
  expression : Expr

/-- What a function definition says before its body, and the last line of the whole definition. -/
structure FunctionHeader where
  name : String
  isAsync : Bool
  parameters : Parameters
  returns : Option Expr
  decorators : List Decorator
  endLine : Nat

/-- What a class definition says before its body. -/
structure ClassHeader where
  name : String
  bases : List Expr
  keywords : List Keyword
  decorators : List Decorator

/-- A context manager and the target it is bound to. -/
structure ContextItem where
  manager : Expr
  target : Option Expr

mutual

/-- A statement with the line of its first token. -/
inductive Stmt
  | simple (line : Nat) (statement : Simple)
  | branch (line : Nat) (test : Expr) (body orelse : List Stmt)
  | select (line : Nat) (subject : Expr) (cases : List Case)
  | forLoop (line : Nat) (isAsync : Bool) (target iterable : Expr) (body orelse : List Stmt)
  | whileLoop (line : Nat) (test : Expr) (body orelse : List Stmt)
  | context (line : Nat) (isAsync : Bool) (items : List ContextItem) (body : List Stmt)
  | attempt (line : Nat) (isGroup : Bool) (body : List Stmt) (handlers : List Handler)
      (orelse finals : List Stmt)
  | function (line : Nat) (header : FunctionHeader) (body : List Stmt)
  | classDef (line : Nat) (header : ClassHeader) (body : List Stmt)

/-- One `case` of a `match`. -/
inductive Case
  | mk (pattern : Pattern) (guard : Option Expr) (body : List Stmt)

/-- One `except` of a `try`. -/
inductive Handler
  | mk (exception : Option Expr) (name : Option String) (body : List Stmt)

end

instance : Inhabited Stmt := ⟨.simple 0 .passes⟩

/-- The line of a statement's first token. -/
def Stmt.line : Stmt → Nat
  | .simple line _ | .branch line .. | .select line .. | .forLoop line .. | .whileLoop line ..
  | .context line .. | .attempt line .. | .function line .. | .classDef line .. => line

/-- A function definition by itself. -/
structure FunctionSource where
  line : Nat
  header : FunctionHeader
  body : List Stmt

/-- The lines of a function's header: those of its decorators and its own. -/
def FunctionSource.headLines (f : FunctionSource) : List Nat :=
  f.header.decorators.map Decorator.line ++ [f.line]

/-- The text of a statement that is a bare string. -/
def Stmt.text? : Stmt → Option String
  | .simple _ (.evaluates (.constant (.text points _))) => some points.text
  | _ => none

end AikenForge.Source
