/-
# Lowering expressions

Every expression has a text in the target language, empty where it is not supported. An operand that
binds looser than its place asks for is put in brackets. Operands are lowered from left to right,
except that the container of a membership test comes first; each operand between two comparisons is
lowered for both.
-/

import AikenForge.Lowering.Basic
import AikenForge.Naming
import AikenForge.Number.Decimal
import AikenForge.Source.Outline

namespace AikenForge

open AikenForge.Source AikenForge.Number AikenForge.Text

/-- How tightly the forms of target text bind, loosest first. -/
inductive Precedence
  | loose | or | and | compare | add | mult | unary | atom
  deriving DecidableEq

/-- Precedences as numbers, from zero. -/
def Precedence.rank : Precedence → Nat
  | .loose => 0
  | .or => 1
  | .and => 2
  | .compare => 3
  | .add => 4
  | .mult => 5
  | .unary => 6
  | .atom => 7

/-- The target operator of a binary operator and how tightly it binds, if it is supported. -/
def Source.BinaryOp.target? : BinaryOp → Option (String × Precedence)
  | .add => some ("+", .add)
  | .sub => some ("-", .add)
  | .mult => some ("*", .mult)
  | .div => some ("/", .mult)
  | .floorDiv => some ("/", .mult)
  | .mod => some ("%", .mult)
  | _ => none

/-- The target operator of a comparison; membership has none. -/
def Source.CompareOp.target? : CompareOp → Option String
  | .eq => some "=="
  | .notEq => some "!="
  | .lt => some "<"
  | .ltE => some "<="
  | .gt => some ">"
  | .gtE => some ">="
  | .is => some "=="
  | .isNot => some "!="
  | .isIn | .notIn => none

/-- How tightly the text of an expression binds. -/
def Source.Expr.precedence : Expr → Precedence
  | .boolean .or _ => .or
  | .boolean .and _ => .and
  | .compare _ (_ :: _ :: _) => .and
  | .compare _ [.mk .isIn _] => .atom
  | .compare _ [.mk .notIn _] => .unary
  | .compare .. => .compare
  | .binary op _ _ => (op.target?.map Prod.snd).getD .atom
  | .unary .plus operand => operand.precedence
  | .unary .. => .unary
  | .conditional .. | .lambda .. => .loose
  | _ => .atom

/-- Whether an operand is put in brackets: it binds looser than its place, or equally in a `strict`
place. -/
def isBracketed (own place : Precedence) (strict : Bool) : Bool :=
  own.rank < place.rank || (strict && own == place)

/-- An operand's text in its place. -/
def bracketOperand (own place : Precedence) (strict : Bool) (text : String) : String :=
  if isBracketed own place strict then "(" ++ text ++ ")" else text

/-- The name that an expression is, if it is one. -/
def Source.Expr.name? : Expr → Option String
  | .name id => some id
  | _ => none

/-- The code points that an expression is, if it is a text literal. -/
def Source.Expr.points? : Expr → Option CodePoints
  | .constant (.text points _) => some points
  | _ => none

/-- The text that an expression is, if it is a text literal. -/
def Source.Expr.text? (e : Expr) : Option String :=
  e.points?.map CodePoints.text

/-- The text after the last dot. -/
def afterLastDot (s : String) : String :=
  .ofList (s.toList.reverse.takeWhile (· != '.')).reverse

/-- Bytes as hexadecimal digits. -/
def hexText (bytes : List UInt8) : String :=
  .ofList (bytes.flatMap fun b => hexDigits 2 b.toNat)

/-- Texts between braces after a head, separated by commas: `{ a, b }`. -/
def bracedFields (fields : List String) : String :=
  "\x7b " ++ ", ".intercalate fields ++ " \x7d"

namespace Lowering

variable (ctx : Context)

/-- The text of a name that is no alias: its name as a constant, or itself. -/
def plainName (id : String) : String :=
  if ctx.scope.constants.contains id then Naming.constantName id else id

/-- The text of a name: what it is an alias for, or its own text. -/
def nameText (id : String) : Lowering String := do
  match (← get).aliases.find? id with
  | some text => return text
  | none => return plainName ctx id

/-- The text of an integer, if it keeps to the limit on digits. -/
def integerText (n : Nat) : Lowering String :=
  match decimalText? n with
  | some text => pure text
  | none => throw .digitLimit

/-- The text of a literal. A number with a fraction is cut to its integer part. -/
def constantText : Constant → Lowering String
  | .bool true => pure "True"
  | .bool false => pure "False"
  | .none => pure "None"
  | .ellipsis => pure "todo"
  | .text points _ => pure (quotePoints .unicode points)
  | .bytes content => pure ("#\"" ++ hexText content ++ "\"")
  | .int n => integerText n
  | .real x => do
    if !x.isIntegral then
      warn .expressions ("Truncating non-integral number " ++ x.render .real)
    match x.truncate? with
    | some n => integerText n
    | none => throw .infiniteInteger
  | .imaginary x => do
    warn .expressions ("Unsupported constant: " ++ x.render .imaginary ++ "j")
    return ""

/-- The text of a form that is not supported: empty, with a warning. -/
def unsupported (what kind : String) : Lowering String := do
  warn .expressions ("Unsupported " ++ what ++ ": " ++ kind)
  return ""

/-- Resolve a name as a builtin that nothing shadows, recording its use. -/
def builtinTarget? (callee : Expr) : Lowering (Option String) := do
  let state ← get
  match callee.name?, state.registry with
  | some id, some registry =>
    if ctx.scope.knownFunctions.contains id || state.aliases.contains id then return none
    else
      match registry.resolve? id with
      | some (target, registry) =>
        set { state with registry := some registry }
        return some target
      | none => return none
  | _, _ => return none

/-- The text of a function that is called: a builtin's target name, or the text `lowered` gives. -/
def calleeText (callee : Expr) (lowered : Lowering String) : Lowering String := do
  match ← builtinTarget? ctx callee with
  | some target => return target
  | none => return bracketOperand callee.precedence .atom false (← lowered)

/-- The forms that look like calls. -/
inductive SpecialCall
  | pipe | expect

/-- The form that a call with these arguments stands for, unless the module defines a function of
that name. -/
def specialCall? (callee : Expr) (args : List Expr) : Option SpecialCall :=
  match callee.name? with
  | some id =>
    if args.isEmpty || ctx.scope.knownFunctions.contains id then none
    else if id == "pipe" then some .pipe
    else if id == "expect" then some .expect
    else none
  | none => none

/-- The message of an expectation's further arguments, which must be a text literal. -/
def expectMessage : List Expr → Lowering (Option CodePoints)
  | [] => pure none
  | message :: _ =>
    match message.points? with
    | some points => pure (some points)
    | none => do
      warn .expressions "expect() message must be a string literal, using the default"
      return none

/-- Record a pipe and give its text. -/
def pipeText (initialValue : String) (operations : List PipeOperation) : Lowering String := do
  let pipe : PipeExpression := ⟨initialValue, operations⟩
  recordPipe pipe
  return pipe.render

/-- Record an expectation and give its text. -/
def expectText (expression : String) (message : Option CodePoints) : Lowering String := do
  let e : ExpectExpression := ⟨expression, message⟩
  recordExpect e
  return e.render (some ctx.options.expectMessage)

/-- The text of one comparison, with both operands given by how tightly they bind and how they are
lowered. -/
def comparisonText (op : CompareOp) (leftOwn : Precedence) (left : Lowering String)
    (rightOwn : Precedence) (right : Lowering String) : Lowering String := do
  match op.target? with
  | some symbol =>
    let l := bracketOperand leftOwn .compare true (← left)
    let r := bracketOperand rightOwn .compare true (← right)
    return l ++ " " ++ symbol ++ " " ++ r
  | none =>
    let container ← right
    let item ← left
    let text := "list.has(" ++ container ++ ", " ++ item ++ ")"
    return if op == .notIn then "!" ++ text else text

/-- The member of an enumeration that an attribute names. -/
def enumMember? (value : Expr) (label : String) : Option String :=
  match value.name?.bind ctx.scope.enums.find? with
  | some members => if members.contains label then some (Naming.toConstructorName label) else none
  | none => none

/-- The target operator and precedence of a connective. -/
def connective : BoolOp → String × Precedence
  | .and => (" && ", .and)
  | .or => (" || ", .or)

/-- A filter of a list by a condition on its elements: `list.filter(xs, fn(x) { condition })`. -/
def filterText (target source condition : String) : String :=
  "list.filter(" ++ source ++ ", fn(" ++ target ++ ") \x7b " ++ condition ++ " \x7d)"

mutual

/-- The text of an expression. -/
def lower : Expr → Lowering String
  | .name id => nameText ctx id
  | .constant value => constantText value
  | .attribute value label => do
    match enumMember? ctx value label with
    | some constructor => return constructor
    | none =>
      if value.name? == some "self" && !(← get).aliases.contains "self" then return label
      else
        let text ← lower value
        return bracketOperand value.precedence .atom false text ++ "." ++ label
  | .subscript _ (.slice ..) => do
    warn .expressions "Slices are not supported"
    return ""
  | .subscript value index => do
    let text ← lower value
    let inside ← lower index
    return bracketOperand value.precedence .atom false text ++ "[" ++ inside ++ "]"
  | .list items => do
    return "[" ++ ", ".intercalate (← lowerAll items) ++ "]"
  | .tuple items => do
    return "(" ++ ", ".intercalate (← lowerAll items) ++ ")"
  | .starred value => do
    return ".." ++ (← lower value)
  | .dict entries => do
    let fields ← lowerEntries entries
    return if fields.isEmpty then "\x7b\x7d" else bracedFields fields
  | .unary .plus operand => lower operand
  | .unary op operand => do
    let text := bracketOperand operand.precedence .unary false (← lower operand)
    match op with
    | .minus => return "-" ++ text
    | .not => return "!" ++ text
    | _ => unsupported "unary operator" op.kind
  | .binary op left right => do
    match op.target? with
    | none => unsupported "binary operator" op.kind
    | some (symbol, own) =>
      let l := bracketOperand left.precedence own false (← lower left)
      let r := bracketOperand right.precedence own true (← lower right)
      return l ++ " " ++ symbol ++ " " ++ r
  | .boolean op values => do
    let (symbol, own) := connective op
    return symbol.intercalate (← lowerOperands own values)
  | .compare left links => do
    return " && ".intercalate (← lowerLinks left.precedence (lower left) links)
  | .conditional test body orelse => do
    let test ← lower test
    let body ← lower body
    let orelse ← lower orelse
    -- `if test { body } else { orelse }`
    return "if " ++ test ++ " \x7b " ++ body ++ " \x7d else \x7b " ++ orelse ++ " \x7d"
  | .call callee args keywords =>
    match specialCall? ctx callee args with
    | some .pipe => lowerPipe args
    | some .expect => lowerExpect args
    | none => do
      let name ← calleeText ctx callee (lower callee)
      if Naming.isConstructorName (afterLastDot name) && !keywords.isEmpty && args.isEmpty then
        return name ++ " " ++ bracedFields (← lowerFields keywords)
      else
        let positional ← lowerAll args
        let labelled ← lowerLabelled true keywords
        return name ++ "(" ++ ", ".intercalate (positional ++ labelled) ++ ")"
  | .lambda parameters body => do
    let params := parameters.regular.map Parameter.name
    let body ← withAliases (fun aliases => params.foldl Table.erase aliases) (lower body)
    -- `fn(a, b) { body }`
    return "fn(" ++ ", ".intercalate params ++ ") \x7b " ++ body ++ " \x7d"
  | .comprehension .list element clauses =>
    match clauses with
    | [.mk (.name target) iterable conditions _] => do
      let source ← lower iterable
      withAliases (·.erase target) do
        let conditions ← lowerAll conditions
        let source := conditions.foldl (filterText target) source
        if element.name? == some target then return source
        else
          let mapped ← lower element
          -- `list.map(xs, fn(x) { mapped })`
          return "list.map(" ++ source ++ ", fn(" ++ target ++ ") \x7b " ++ mapped ++ " \x7d)"
    | _ => do
      warn .expressions "Only single-target list comprehensions are supported"
      return ""
  | e => unsupported "expression" e.kind

/-- The text of a pipe: a value and the steps it goes through. -/
def lowerPipe : List Expr → Lowering String
  | [] => pure ""
  | first :: steps => do
    let initial ← lower first
    pipeText initial (← lowerSteps steps)

/-- The text of an expectation: a value and its message. -/
def lowerExpect : List Expr → Lowering String
  | [] => pure ""
  | value :: further => do
    let message ← expectMessage further
    expectText ctx (← lower value) message

/-- The texts of expressions from left to right. -/
def lowerAll : List Expr → Lowering (List String)
  | [] => pure []
  | e :: rest => do
    let text ← lower e
    return text :: (← lowerAll rest)

/-- The texts of operands in places of one precedence. -/
def lowerOperands (place : Precedence) : List Expr → Lowering (List String)
  | [] => pure []
  | e :: rest => do
    let text := bracketOperand e.precedence place false (← lower e)
    return text :: (← lowerOperands place rest)

/-- The texts of dictionary entries. A text literal as a key is a label. -/
def lowerEntries : List Entry → Lowering (List String)
  | [] => pure []
  | .spread value :: rest => do
    let text ← lower value
    return (".." ++ text) :: (← lowerEntries rest)
  | .pair key value :: rest => do
    let label ← match key.text? with
      | some label => pure label
      | none => lower key
    let text ← lower value
    return (label ++ ": " ++ text) :: (← lowerEntries rest)

/-- The texts of a chain of comparisons, each between one operand and the next. -/
def lowerLinks (leftOwn : Precedence) (left : Lowering String) :
    List Link → Lowering (List String)
  | [] => pure []
  | .mk op right :: rest => do
    let text ← comparisonText op leftOwn left right.precedence (lower right)
    return text :: (← lowerLinks right.precedence (lower right) rest)

/-- The texts of the fields of a constructor call. -/
def lowerFields : List Keyword → Lowering (List String)
  | [] => pure []
  | .labelled label value :: rest => do
    let text ← lower value
    return (label ++ ": " ++ text) :: (← lowerFields rest)
  | .spread value :: rest => do
    let text ← lower value
    return (".." ++ text) :: (← lowerFields rest)

/-- The texts of the labelled arguments of a call; a spread is left out, with a warning if
`warnSpread`. -/
def lowerLabelled (warnSpread : Bool) : List Keyword → Lowering (List String)
  | [] => pure []
  | .labelled label value :: rest => do
    let text ← lower value
    return (label ++ ": " ++ text) :: (← lowerLabelled warnSpread rest)
  | .spread _ :: rest => do
    if warnSpread then warn .expressions "Keyword unpacking is not supported in calls"
    lowerLabelled warnSpread rest

/-- The steps of a pipe: a call gives its arguments after the piped value. -/
def lowerSteps : List Expr → Lowering (List PipeOperation)
  | [] => pure []
  | .call callee args keywords :: rest => do
    let positional ← lowerAll args
    let labelled ← lowerLabelled false keywords
    let name ← calleeText ctx callee (lower callee)
    return ⟨name, positional ++ labelled⟩ :: (← lowerSteps rest)
  | e :: rest => do
    let name ← calleeText ctx e (lower e)
    return ⟨name, []⟩ :: (← lowerSteps rest)

end

end Lowering

end AikenForge
