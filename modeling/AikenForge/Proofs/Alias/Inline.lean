/-
# Inlining aliases in the source

A name that is bound to the transaction of a parameter stands for it. Here such names are inlined in
the source tree itself: a load that the binding reaches is replaced by what the name stands for, and
the binding is dropped. The tree that results needs no aliases.

What ends an alias is given by a rule. Two rules are of interest: the bindings that lowering takes
note of, and all the bindings there are, in the order of statements and block by block.
-/

import AikenForge.Proofs.Expectation.Reached

namespace AikenForge.Inlining

open AikenForge.Source AikenForge.Lowering AikenForge.Text AikenForge.Expectation

/-! ## What names stand for -/

/-- What an alias stands for: the transaction of a parameter, or that of what another alias stands
for. -/
inductive Standing
  | root (name : String)
  | through (name : String) (standing : Standing)

/-- What an alias stands for, as an expression. -/
def Standing.expr : Standing → Expr
  | .root name => .attribute (.name name) transactionLabel
  | .through _ standing => .attribute standing.expr transactionLabel

/-- The names whose values an alias depends on. -/
def Standing.names : Standing → List String
  | .root name => [name]
  | .through name standing => name :: standing.names

/-- What the names in force stand for. -/
abbrev Env := String → Option Standing

/-- A name starts to stand for something. -/
def Env.set (env : Env) (name : String) (standing : Standing) : Env :=
  fun other => if other = name then some standing else env other

/-- Which bindings end aliases. -/
structure Rule where
  /-- The names that the expressions of a statement bind, apart from its nested blocks. -/
  own : Stmt → List String
  /-- Whether further branches and further clauses have own names too. -/
  hearsFurther : Bool
  /-- The names that a function expression binds in its body. -/
  parameters : Parameters → List String
  /-- The targets of an assignment that count. -/
  leading : List Expr → List Expr
  /-- The names that a target binds. -/
  target : Expr → List String
  /-- The names that simple statements other than assignments bind. -/
  simple : Simple → List String
  /-- The names that a pattern binds for its guard and its body. -/
  captures : Pattern → List String
  /-- The names that an exception handler binds for its body. -/
  handler : Option String → List String
  /-- The names that a statement binds for the statements nested in it. -/
  inner : Stmt → List String
  /-- The names that a statement with nested statements binds for those after it. -/
  outer : Stmt → List String
  /-- Whether an alias also ends when a name it depends on is bound. -/
  countsRoots : Bool
  /-- Whether the statements nested in a statement of which only these are lowered are one block. -/
  joinsBodies : Bool

variable (rule : Rule) (ctx : Context)

/-- What names stand for after others were bound. -/
def ended (names : List String) (env : Env) : Env :=
  fun name =>
    if name ∈ names then none
    else (env name).filter fun standing => !(rule.countsRoots && standing.names.any (· ∈ names))

/-- What a name stands for that is bound to the transaction of a root. A root that is itself an
alias stands for what it stands for, unless it names an enumeration that has such a member. -/
def standingOfRoot (env : Env) (root : String) : Standing :=
  match enumMember? ctx (.name root) transactionLabel, env root with
  | none, some standing => .through root standing
  | _, _ => .root root

/-- What a name stands for that is bound to a value, if it is an alias. -/
def standing? (env : Env) : Expr → Option Standing
  | .attribute (.name root) label =>
    if label == transactionLabel && ctx.aliasRoots.contains root then
      some (standingOfRoot ctx env root)
    else none
  | _ => none

/-! ## Expressions -/

mutual

/-- An expression with the names that stand for something replaced. Names that lowering takes for
members of enumerations or for special forms are kept, and so is what has no text. -/
def inline (env : Env) : Expr → Expr
  | .name id =>
    match env id with
    | some standing => standing.expr
    | none => .name id
  | .attribute value label =>
    if (enumMember? ctx value label).isSome then .attribute value label
    else .attribute (inline env value) label
  | .subscript value index => .subscript (inline env value) (inline env index)
  | .list items => .list (inlineAll env items)
  | .tuple items => .tuple (inlineAll env items)
  | .starred value => .starred (inline env value)
  | .dict entries => .dict (inlineEntries env entries)
  | .unary op operand => .unary op (inline env operand)
  | .binary op left right => .binary op (inline env left) (inline env right)
  | .boolean op values => .boolean op (inlineAll env values)
  | .compare left links => .compare (inline env left) (inlineLinks env links)
  | .conditional test body orelse =>
    .conditional (inline env test) (inline env body) (inline env orelse)
  | .call callee args keywords =>
    match specialCall? ctx callee args with
    | some .pipe => .call callee (inlinePipe env args) keywords
    | some .expect => .call callee (inlineAll env args) keywords
    | none => .call (inline env callee) (inlineAll env args) (inlineKeywords env keywords)
  | .lambda parameters body =>
    .lambda parameters (inline (ended rule (rule.parameters parameters) env) body)
  | .comprehension .list element [.mk (.name target) iterable conditions isAsync] =>
    .comprehension .list (inline (ended rule [target] env) element)
      [.mk (.name target) (inline env iterable) (inlineAll (ended rule [target] env) conditions)
        isAsync]
  | e => e

/-- The parts of a pipe. -/
def inlinePipe (env : Env) : List Expr → List Expr
  | [] => []
  | first :: steps => inline env first :: inlineSteps env steps

/-- Expressions one by one. -/
def inlineAll (env : Env) : List Expr → List Expr
  | [] => []
  | e :: rest => inline env e :: inlineAll env rest

/-- The entries of a dictionary. -/
def inlineEntries (env : Env) : List Entry → List Entry
  | [] => []
  | .spread value :: rest => .spread (inline env value) :: inlineEntries env rest
  | .pair key value :: rest => .pair (inline env key) (inline env value) :: inlineEntries env rest

/-- The further operands of a comparison. -/
def inlineLinks (env : Env) : List Link → List Link
  | [] => []
  | .mk op right :: rest => .mk op (inline env right) :: inlineLinks env rest

/-- Labelled arguments. -/
def inlineKeywords (env : Env) : List Keyword → List Keyword
  | [] => []
  | .labelled label value :: rest => .labelled label (inline env value) :: inlineKeywords env rest
  | .spread value :: rest => .spread (inline env value) :: inlineKeywords env rest

/-- The steps of a pipe. The function of a step is never a special form. -/
def inlineSteps (env : Env) : List Expr → List Expr
  | [] => []
  | .call callee args keywords :: rest =>
    .call (inline env callee) (inlineAll env args) (inlineKeywords env keywords) ::
      inlineSteps env rest
  | e :: rest => inline env e :: inlineSteps env rest

end

theorem inline_name_some (env : Env) {id : String} {standing : Standing}
    (h : env id = some standing) :
    inline rule ctx env (.name id) = standing.expr := by
  rw [inline, h]

theorem inline_name_none (env : Env) {id : String} (h : env id = none) :
    inline rule ctx env (.name id) = .name id := by
  rw [inline, h]

mutual

/-- A pattern with the values in it inlined. -/
def inlinePattern (env : Env) : Pattern → Pattern
  | .value expression => .value (inline rule ctx env expression)
  | .binding pattern name => .binding (inlinePattern env pattern) name
  | .class callee args labels fields =>
    .class (inline rule ctx env callee) (inlinePatterns env args) labels (inlinePatterns env fields)
  | .sequence opensRound items => .sequence opensRound (inlinePatterns env items)
  | .alternatives items => .alternatives (inlinePatterns env items)
  | pattern => pattern

/-- Patterns one by one. -/
def inlinePatterns (env : Env) : List Pattern → List Pattern
  | [] => []
  | pattern :: rest => inlinePattern env pattern :: inlinePatterns env rest

end

/-! ## Statements -/

/-- The expression that a part of a directive is, if it can be read. -/
def readable? (text : String) : Option Expr :=
  (readExpression ctx.options.names (strip text)).toOption

/-- Whether a pipe directive stands in for the value of a statement on a line. -/
def hasPipe (line : Nat) : Bool :=
  match (ctx.directives.ofKind line .pipe).getLast? with
  | none => false
  | some d =>
    match ((pipeParts [] d.text.toList).map (readable? ctx)).mapM id with
    | some (_ :: _ :: _) => true
    | _ => false

/-- What a name on a line would stand for if it was bound to a value. -/
def madeStanding? (env : Env) (line : Nat) (value : Expr) : Option Standing :=
  if hasPipe ctx line then none else standing? ctx env value

/-- Whether binding a target makes an alias of it. -/
def makesAlias (line : Nat) (target : Option Expr) (value : Expr) : Bool :=
  (target.bind Expr.name?).isSome && !hasPipe ctx line && isTransactionAlias ctx value

/-- A simple statement with its values inlined. A binding that makes an alias is dropped; combining
an alias with a value is binding it to the combination. -/
def inlineSimple (env : Env) (line : Nat) : Simple → Simple
  | .returns value => .returns (value.map (inline rule ctx env))
  | .assigns targets value =>
    if makesAlias ctx line targets.head? value then .passes
    else .assigns targets (inline rule ctx env value)
  | .annotates target hint (some value) =>
    if makesAlias ctx line (some target) value then .passes
    else .annotates target hint (some (inline rule ctx env value))
  | .augments target op value =>
    match target.name?.bind env with
    | some standing => .assigns [target] (.binary op standing.expr (inline rule ctx env value))
    | none => .augments target op (inline rule ctx env value)
  | .asserts test message => .asserts (inline rule ctx env test) message
  | .evaluates value => .evaluates (inline rule ctx env value)
  | other => other

/-- What names stand for after a target was bound, to an alias if `standing` is given. -/
def bound (standing : Option Standing) (env : Env) (target : Expr) : Env :=
  match target.name?, standing with
  | some name, some standing => (ended rule [name] env).set name standing
  | _, _ => ended rule (rule.target target) env

/-- What names stand for after a simple statement. -/
def afterSimple (env : Env) (line : Nat) : Simple → Env
  | .assigns targets value =>
    (rule.leading targets).foldl (bound rule (madeStanding? ctx env line value)) env
  | .annotates (.name name) _ (some value) =>
    bound rule (madeStanding? ctx env line value) env (.name name)
  | .annotates .. => env
  | .augments (.name name) _ _ => ended rule [name] env
  | .augments .. => env
  | other => ended rule (rule.simple other) env

/-- What names stand for after a statement. -/
def afterStatement (env : Env) : Stmt → Env
  | .simple line statement => afterSimple rule ctx env line statement
  | other => ended rule (rule.outer other) env

/-- What names stand for in a statement that is reached in some way. -/
def inside (env : Env) (way : Way) (statement : Stmt) : Env :=
  if way = .whole ∨ rule.hearsFurther then ended rule (rule.own statement) env else env

mutual

/-- The statements of a block; `way` is how the first of them is reached. -/
def inlineLines (env : Env) (way : Way) : List Stmt → List Stmt
  | [] => []
  | statement :: rest =>
    inlineStatement (inside rule env way statement) way statement ::
      inlineLines (afterStatement rule ctx (inside rule env way statement) statement)
        (Way.after ctx statement rest) rest

/-- A statement under what names stand for in it. -/
def inlineStatement (env : Env) (way : Way) : Stmt → Stmt
  | .simple line statement => .simple line (inlineSimple rule ctx env line statement)
  | .branch line test body orelse =>
    .branch line (inline rule ctx env test) (inlineLines env .whole body)
      (inlineLines env (way.alternative ctx line orelse) orelse)
  | .select line subject cases => .select line (inline rule ctx env subject) (inlineCases env cases)
  | s@(.forLoop line isAsync target iterable body orelse) =>
    .forLoop line isAsync target iterable (inlineEach (ended rule (rule.inner s) env) body)
      (inlineEach (ended rule (rule.inner s) env) orelse)
  | s@(.whileLoop line test body orelse) =>
    .whileLoop line test (inlineEach (ended rule (rule.inner s) env) body)
      (inlineEach (ended rule (rule.inner s) env) orelse)
  | s@(.context line isAsync items body) =>
    .context line isAsync items (inlineEach (ended rule (rule.inner s) env) body)
  | s@(.attempt line isGroup body handlers orelse finals) =>
    .attempt line isGroup (inlineEach (ended rule (rule.inner s) env) body)
      (inlineHandlers (ended rule (rule.inner s) env) handlers)
      (inlineEach (ended rule (rule.inner s) env) orelse)
      (inlineEach (ended rule (rule.inner s) env) finals)
  | s@(.function line header body) =>
    .function line header (inlineEach (ended rule (rule.inner s) env) body)
  | s@(.classDef line header body) =>
    .classDef line header (inlineEach (ended rule (rule.inner s) env) body)

/-- The cases of a `match`. -/
def inlineCases (env : Env) : List Case → List Case
  | [] => []
  | .mk pattern guard body :: rest =>
    .mk (inlinePattern rule ctx env pattern)
      (guard.map (inline rule ctx (ended rule (rule.captures pattern) env)))
      (inlineLines (ended rule (rule.captures pattern) env) .whole body) :: inlineCases env rest

/-- Statements nested in one of which only these are lowered. -/
def inlineEach (env : Env) : List Stmt → List Stmt
  | [] => []
  | statement :: rest =>
    inlineStatement (inside rule env .whole statement) .whole statement ::
      inlineEach
        (if rule.joinsBodies then
          afterStatement rule ctx (inside rule env .whole statement) statement
        else env) rest

/-- Exception handlers. -/
def inlineHandlers (env : Env) : List Handler → List Handler
  | [] => []
  | .mk exception name body :: rest =>
    .mk exception name (inlineLines (ended rule (rule.handler name) env) .whole body) ::
      inlineHandlers env rest

end

/-- A list of statements with its aliases inlined. -/
def inlined (statements : List Stmt) : List Stmt :=
  inlineLines rule ctx (fun _ => none) .whole statements

/-- A context in which no name becomes an alias. -/
def rootless : Context :=
  { ctx with aliasRoots := [] }

/-! ## The two rules -/

mutual

/-- The names that lowering ends the aliases of when it binds a target. -/
def droppedNames : Expr → List String
  | .name id => [id]
  | .tuple items | .list items => droppedNamesAll items
  | .starred (.name id) => [id]
  | _ => []

/-- The names that lowering ends the aliases of when it binds several targets. -/
def droppedNamesAll : List Expr → List String
  | [] => []
  | item :: rest => droppedNames item ++ droppedNamesAll rest

end

/-- The bindings that lowering takes note of: assignment expressions of whole statements, the first
target of an assignment, the regular parameters of a function expression, and the targets of loops
and contexts. -/
def heeded : Rule where
  own := Stmt.ownBoundNames
  hearsFurther := false
  parameters parameters := parameters.regular.map Parameter.name
  leading := List.take 1
  target := droppedNames
  simple _ := []
  captures _ := []
  handler _ := []
  inner := Stmt.blockTargets
  outer := Stmt.blockTargets
  countsRoots := false
  joinsBodies := false

/-- The names of all parameters. -/
def parameterNames : Parameters → List String
  | .mk positionalOnly regular variadic keywordOnly keywords =>
    (positionalOnly ++ regular ++ variadic.toList ++ keywordOnly ++ keywords.toList).map
      Parameter.name

mutual

/-- The names that a pattern captures. -/
def captured : Pattern → List String
  | .value _ | .singleton _ => []
  | .capture name | .star name => name.toList
  | .binding pattern name => name :: captured pattern
  | .sequence _ items | .alternatives items => capturedAll items
  | .mapping _ patterns rest => capturedAll patterns ++ rest.toList
  | .class _ args _ fields => capturedAll args ++ capturedAll fields

/-- The names that several patterns capture. -/
def capturedAll : List Pattern → List String
  | [] => []
  | pattern :: rest => captured pattern ++ capturedAll rest

end

/-- The names that a `match` binds for the statements after it. -/
def caseNames : List Case → List String :=
  List.flatMap fun | .mk pattern _ _ => captured pattern

/-- The guards of the cases of a `match`. -/
def caseGuards : List Case → List Expr :=
  List.filterMap fun | .mk _ guard _ => guard

/-- The names that exception handlers bind. -/
def handlerNames : List Handler → List String :=
  List.filterMap fun | .mk _ name _ => name

/-- The name that an import binds: its own, or the first part of a dotted one. -/
def importedName (imported : ImportName) : String :=
  imported.binding.getD (.ofList (imported.name.toList.takeWhile (· != '.')))

/-- All the bindings there are. A block is a list of statements, and what is bound in it ends with
it; patterns and handlers bind for what they guard and for the statements after. -/
def lexical : Rule where
  own
    | .select _ subject cases => boundNames (subject :: caseGuards cases)
    | statement => statement.ownBoundNames
  hearsFurther := true
  parameters := parameterNames
  leading := id
  target := Expr.targetNames
  simple
    | .imports names | .importsFrom _ names _ => names.map importedName
    | _ => []
  captures := captured
  handler := Option.toList
  inner
    | .function _ header _ => header.name :: parameterNames header.parameters
    | statement => statement.blockTargets
  outer
    | .select _ _ cases => caseNames cases
    | .attempt _ _ _ handlers _ _ => handlerNames handlers
    | .function _ header _ => [header.name]
    | .classDef _ header _ => [header.name]
    | statement => statement.blockTargets
  countsRoots := true
  joinsBodies := true

end AikenForge.Inlining
