/-
# Structured bodies keep their meaning

A structured list of statements leaves on every path: it ends in a return, a failure or a branch
with two structured sides, and before that it binds names, asserts, passes, or leaves early through
a branch without an `else`. Its lines are the layout of a block of the target language, and that
block has the value or the failure that running the statements has.

Expressions are opaque here. An interpretation gives each of them a value or a failure in an
environment, and the same interpretation is used on both sides, so what is compared is the order of
evaluation, the bindings, and which branch is taken. Running statements is defined for all lists,
structured or not, as far as the forms of statements at hand go.
-/

import AikenForge.Proofs.Steady

namespace AikenForge.Meaning

open AikenForge.Source AikenForge.Text AikenForge.Lowering

/-! ## Running statements -/

/-- The values of names. -/
abbrev Environment (V : Type) := String → Option V

/-- Give a name a value. -/
def Environment.set {V : Type} (env : Environment V) (name : String) (value : V) : Environment V :=
  fun other => if other = name then some value else env other

/-- What expressions evaluate to, or `none` where evaluation fails, and which values hold as
tests. -/
structure Interpretation (V : Type) where
  value : Expr → Environment V → Option V
  holds : V → Bool

/-- The outcome of a test. -/
def Interpretation.test {V : Type} (J : Interpretation V) (e : Expr) (env : Environment V) :
    Option Bool :=
  (J.value e env).map J.holds

/-- How running statements ends. -/
inductive Ending (V : Type)
  | returned (value : V)
  | raised
  | proceeds (env : Environment V)

/-- The ending that a value or a failure is. -/
def Ending.ofResult {V : Type} : Option V → Ending V
  | some value => .returned value
  | none => .raised

variable {V : Type} (J : Interpretation V)

/-- Bind a name to the value of an expression. -/
def runBinding (name : String) (e : Expr) (env : Environment V) : Ending V :=
  match J.value e env with
  | some value => .proceeds (env.set name value)
  | none => .raised

/-- Run a statement without nested statements. An annotation is not evaluated, and an assignment
with an operator binds the value of the operation. Other forms are not described. -/
def runSimple (env : Environment V) : Simple → Option (Ending V)
  | .returns (some e) => some (.ofResult (J.value e env))
  | .assigns [.name name] e => some (runBinding J name e env)
  | .annotates (.name name) _ (some e) => some (runBinding J name e env)
  | .augments (.name name) op e => some (runBinding J name (.binary op (.name name) e) env)
  | .asserts test _ => some (if J.test test env = some true then .proceeds env else .raised)
  | .raises .. => some .raised
  | .passes => some (.proceeds env)
  | _ => none

mutual

/-- Run a statement. -/
def run (env : Environment V) : Stmt → Option (Ending V)
  | .simple _ statement => runSimple J env statement
  | .branch _ test body orelse =>
    match J.test test env with
    | some true => runAll env body
    | some false => runAll env orelse
    | none => some .raised
  | _ => none

/-- Run statements one after the other, up to the first that does not proceed. -/
def runAll (env : Environment V) : List Stmt → Option (Ending V)
  | [] => some (.proceeds env)
  | statement :: rest =>
    match run env statement with
    | some (.proceeds next) => runAll next rest
    | ending => ending

end

/-! ## Blocks of the target language -/

mutual

/-- A block of the target language. It ends in the value of an expression, in a failure, or in a
choice between two blocks. -/
inductive Block
  | finish (value : Expr)
  | fail (message : Option Expr)
  | bind (name : String) (hint : Option Expr) (value : Expr) (rest : Block)
  | check (test : Expr) (rest : Block)
  | choose (choice : Choice)

/-- A choice between two blocks, the second of which may be a further choice on the same line. -/
inductive Choice
  | between (test : Expr) (body orelse : Block)
  | chain (test : Expr) (body : Block) (next : Choice)

end

mutual

/-- The value of a block, or `none` where it fails. -/
def Block.eval (env : Environment V) : Block → Option V
  | .finish e => J.value e env
  | .fail _ => none
  | .bind name _ e rest =>
    match J.value e env with
    | some value => rest.eval (env.set name value)
    | none => none
  | .check test rest => if J.test test env = some true then rest.eval env else none
  | .choose choice => choice.eval env

/-- The value of the block that a choice takes. -/
def Choice.eval (env : Environment V) : Choice → Option V
  | .between test body orelse =>
    match J.test test env with
    | some true => body.eval env
    | some false => orelse.eval env
    | none => none
  | .chain test body next =>
    match J.test test env with
    | some true => body.eval env
    | some false => next.eval env
    | none => none

end

/-- The texts of expressions and of annotations. -/
structure Spelling where
  expression : Expr → String
  hint : Expr → String

variable (ctx : Context) (spelling : Spelling)

/-- The line that binds a name. -/
def bindingLine (name : String) (hint : Option Expr) (value : Expr) : String :=
  match hint with
  | none => "let " ++ name ++ " = " ++ spelling.expression value
  | some hint => "let " ++ name ++ ": " ++ spelling.hint hint ++ " = " ++ spelling.expression value

/-- The line of a failure. -/
def failureLine (message : Option Expr) : String :=
  match message with
  | none => "fail"
  | some message => "fail @" ++ spelling.expression message

mutual

/-- The layout of a block in lines. -/
def Block.lines : Block → List String
  | .finish e => [spelling.expression e]
  | .fail message => [failureLine spelling message]
  | .bind name hint value rest => bindingLine spelling name hint value :: rest.lines
  | .check test rest => ("expect " ++ spelling.expression test) :: rest.lines
  | .choose choice => [choice.text]

/-- The layout of a choice. Its blocks are indented in braces. -/
def Choice.text : Choice → String
  | .between test body orelse =>
    "if " ++ spelling.expression test ++ " " ++ braced ctx (joinLines body.lines) ++
      " else " ++ braced ctx (joinLines orelse.lines)
  | .chain test body next =>
    "if " ++ spelling.expression test ++ " " ++ braced ctx (joinLines body.lines) ++
      " else " ++ next.text

end

/-- The text of a block. -/
def Block.text (block : Block) : String :=
  joinLines (block.lines ctx spelling)

/-- A choice is written with its keywords. -/
theorem Choice.text_ne (choice : Choice) : choice.text ctx spelling ≠ "" := by
  cases choice <;> simp [Choice.text]

/-! ## Structured lists -/

/-- Statements that leave on every path and do nothing else than bind names and check conditions.
Every expression that is lowered is `fit`, and every annotation is `typed`. -/
inductive Structured (fit typed : Expr → Prop) : List Stmt → Prop
  | returns {line : Nat} {value : Expr} :
      fit value → Structured fit typed [.simple line (.returns (some value))]
  | raises {line : Nat} {exception cause : Option Expr} :
      Structured fit typed [.simple line (.raises exception cause)]
  | branch {line : Nat} {test : Expr} {body orelse : List Stmt} :
      fit test → Structured fit typed body → Structured fit typed orelse →
      Structured fit typed [.branch line test body orelse]
  | assigns {line : Nat} {name : String} {value : Expr} {rest : List Stmt} :
      fit value → Structured fit typed rest →
      Structured fit typed (.simple line (.assigns [.name name] value) :: rest)
  | annotates {line : Nat} {name : String} {hint value : Expr} {rest : List Stmt} :
      typed hint → fit value → Structured fit typed rest →
      Structured fit typed (.simple line (.annotates (.name name) hint (some value)) :: rest)
  | augments {line : Nat} {name : String} {op : BinaryOp} {value : Expr} {rest : List Stmt} :
      op ∈ [.add, .sub, .mult, .div, .floorDiv, .mod] → fit value → Structured fit typed rest →
      Structured fit typed (.simple line (.augments (.name name) op value) :: rest)
  | asserts {line : Nat} {test : Expr} {message : Option Expr} {rest : List Stmt} :
      fit test → Structured fit typed rest →
      Structured fit typed (.simple line (.asserts test message) :: rest)
  | passes {line : Nat} {rest : List Stmt} :
      Structured fit typed rest → Structured fit typed (.simple line .passes :: rest)
  | guard {line : Nat} {test : Expr} {body rest : List Stmt} :
      fit test → Structured fit typed body → body.getLast?.map leaves = some true →
      Structured fit typed rest → Structured fit typed (.branch line test body [] :: rest)

/-- A structured list has a statement that ends it. -/
theorem Structured.ne_nil {fit typed : Expr → Prop} {statements : List Stmt}
    (h : Structured fit typed statements) : statements ≠ [] := by
  cases h <;> simp

/-! ## Lowering without directives and aliases -/

/-- No directive is bound to a line, and no name can come to stand for a transaction. -/
structure Bare (ctx : Context) : Prop where
  directives : ctx.directives = []
  aliasRoots : ctx.aliasRoots = []

/-- The text of an expression in a state, empty if it has none. -/
def textOf (ctx : Context) (state : LoweringState) (e : Expr) : String :=
  ((outcome (lower ctx e) state).1.toOption).getD ""

/-- The text of an annotation in a state, empty if it has none. -/
def hintOf (ctx : Context) (state : LoweringState) (hint : Expr) : String :=
  ((outcome (ofReporting (Hint.resolve ctx.options.names hint)) state).1.toOption.map
    Target.render).getD ""

/-- The texts that lowering gives in a state. -/
def spellingOf (ctx : Context) (state : LoweringState) : Spelling :=
  ⟨textOf ctx state, hintOf ctx state⟩

/-- An expression has a text in a state, and the text is not empty. -/
def Translates (ctx : Context) (state : LoweringState) (e : Expr) : Prop :=
  ∃ text after, Yields (lower ctx e) state text after ∧ text ≠ ""

/-- An annotation has a type in a state. -/
def Resolves (ctx : Context) (state : LoweringState) (hint : Expr) : Prop :=
  ∃ type after, Yields (ofReporting (Hint.resolve ctx.options.names hint)) state type after

section Bare

variable {ctx : Context} {base : LoweringState}

/-- An expression that can be lowered is written as its text. -/
theorem gives_lower {e : Expr} {text : String} {after : LoweringState}
    (h : Yields (lower ctx e) base text after) : Gives base (lower ctx e) (textOf ctx base e) := by
  have htext : textOf ctx base e = text := by
    unfold textOf
    rw [h]
    rfl
  rw [htext]
  exact (steady_lower ctx e).gives h

/-- An expression that translates has a text from the state it is looked at in. -/
theorem Translates.gives {e : Expr} (h : Translates ctx base e) :
    Gives base (lower ctx e) (textOf ctx base e) := by
  obtain ⟨text, after, hrun, -⟩ := h
  exact gives_lower hrun

/-- That text is not empty. -/
theorem Translates.textOf_ne {e : Expr} (h : Translates ctx base e) : textOf ctx base e ≠ "" := by
  obtain ⟨text, after, hrun, hne⟩ := h
  unfold textOf
  rw [hrun]
  exact hne

/-- An annotation that resolves is written as its type. -/
theorem Resolves.gives {hint : Expr} (h : Resolves ctx base hint) :
    ∃ type, Gives base (ofReporting (Hint.resolve ctx.options.names hint)) type ∧
      type.render = hintOf ctx base hint := by
  obtain ⟨type, after, hrun⟩ := h
  refine ⟨type, (steady_ofReporting (Hint.steady_resolve _ hint)).gives hrun, ?_⟩
  unfold hintOf
  rw [hrun]
  rfl

/-- In a bare context no line has a directive. -/
theorem Bare.ofKind_eq_nil (hctx : Bare ctx) (line : Nat) (kind : DirectiveKind) :
    ctx.directives.ofKind line kind = [] := by
  rw [hctx.directives]
  rfl

theorem Bare.expectLines_eq (hctx : Bare ctx) (line : Nat) : expectLines ctx line = pure [] := by
  rw [expectLines, hctx.ofKind_eq_nil]
  rfl

theorem Bare.pipeLine?_eq (hctx : Bare ctx) (line : Nat) : pipeLine? ctx line = pure none := by
  rw [pipeLine?, hctx.ofKind_eq_nil]
  rfl

theorem Bare.whenSubject?_eq (hctx : Bare ctx) (line : Nat) : whenSubject? ctx line = none := by
  rw [whenSubject?, hctx.ofKind_eq_nil]
  rfl

/-- Without directives the text of a whole statement is its own text. -/
theorem gives_around (hctx : Bare ctx) (hbase : base.aliases = []) {statement : Stmt}
    {text : Option String → Lowering String} {result : String} (h : Gives base (text none) result) :
    Gives base (around ctx statement text) result := by
  have hresult : joinLines (([] ++ [result]).filter fun line => !line.isEmpty) = result := by
    by_cases hempty : result = ""
    · subst hempty
      rfl
    · have hline : ([] ++ [result]).filter (fun line => !line.isEmpty) = [result] := by
        simp [hempty]
      rw [hline, joinLines, String.intercalate_singleton]
  rw [around, hctx.pipeLine?_eq, hctx.expectLines_eq]
  refine (gives_pure none).bind ((gives_dropAliases hbase _).bind (h.bind ?_))
  refine (gives_pure []).bind ?_
  rw [hresult]
  exact gives_pure result

/-- In a bare context no binding makes an alias. -/
theorem Bare.gives_aliasFor? (hctx : Bare ctx) (name : String) (value : Expr) :
    Gives base (aliasFor? ctx none name value) none := by
  have halias : isTransactionAlias ctx value = false := by
    unfold isTransactionAlias
    split
    · simp [hctx.aliasRoots]
    · rfl
  rw [aliasFor?, halias]
  exact gives_pure none

/-- An assignment is written as a `let`. -/
theorem gives_assigns (hctx : Bare ctx) (hbase : base.aliases = []) {line : Nat} {name : String}
    {value : Expr} (h : Translates ctx base value) :
    Gives base (simpleText ctx line none (.assigns [.name name] value))
      (bindingLine (spellingOf ctx base) name none value) := by
  have hname : Gives base (bindingText? (.name name)) (some name) :=
    (gives_dropAliases hbase _).bind (gives_pure _)
  have hbind : Gives base (bindText ctx line none (.name name) value)
      ("let " ++ name ++ " = " ++ textOf ctx base value) :=
    h.gives.bind (hname.bind (gives_pure _))
  exact (hctx.gives_aliasFor? name value).bind hbind

/-- An annotated assignment is written as a `let` with its type. -/
theorem gives_annotates (hctx : Bare ctx) (hbase : base.aliases = []) {line : Nat}
    {name : String} {hint value : Expr} (hhint : Resolves ctx base hint)
    (h : Translates ctx base value) :
    Gives base (simpleText ctx line none (.annotates (.name name) hint (some value)))
      (bindingLine (spellingOf ctx base) name (some hint) value) := by
  obtain ⟨type, htype, hrender⟩ := hhint.gives
  have hbind : Gives base (do
      let text ← lower ctx value
      dropAliases [name]
      let type ← ofReporting (Hint.resolve ctx.options.names hint)
      return "let " ++ name ++ ": " ++ type.render ++ " = " ++ text)
      ("let " ++ name ++ ": " ++ hintOf ctx base hint ++ " = " ++ textOf ctx base value) := by
    rw [← hrender]
    exact h.gives.bind ((gives_dropAliases hbase _).bind (htype.bind (gives_pure _)))
  exact (hctx.gives_aliasFor? name value).bind hbind

/-- A name and a value combined by a supported operator have a text if the value has. -/
theorem translates_binary (hbase : base.aliases = []) {name : String} {op : BinaryOp}
    {value : Expr}
    (hop : op ∈ [BinaryOp.add, .sub, .mult, .div, .floorDiv, .mod])
    (h : Translates ctx base value) :
    Translates ctx base (.binary op (.name name) value) := by
  obtain ⟨text, after, hrun, -⟩ := h
  obtain ⟨symbol, own, htarget⟩ : ∃ symbol own, op.target? = some (symbol, own) := by
    simp only [List.mem_cons, List.not_mem_nil, or_false] at hop
    rcases hop with rfl | rfl | rfl | rfl | rfl | rfl
    all_goals exact ⟨_, _, rfl⟩
  obtain ⟨id, hid⟩ : ∃ id, Yields (lower ctx (.name name)) base id base := by
    refine ⟨if ctx.scope.constants.contains name then Naming.constantName name else name, ?_⟩
    rw [lower, nameText, yields_bind]
    refine ⟨base, base, by simp, ?_⟩
    rw [hbase]
    exact yields_pure.mpr ⟨rfl, rfl⟩
  refine ⟨bracketOperand (Expr.name name).precedence own false id ++ " " ++ symbol ++ " " ++
    bracketOperand value.precedence own true text, after, ?_, ?_⟩
  · rw [lower, htarget, yields_bind]
    refine ⟨id, base, hid, ?_⟩
    rw [yields_bind]
    exact ⟨text, after, hrun, yields_pure.mpr ⟨rfl, rfl⟩⟩
  · simp

/-- Combining a name with a value is written as a `let` of that operation. -/
theorem gives_augments (hbase : base.aliases = []) {line : Nat} {name : String} {op : BinaryOp}
    {value : Expr}
    (hop : op ∈ [BinaryOp.add, .sub, .mult, .div, .floorDiv, .mod])
    (h : Translates ctx base value) :
    Gives base (simpleText ctx line none (.augments (.name name) op value))
      (bindingLine (spellingOf ctx base) name none (.binary op (.name name) value)) :=
  (translates_binary hbase hop h).gives.bind ((gives_dropAliases hbase _).bind (gives_pure _))

/-- An assertion is written as an `expect`. -/
theorem gives_asserts {line : Nat} {test : Expr} {message : Option Expr}
    (h : Translates ctx base test) :
    Gives base (simpleText ctx line none (.asserts test message)) ("expect " ++
      textOf ctx base test) :=
  h.gives.bind (gives_pure _)

/-- A failure takes the text literal that opens its arguments as its message. -/
theorem gives_raises {line : Nat} (exception cause : Option Expr) :
    ∃ message, Gives base (simpleText ctx line none (.raises exception cause))
      (failureLine (spellingOf ctx base) message) := by
  simp only [simpleText]
  unfold raiseText
  split
  · rename_i value isMarked _ _
    exact ⟨some (.constant (.text value isMarked)),
      (gives_lower (yields_pure.mpr ⟨rfl, rfl⟩)).bind (gives_pure _)⟩
  · exact ⟨none, gives_pure _⟩

/-! ## Simulation -/

/-- A block of lines in its own scope. -/
theorem gives_blockText {lines : Lowering (List String)} {texts : List String}
    (h : Gives base lines texts) : Gives base (blockText lines) (joinLines texts) :=
  (h.map joinLines).inBlock

/-- Statements are lowered to the layout of a block that has the value of running them. A single
branch among them is lowered to a choice also where it stands as a further branch. -/
structure Simulates (ctx : Context) (base : LoweringState) (statements : List Stmt)
    (block : Block) : Prop where
  lines : Gives base (lowerLines ctx statements) (block.lines ctx (spellingOf ctx base))
  single : continuesChain ctx statements = true → ∃ choice, block = .choose choice ∧
    Gives base (lowerFirst ctx statements) (choice.text ctx (spellingOf ctx base))
  result {V : Type} (J : Interpretation V) (env : Environment V) :
    runAll J env statements = some (.ofResult (block.eval J env))

/-- The text of a branch with a body and an alternative that are blocks, and the choice it is. -/
theorem Simulates.choose (line : Nat) {test : Expr} {body orelse : List Stmt}
    {first second : Block} (htest : Translates ctx base test)
    (hbody : Simulates ctx base body first) (horelse : Simulates ctx base orelse second)
    (hne : orelse ≠ []) :
    ∃ choice,
      Gives base (branchText ctx line test (lowerLines ctx body)
        ⟨orelse, lowerFirst ctx orelse, lowerLines ctx orelse⟩)
        (Choice.text ctx (spellingOf ctx base) choice) ∧
      ∀ {V : Type} (J : Interpretation V) (env : Environment V), Choice.eval J env choice =
        match J.test test env with
        | some true => first.eval J env
        | some false => second.eval J env
        | none => none := by
  have hempty : orelse.isEmpty = false := by simpa using hne
  by_cases hchain : continuesChain ctx orelse = true
  · obtain ⟨choice, rfl, hfirst⟩ := horelse.single hchain
    refine ⟨.chain test first choice, ?_, fun J env => rfl⟩
    refine htest.gives.bind ((gives_blockText hbody.lines).bind ?_)
    simp only [hempty, hchain, Bool.false_eq_true, if_false, if_true]
    exact hfirst.bind (gives_pure _)
  · refine ⟨.between test first second, ?_, fun J env => rfl⟩
    refine htest.gives.bind ((gives_blockText hbody.lines).bind ?_)
    simp only [hempty, hchain, Bool.false_eq_true, if_false]
    exact (gives_blockText horelse.lines).bind (gives_pure _)

/-- A statement that is no guard is lowered by itself, and its text stands before the others. -/
theorem gives_lowerLines_cons (hctx : Bare ctx) (hbase : base.aliases = []) (statement : Stmt)
    (rest : List Stmt) {text : String} {texts : List String}
    (hguard : (isGuard ctx statement && !rest.isEmpty) = false)
    (htext : Gives base (Lowering.lowerText ctx none statement) text)
    (hrest : Gives base (lowerLines ctx rest) texts) :
    Gives base (lowerLines ctx (statement :: rest))
      (if text.isEmpty then texts else text :: texts) := by
  rw [lowerLines, hguard]
  exact (gives_around hctx hbase htext).bind (hrest.bind (gives_pure _))

/-- A simple statement with a text before a block. -/
theorem Simulates.cons (hctx : Bare ctx) (hbase : base.aliases = []) {line : Nat}
    {statement : Simple} {rest : List Stmt} {text : String} {block extended : Block}
    (hrest : Simulates ctx base rest block)
    (htext : Gives base (simpleText ctx line none statement) text) (hne : text ≠ "")
    (hlines : extended.lines ctx (spellingOf ctx base) =
      text :: block.lines ctx (spellingOf ctx base))
    (hresult : ∀ {V : Type} (J : Interpretation V) (env : Environment V),
      runAll J env (.simple line statement :: rest) = some (.ofResult (extended.eval J env))) :
    Simulates ctx base (.simple line statement :: rest) extended := by
  refine ⟨?_, ?_, hresult⟩
  · have hgives := gives_lowerLines_cons hctx hbase (.simple line statement) rest rfl htext
      hrest.lines
    rw [if_neg (by simpa using hne)] at hgives
    rw [hlines]
    exact hgives
  · intro hchain
    cases rest <;> cases hchain

/-- A last statement that is no guard and has a text. -/
theorem gives_lowerLines_last (hctx : Bare ctx) (hbase : base.aliases = []) (statement : Stmt)
    {text : String} (htext : Gives base (Lowering.lowerText ctx none statement) text)
    (hne : text ≠ "") :
    Gives base (lowerLines ctx [statement]) [text] := by
  have hgives := gives_lowerLines_cons hctx hbase statement [] (by simp) htext (gives_pure [])
  rw [if_neg (by simpa using hne)] at hgives
  exact hgives

/-- A return is the value of its block. -/
theorem simulates_returns (hctx : Bare ctx) (hbase : base.aliases = []) {line : Nat} {value : Expr}
    (h : Translates ctx base value) :
    Simulates ctx base [.simple line (.returns (some value))] (.finish value) := by
  refine ⟨gives_lowerLines_last hctx hbase _ h.gives h.textOf_ne, ?_, ?_⟩
  · intro hchain
    cases hchain
  · intro V J env
    simp only [runAll, run, runSimple, Block.eval]
    cases J.value value env <;> rfl

/-- Raising an error is a block that fails. -/
theorem simulates_raises (hctx : Bare ctx) (hbase : base.aliases = []) {line : Nat}
    (exception cause : Option Expr) :
    ∃ block, Simulates ctx base [.simple line (.raises exception cause)] block := by
  obtain ⟨message, hmessage⟩ : ∃ message, Gives base
      (simpleText ctx line none (.raises exception cause))
      (failureLine (spellingOf ctx base) message) := gives_raises exception cause
  have hne : failureLine (spellingOf ctx base) message ≠ "" := by
    unfold failureLine
    split <;> simp
  refine ⟨.fail message, gives_lowerLines_last hctx hbase _ hmessage hne, ?_, ?_⟩
  · intro hchain
    cases hchain
  · intro V J env
    rfl

theorem bindingLine_ne (spelling : Spelling) (name : String) (hint : Option Expr) (value : Expr) :
    bindingLine spelling name hint value ≠ "" := by
  unfold bindingLine
  split <;> simp

/-- A statement that binds a name before a block. -/
theorem Simulates.bind (hctx : Bare ctx) (hbase : base.aliases = []) {line : Nat}
    {statement : Simple} {rest : List Stmt} {block : Block} {name : String} {hint : Option Expr}
    {value : Expr} (hrest : Simulates ctx base rest block)
    (htext : Gives base (simpleText ctx line none statement)
      (bindingLine (spellingOf ctx base) name hint value))
    (hrun : ∀ {V : Type} (J : Interpretation V) (env : Environment V),
      runSimple J env statement = some (runBinding J name value env)) :
    Simulates ctx base (.simple line statement :: rest) (.bind name hint value block) := by
  refine hrest.cons hctx hbase htext (bindingLine_ne _ _ _ _) rfl ?_
  intro V J env
  simp only [runAll, run, hrun, runBinding, Block.eval]
  cases J.value value env with
  | none => rfl
  | some result => exact hrest.result J _

/-- An assertion goes before the block of what follows it. -/
theorem simulates_asserts (hctx : Bare ctx) (hbase : base.aliases = []) {line : Nat} {test : Expr}
    {message : Option Expr} {rest : List Stmt} {block : Block} (h : Translates ctx base test)
    (hrest : Simulates ctx base rest block) :
    Simulates ctx base (.simple line (.asserts test message) :: rest) (.check test block) := by
  refine hrest.cons hctx hbase (gives_asserts h) (by simp) rfl ?_
  intro V J env
  simp only [runAll, run, runSimple, Block.eval]
  by_cases htest : J.test test env = some true
  · simp only [if_pos htest]
    exact hrest.result J env
  · simp only [if_neg htest]
    rfl

/-- A statement that does nothing writes nothing. -/
theorem simulates_passes (hctx : Bare ctx) (hbase : base.aliases = []) {line : Nat}
    {rest : List Stmt} {block : Block} (hrest : Simulates ctx base rest block) :
    Simulates ctx base (.simple line .passes :: rest) block := by
  refine ⟨?_, ?_, ?_⟩
  · exact gives_lowerLines_cons hctx hbase (.simple line .passes) rest rfl (gives_pure "")
      hrest.lines
  · intro hchain
    cases rest <;> cases hchain
  · intro V J env
    exact hrest.result J env

/-- A last branch with two sides that are blocks. -/
theorem simulates_branch (hctx : Bare ctx) (hbase : base.aliases = []) {line : Nat} {test : Expr}
    {body orelse : List Stmt} {first second : Block} (htest : Translates ctx base test)
    (hbody : Simulates ctx base body first) (horelse : Simulates ctx base orelse second)
    (hne : orelse ≠ []) : ∃ block, Simulates ctx base [.branch line test body orelse] block := by
  obtain ⟨choice, htext, heval⟩ := hbody.choose line htest horelse hne
  have hlower : Gives base (Lowering.lowerText ctx none (.branch line test body orelse))
      (choice.text ctx (spellingOf ctx base)) := by
    rw [Lowering.lowerText, hctx.whenSubject?_eq]
    exact htext
  refine ⟨.choose choice, ?_, ?_, ?_⟩
  · exact gives_lowerLines_last hctx hbase _ hlower (choice.text_ne ctx _)
  · intro _
    exact ⟨choice, rfl, htext⟩
  · intro V J env
    simp only [runAll, run, Block.eval, heval]
    cases J.test test env with
    | none => rfl
    | some outcome =>
        cases outcome with
        | true =>
            rw [hbody.result J env]
            cases Block.eval J env first <;> rfl
        | false =>
            rw [horelse.result J env]
            cases Block.eval J env second <;> rfl

/-- A guard takes the statements after it as its alternative. -/
theorem simulates_guard (hctx : Bare ctx) (hbase : base.aliases = []) {line : Nat} {test : Expr}
    {body rest : List Stmt} {first second : Block} (htest : Translates ctx base test)
    (hleaves : body.getLast?.map leaves = some true) (hbody : Simulates ctx base body first)
    (hrest : Simulates ctx base rest second) (hne : rest ≠ []) :
    ∃ block, Simulates ctx base (.branch line test body [] :: rest) block := by
  obtain ⟨choice, htext, heval⟩ := hbody.choose line htest hrest hne
  have hguard : (isGuard ctx (.branch line test body []) && !rest.isEmpty) = true := by
    simp [isGuard, hleaves, hctx.whenSubject?_eq, hne]
  refine ⟨.choose choice, ?_, ?_, ?_⟩
  · rw [lowerLines, hguard, hctx.expectLines_eq]
    exact (gives_dropAliases hbase _).bind ((gives_pure []).bind (htext.bind (gives_pure _)))
  · intro hchain
    cases rest with
    | nil => exact absurd rfl hne
    | cons _ _ => cases hchain
  · intro V J env
    simp only [runAll, run, Block.eval, heval]
    cases J.test test env with
    | none => rfl
    | some outcome =>
        cases outcome with
        | true =>
            rw [hbody.result J env]
            cases Block.eval J env first <;> rfl
        | false => exact hrest.result J env

/-- Structured statements are lowered to the layout of a block. -/
theorem Structured.simulates (hctx : Bare ctx) (hbase : base.aliases = []) {statements : List Stmt}
    (h : Structured (Translates ctx base) (Resolves ctx base) statements) :
    ∃ block, Simulates ctx base statements block := by
  induction h with
  | returns hvalue => exact ⟨_, simulates_returns hctx hbase hvalue⟩
  | raises => exact simulates_raises hctx hbase _ _
  | branch htest _ horelse ihbody ihorelse =>
      obtain ⟨first, hfirst⟩ := ihbody
      obtain ⟨second, hsecond⟩ := ihorelse
      exact simulates_branch hctx hbase htest hfirst hsecond horelse.ne_nil
  | assigns hvalue _ ih =>
      obtain ⟨block, hrest⟩ := ih
      exact ⟨_, hrest.bind hctx hbase (gives_assigns hctx hbase hvalue) fun _ _ => rfl⟩
  | annotates hhint hvalue _ ih =>
      obtain ⟨block, hrest⟩ := ih
      exact ⟨_, hrest.bind hctx hbase (gives_annotates hctx hbase hhint hvalue) fun _ _ => rfl⟩
  | augments hop hvalue _ ih =>
      obtain ⟨block, hrest⟩ := ih
      exact ⟨_, hrest.bind hctx hbase (gives_augments hbase hop hvalue) fun _ _ => rfl⟩
  | asserts htest _ ih =>
      obtain ⟨block, hrest⟩ := ih
      exact ⟨_, simulates_asserts hctx hbase htest hrest⟩
  | passes _ ih =>
      obtain ⟨block, hrest⟩ := ih
      exact ⟨block, simulates_passes hctx hbase hrest⟩
  | guard htest _ hleaves hstructured ihbody ihrest =>
      obtain ⟨first, hfirst⟩ := ihbody
      obtain ⟨second, hsecond⟩ := ihrest
      exact simulates_guard hctx hbase htest hleaves hfirst hsecond hstructured.ne_nil

end Bare

/-- The text of structured statements is the layout of a block, and under every interpretation of
the expressions and from every environment the block has the value or the failure that the
statements return or raise. -/
theorem lowerLines_renders_block (ctx : Context) (hctx : Bare ctx) (state : LoweringState)
    (haliases : state.aliases = []) (statements : List Stmt)
    (h : Structured (Translates ctx state) (Resolves ctx state) statements) :
    ∃ block : Block,
      (∃ after, Yields (joinLines <$> lowerLines ctx statements) state
        (block.text ctx (spellingOf ctx state)) after) ∧
      ∀ (V : Type) (J : Interpretation V) (env : Environment V),
        runAll J env statements = some (.ofResult (block.eval J env)) := by
  obtain ⟨block, hblock⟩ := h.simulates hctx haliases
  obtain ⟨after, hrun, -⟩ := hblock.lines.map joinLines state (.refl state)
  exact ⟨block, ⟨after, hrun⟩, fun V J env => hblock.result J env⟩

/-- Two guards, one inside the other's rest, a binding and a check before a branch with two
sides. -/
theorem lowerLines_renders_block_guards :
    ∃ block : Block,
      (∃ after, Yields (joinLines <$> lowerLines {}
          [.simple 1 (.assigns [.name "x"] (.name "a")),
           .branch 2 (.name "b") [.simple 3 (.returns (some (.name "x")))] [],
           .simple 4 (.asserts (.name "c") none),
           .branch 5 (.name "d") [.simple 6 (.raises none none)] [],
           .branch 7 (.name "x") [.simple 8 (.returns (some (.name "a")))]
             [.simple 9 .passes, .simple 10 (.returns (some (.name "b")))]]) {}
        (block.text {} (spellingOf {} {})) after) ∧
      ∀ (V : Type) (J : Interpretation V) (env : Environment V),
        runAll J env
          [.simple 1 (.assigns [.name "x"] (.name "a")),
           .branch 2 (.name "b") [.simple 3 (.returns (some (.name "x")))] [],
           .simple 4 (.asserts (.name "c") none),
           .branch 5 (.name "d") [.simple 6 (.raises none none)] [],
           .branch 7 (.name "x") [.simple 8 (.returns (some (.name "a")))]
             [.simple 9 .passes, .simple 10 (.returns (some (.name "b")))]] =
          some (.ofResult (block.eval J env)) := by
  have hfit (name : String) (hname : name ≠ "") : Translates {} {} (.name name) :=
    ⟨name, {}, rfl, hname⟩
  refine lowerLines_renders_block {} ⟨rfl, rfl⟩ {} rfl _ ?_
  refine .assigns (hfit "a" (by decide)) (.guard (hfit "b" (by decide)) ?_ rfl ?_)
  · exact .returns (hfit "x" (by decide))
  refine .asserts (hfit "c" (by decide)) (.guard (hfit "d" (by decide)) .raises rfl ?_)
  refine .branch (hfit "x" (by decide)) (.returns (hfit "a" (by decide))) (.passes ?_)
  exact .returns (hfit "b" (by decide))

end AikenForge.Meaning
