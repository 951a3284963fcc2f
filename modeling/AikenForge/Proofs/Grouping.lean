/-
# Grouping survives lowering

The text of an expression, read back with the grammar of the precedence table, has exactly one tree,
and that tree is the direct desugaring of the expression. Brackets are set by comparing precedences
that are computed from the expression, not from its text; what makes this sound is that the text of
an expression derives from the place that its precedence names.

Operands of one connective need no brackets inside each other, so their chains run together. The
desugaring flattens them in the same way.
-/

import AikenForge.Proofs.Readback.Spelling
import AikenForge.Proofs.Run

namespace AikenForge.Readback

open AikenForge.Source AikenForge.Number AikenForge.Text AikenForge.Lowering

/-! ## Supported expressions -/

/-- A name that stands for itself. -/
structure Plain (ctx : Context) (aliases : Table String) (id : String) : Prop where
  word : IsWord id
  notKeyword : id ∉ keywords
  notSelf : id ≠ "self"
  notAlias : aliases.find? id = none
  notConstant : ctx.scope.constants.contains id = false
  notEnum : ctx.scope.enums.find? id = none

/-- A parameter with a name only. -/
def bareParameter (name : String) : Parameter :=
  .mk name none none

/-- Expressions whose grouping is kept. Integers keep to the limit on digits, and texts to the code
points that there are. -/
inductive Supported (ctx : Context) (aliases : Table String) : Expr → Prop
  | name {id : String} : Plain ctx aliases id → Supported ctx aliases (.name id)
  | noneValue : Supported ctx aliases (.constant .none)
  | bool (value : Bool) : Supported ctx aliases (.constant (.bool value))
  | int {n : Nat} : n < digitBound → Supported ctx aliases (.constant (.int n))
  | text {points : CodePoints} (isMarked : Bool) :
      (∀ n ∈ points, n < 0x110000) → Supported ctx aliases (.constant (.text points isMarked))
  | bytes (content : List UInt8) : Supported ctx aliases (.constant (.bytes content))
  | field {value : Expr} {label : String} :
      Supported ctx aliases value → IsWord label → Supported ctx aliases (.attribute value label)
  | subscript {value index : Expr} :
      Supported ctx aliases value → Supported ctx aliases index →
      Supported ctx aliases (.subscript value index)
  | list {items : List Expr} :
      (∀ e ∈ items, Supported ctx aliases e) → Supported ctx aliases (.list items)
  | tuple {items : List Expr} :
      2 ≤ items.length → (∀ e ∈ items, Supported ctx aliases e) →
      Supported ctx aliases (.tuple items)
  | unary {op : UnaryOp} {operand : Expr} :
      op ≠ .invert → Supported ctx aliases operand → Supported ctx aliases (.unary op operand)
  | binary {op : BinaryOp} {left right : Expr} :
      op ∈ [.add, .sub, .mult, .div, .floorDiv, .mod] →
      Supported ctx aliases left → Supported ctx aliases right →
      Supported ctx aliases (.binary op left right)
  | boolean {op : BoolOp} {values : List Expr} :
      2 ≤ values.length → (∀ e ∈ values, Supported ctx aliases e) →
      Supported ctx aliases (.boolean op values)
  | compare {left : Expr} {links : List Link} :
      links ≠ [] → Supported ctx aliases left →
      (∀ op right, .mk op right ∈ links → Supported ctx aliases right) →
      Supported ctx aliases (.compare left links)
  | conditional {test body orelse : Expr} :
      Supported ctx aliases test → Supported ctx aliases body → Supported ctx aliases orelse →
      Supported ctx aliases (.conditional test body orelse)
  | call {callee : Expr} {args : List Expr} :
      callee.name? ≠ some "pipe" → callee.name? ≠ some "expect" →
      Supported ctx aliases callee → (∀ e ∈ args, Supported ctx aliases e) →
      Supported ctx aliases (.call callee args [])
  | lambda {names : List String} {body : Expr} :
      (∀ name ∈ names, IsWord name ∧ name ∉ keywords) → Supported ctx aliases body →
      Supported ctx aliases (.lambda (.mk [] (names.map bareParameter) none [] none) body)

/-! ## Desugaring -/

/-- The value of a literal. -/
def literalOf : Constant → Literal
  | .bool value => .bool value
  | .int n => .integer n
  | .text points _ => .text points
  | .bytes content => .bytes content
  | _ => .none

/-- The arithmetic of an operator; both divisions are one. -/
def arithmeticOf : BinaryOp → Arithmetic
  | .add => .add
  | .sub => .sub
  | .mult => .mult
  | .mod => .mod
  | _ => .div

/-- The tree of one comparison; membership is a call. -/
def comparisonTree (op : CompareOp) (left right : Tree) : Tree :=
  match op with
  | .eq | .is => .compare .eq left right
  | .notEq | .isNot => .compare .notEq left right
  | .lt => .compare .lt left right
  | .ltE => .compare .ltE left right
  | .gt => .compare .gt left right
  | .gtE => .compare .gtE left right
  | .isIn => .apply (.field (.name "list") "has") [right, left]
  | .notIn => .not (.apply (.field (.name "list") "has") [right, left])

/-- The tree of the comparisons of a chain, of which all must hold. -/
def joinComparisons : List Tree → Tree
  | [comparison] => comparison
  | comparisons => .chain .and comparisons

/-- The operands that a tree adds to a chain of a connective: its own if it is such a chain. -/
def spread (op : BoolOp) : Tree → List Tree
  | .chain own operands => if own = op then operands else [.chain own operands]
  | tree => [tree]

mutual

/-- The tree of an expression by its own structure. Forms that are not supported have no tree of
their own and get the one of the literal `None`. -/
def desugar : Expr → Tree
  | .name id => .name id
  | .constant value => .literal (literalOf value)
  | .attribute value label => .field (desugar value) label
  | .subscript value index => .index (desugar value) (desugar index)
  | .list items => .list (desugarAll items)
  | .tuple items => .tuple (desugarAll items)
  | .unary .plus operand => desugar operand
  | .unary .minus operand => .negative (desugar operand)
  | .unary .not operand => .not (desugar operand)
  | .binary op left right => .arithmetic (arithmeticOf op) (desugar left) (desugar right)
  | .boolean op values => .chain op ((desugarAll values).flatMap (spread op))
  | .compare left links => joinComparisons (desugarLinks (desugar left) links)
  | .conditional test body orelse => .conditional (desugar test) (desugar body) (desugar orelse)
  | .call callee args _ => .apply (desugar callee) (desugarAll args)
  | .lambda parameters body => .function (parameters.regular.map Parameter.name) (desugar body)
  | _ => .literal .none

/-- The trees of expressions. -/
def desugarAll : List Expr → List Tree
  | [] => []
  | e :: rest => desugar e :: desugarAll rest

/-- The trees of the comparisons between an operand and the next. -/
def desugarLinks (left : Tree) : List Link → List Tree
  | [] => []
  | .mk op right :: rest =>
      comparisonTree op left (desugar right) :: desugarLinks (desugar right) rest

end

/-! ## What supported expressions are not -/

/-- A supported name is written as itself. -/
theorem Supported.name?_plain {ctx : Context} {aliases : Table String} {e : Expr}
    (h : Supported ctx aliases e) {id : String} (hid : e.name? = some id) :
    Plain ctx aliases id := by
  cases h with
  | name hplain =>
      cases hid
      exact hplain
  | _ => cases hid

/-- No attribute of a supported expression is a member of an enumeration. -/
theorem Supported.enumMember?_eq_none {ctx : Context} {aliases : Table String} {e : Expr}
    (h : Supported ctx aliases e) (label : String) : enumMember? ctx e label = none := by
  unfold enumMember?
  cases hid : e.name? with
  | none => rfl
  | some id => simp [(h.name?_plain hid).notEnum]

/-- A supported expression is not a plain `self`. -/
theorem Supported.name?_ne_self {ctx : Context} {aliases : Table String} {e : Expr}
    (h : Supported ctx aliases e) : (e.name? == some "self") = false := by
  rw [beq_eq_false_iff_ne]
  intro hself
  exact (h.name?_plain hself).notSelf rfl

/-- A callee that is neither a pipe nor an expectation makes a plain call. -/
theorem specialCall?_eq_none {ctx : Context} {callee : Expr} (args : List Expr)
    (hpipe : callee.name? ≠ some "pipe") (hexpect : callee.name? ≠ some "expect") :
    specialCall? ctx callee args = none := by
  unfold specialCall?
  cases hid : callee.name? with
  | none => rfl
  | some id =>
      rw [hid] at hpipe hexpect
      have hpipe' : (id == "pipe") = false := by simpa using hpipe
      have hexpect' : (id == "expect") = false := by simpa using hexpect
      simp [hpipe', hexpect']

/-- A supported expression of another place is a chain of no other connective. -/
theorem Supported.spread_desugar {ctx : Context} {aliases : Table String} {e : Expr}
    (h : Supported ctx aliases e) {op : BoolOp} (hplace : e.precedence ≠ connectivePlace op) :
    spread op (desugar e) = [desugar e] := by
  induction h with
  | @unary own operand _ _ ih =>
      cases own with
      | plus => exact ih hplace
      | _ => rfl
  | @boolean own values _ _ _ =>
      have hown : own ≠ op := by
        rintro rfl
        exact hplace (by cases own <;> rfl)
      simp [desugar, spread, hown]
  | @compare left links hlinks _ _ _ _ =>
      match links with
      | [] => exact absurd rfl hlinks
      | [.mk own right] => cases own <;> rfl
      | .mk _ _ :: .mk _ _ :: _ =>
          have hop : BoolOp.and ≠ op := by
            rintro rfl
            exact hplace rfl
          simp [desugar, desugarLinks, joinComparisons, spread, hop]
  | _ => rfl

/-! ## Rendering -/

/-- A state without a registry in which a name is an alias only if it is one in `aliases`. -/
structure Neutral (aliases : Table String) (state : LoweringState) : Prop where
  registry : state.registry = none
  aliases {id : String} : aliases.find? id = none → state.aliases.find? id = none

/-- An expression is lowered to a text that spells tokens, which derive from the place of its
precedence. In the place of a connective they are the operands of a chain. -/
structure Renders (ctx : Context) (aliases : Table String) (e : Expr) (text : String)
    (tokens : List Token) : Prop where
  yields {state : LoweringState} : Neutral aliases state → Yields (lower ctx e) state text state
  spells : Spells text tokens
  derives : Derives (.expression e.precedence) tokens [desugar e]
  operands {op : BoolOp} : e.precedence = connectivePlace op →
    Derives (.separated (.connective op) (tighter (connectivePlace op))) tokens
      (spread op (desugar e))

/-- The expression is lowered to a text as it should be. -/
def Rendered (ctx : Context) (aliases : Table String) (e : Expr) : Prop :=
  ∃ text tokens, Renders ctx aliases e text tokens

variable {ctx : Context} {aliases : Table String}

/-- Outside the places of connectives there are no operands to see to. -/
theorem Rendered.of_derives {e : Expr} {text : String} {tokens : List Token} (place : Precedence)
    (hown : e.precedence = place) (hplace : place ≠ .or ∧ place ≠ .and)
    (yields : ∀ {state}, Neutral aliases state → Yields (lower ctx e) state text state)
    (spells : Spells text tokens) (derives : Derives (.expression place) tokens [desugar e]) :
    Rendered ctx aliases e := by
  refine ⟨text, tokens, yields, spells, hown ▸ derives, ?_⟩
  intro op hop
  rw [hown] at hop
  cases op with
  | and => exact absurd hop hplace.2
  | or => exact absurd hop hplace.1

/-- The place that an operand without brackets is fit for. -/
def operandPlace (place : Precedence) (strict : Bool) : Precedence :=
  if strict then tighter place else place

/-- An operand without brackets binds at least as tightly as its place asks. -/
theorem rank_le_of_not_bracketed {own place : Precedence} {strict : Bool}
    (h : ¬ isBracketed own place strict = true) :
    (operandPlace place strict).rank ≤ own.rank := by
  cases strict <;> cases own <;> cases place <;> revert h <;> decide

/-- An operand derives from its place, in brackets or without. -/
theorem Renders.operand {e : Expr} {text : String} {tokens : List Token}
    (h : Renders ctx aliases e text tokens) (place : Precedence) (strict : Bool) :
    ∃ tokens', Spells (bracketOperand e.precedence place strict text) tokens' ∧
      Derives (.expression (operandPlace place strict)) tokens' [desugar e] := by
  unfold bracketOperand
  split_ifs with hbracket
  · have hloose : Derives (.expression .loose) tokens [desugar e] :=
      h.derives.loosen (Nat.zero_le _)
    have hrank (p : Precedence) : p.rank ≤ Precedence.atom.rank := by cases p <;> decide
    exact ⟨bracketed .round tokens, spells_round h.spells, (Derives.group hloose).loosen (hrank _)⟩
  · exact ⟨tokens, h.spells, h.derives.loosen (rank_le_of_not_bracketed hbracket)⟩

/-- An operand of a connective gives the operands that its tree adds to the chain. -/
theorem Renders.chained {e : Expr} {text : String} {tokens : List Token}
    (h : Renders ctx aliases e text tokens) (hsupported : Supported ctx aliases e) (op : BoolOp) :
    ∃ tokens', Spells (bracketOperand e.precedence (connectivePlace op) false text) tokens' ∧
      Derives (.separated (.connective op) (tighter (connectivePlace op))) tokens'
        (spread op (desugar e)) := by
  by_cases hplace : e.precedence = connectivePlace op
  · have htext : bracketOperand e.precedence (connectivePlace op) false text = text := by
      simp [bracketOperand, isBracketed, hplace]
    rw [htext]
    exact ⟨tokens, h.spells, h.operands hplace⟩
  · have htext : bracketOperand e.precedence (connectivePlace op) false text =
        bracketOperand e.precedence (connectivePlace op) true text := by
      simp [bracketOperand, isBracketed, hplace]
    obtain ⟨tokens', hspells, hderives⟩ := h.operand (connectivePlace op) true
    rw [hsupported.spread_desugar hplace, htext]
    exact ⟨tokens', hspells, .one hderives⟩

/-! ## Rows of texts -/

/-- Texts between dividers spell tokens that derive as trees between separators. -/
def Strung (divider : String) (symbol : Symbol) (place : Precedence) (texts : List String)
    (trees : List Tree) : Prop :=
  ∃ tokens, Spells (divider.intercalate texts) tokens ∧
    Derives (.separated symbol place) tokens trees

/-- One text is strung on its own. -/
theorem strung_singleton {divider text : String} {symbol : Symbol} {place : Precedence}
    {tokens : List Token} {trees : List Tree} (hspells : Spells text tokens)
    (hderives : Derives (.separated symbol place) tokens trees) :
    Strung divider symbol place [text] trees := by
  refine ⟨tokens, ?_, hderives⟩
  rw [String.intercalate_singleton]
  exact hspells

/-- A text before others, with a divider between. -/
theorem strung_cons {divider text next : String} {symbol : Symbol} {place : Precedence}
    {tokens : List Token} {texts : List String} {trees trees' : List Tree}
    (hdivides : Divides divider symbol) (hspells : Spells text tokens)
    (hderives : Derives (.separated symbol place) tokens trees)
    (hrest : Strung divider symbol place (next :: texts) trees') :
    Strung divider symbol place (text :: next :: texts) (trees ++ trees') := by
  obtain ⟨others, hothers, hderives'⟩ := hrest
  refine ⟨tokens ++ .symbol symbol :: others, ?_, hderives.separated_append hderives'⟩
  rw [String.intercalate_cons_cons]
  exact spells_between hdivides hspells hothers

/-- Items are lowered to a row of texts between commas. -/
theorem strung_lowerAll {first : Expr} {items : List Expr}
    (h : ∀ e ∈ first :: items, Rendered ctx aliases e) :
    ∃ text texts,
      (∀ {state}, Neutral aliases state →
        Yields (lowerAll ctx (first :: items)) state (text :: texts) state) ∧
      Strung ", " .comma .loose (text :: texts) (desugarAll (first :: items)) := by
  obtain ⟨text, tokens, hfirst⟩ := h first List.mem_cons_self
  have hone : Derives (.separated .comma .loose) tokens [desugar first] :=
    .one (hfirst.derives.loosen (Nat.zero_le _))
  induction items generalizing first text tokens with
  | nil =>
      refine ⟨text, [], ?_, strung_singleton hfirst.spells hone⟩
      intro state hstate
      apply (hfirst.yields hstate).bind
      apply Yields.pure.bind
      exact .pure
  | cons second items ih =>
      obtain ⟨text', tokens', hsecond⟩ := h second (by simp)
      obtain ⟨next, texts, hyields, hstrung⟩ :=
        ih (fun e he => h e (List.mem_cons_of_mem _ he)) text' tokens' hsecond
          (.one (hsecond.derives.loosen (Nat.zero_le _)))
      refine ⟨text, next :: texts, ?_, strung_cons divides_comma hfirst.spells hone hstrung⟩
      intro state hstate
      apply (hfirst.yields hstate).bind
      apply (hyields hstate).bind
      exact .pure

/-- Arguments, of which there may be none. -/
theorem arguments_lowerAll {items : List Expr} (h : ∀ e ∈ items, Rendered ctx aliases e) :
    ∃ texts tokens,
      (∀ {state}, Neutral aliases state → Yields (lowerAll ctx items) state texts state) ∧
      Spells (", ".intercalate texts) tokens ∧ Derives .arguments tokens (desugarAll items) := by
  cases items with
  | nil => exact ⟨[], [], fun _ => .pure, spells_empty, .noArguments⟩
  | cons first items =>
      obtain ⟨text, texts, hyields, tokens, hspells, hderives⟩ := strung_lowerAll h
      exact ⟨text :: texts, tokens, hyields, hspells, .someArguments hderives⟩

/-- The text of a connective is its token with blanks. -/
theorem divides_connective (op : BoolOp) : Divides (connective op).1 (.connective op) := by
  cases op with
  | and =>
      change Divides (" " ++ "&&" ++ " ") _
      exact divides_of_readToken fun _ => rfl
  | or =>
      change Divides (" " ++ "||" ++ " ") _
      exact divides_of_readToken fun _ => rfl

/-- The operands of a connective are lowered to a row of texts between its symbols. -/
theorem strung_lowerOperands {op : BoolOp} {first : Expr} {values : List Expr}
    (hsupported : ∀ e ∈ first :: values, Supported ctx aliases e)
    (h : ∀ e ∈ first :: values, Rendered ctx aliases e) :
    ∃ text texts,
      (∀ {state}, Neutral aliases state →
        Yields (lowerOperands ctx (connectivePlace op) (first :: values)) state
          (text :: texts) state) ∧
      Strung (connective op).1 (.connective op) (tighter (connectivePlace op)) (text :: texts)
        ((desugarAll (first :: values)).flatMap (spread op)) := by
  obtain ⟨inner, tokens, hfirst⟩ := h first List.mem_cons_self
  obtain ⟨outer, hspells, hderives⟩ := hfirst.chained (hsupported first List.mem_cons_self) op
  induction values generalizing first inner tokens outer with
  | nil =>
      refine ⟨_, [], ?_, by simpa [desugarAll] using strung_singleton hspells hderives⟩
      intro state hstate
      apply (hfirst.yields hstate).bind
      apply Yields.pure.bind
      exact .pure
  | cons second values ih =>
      obtain ⟨inner', tokens', hsecond⟩ := h second (by simp)
      obtain ⟨outer', hspells', hderives'⟩ := hsecond.chained (hsupported second (by simp)) op
      obtain ⟨next, texts, hyields, hstrung⟩ :=
        ih (fun e he => hsupported e (List.mem_cons_of_mem _ he))
          (fun e he => h e (List.mem_cons_of_mem _ he)) inner' tokens' hsecond outer'
            hspells' hderives'
      refine ⟨_, next :: texts, ?_, strung_cons (divides_connective op) hspells hderives hstrung⟩
      intro state hstate
      apply (hfirst.yields hstate).bind
      apply (hyields hstate).bind
      exact .pure

/-- The place that the text of one comparison derives from. -/
def comparisonPlace : CompareOp → Precedence
  | .isIn => .atom
  | .notIn => .unary
  | _ => .compare

/-- Membership is a call of a function of lists. -/
theorem spells_membership {container item : String} {cs is : List Token}
    (hcontainer : Spells container cs) (hitem : Spells item is) :
    Spells ("list.has(" ++ container ++ ", " ++ item ++ ")")
      ([.word "list", .symbol .dot, .word "has"] ++ bracketed .round (cs ++ .symbol .comma ::
        is)) := by
  have hhead : "list.has(" = "list" ++ "." ++ "has" ++ "(" := rfl
  have hlist : Spells "list" [.word "list"] := spells_word (by decide)
  have hfield : Spells ("list" ++ "." ++ "has") _ := spells_field hlist (by decide)
  have happly := spells_apply hfield (spells_between divides_comma hcontainer hitem)
  simpa only [hhead, String.append_assoc, List.cons_append, List.nil_append] using happly

/-- A test of membership is derived as a call. -/
theorem derives_membership {cs is : List Token} {container item : Tree}
    (hcontainer : Derives (.expression .loose) cs [container])
    (hitem : Derives (.expression .loose) is [item]) :
    Derives (.expression .atom)
      ([.word "list", .symbol .dot, .word "has"] ++ bracketed .round (cs ++ .symbol .comma :: is))
      [.apply (.field (.name "list") "has") [container, item]] := by
  have hlist : Derives (.expression .atom) [.word "list"] [.name "list"] := .name (by decide)
  have hfield : Derives (.expression .atom) ([.word "list"] ++ [.symbol .dot, .word "has"])
      [.field (.name "list") "has"] := .field hlist
  exact .apply hfield (.someArguments (.more hcontainer (.one hitem)))

/-- One comparison is lowered to a text that derives as its tree. -/
def RenderedComparison (ctx : Context) (aliases : Table String) (op : CompareOp)
    (left right : Expr) : Prop :=
  ∃ text tokens,
    (∀ {state}, Neutral aliases state →
      Yields (comparisonText op left.precedence (lower ctx left) right.precedence
        (lower ctx right)) state text state) ∧
    Spells text tokens ∧
    Derives (.expression (comparisonPlace op)) tokens
      [comparisonTree op (desugar left) (desugar right)]

/-- A comparison with a symbol is lowered to the symbol between its operands. -/
theorem rendered_of_target {op : CompareOp} {symbol : String} (own : Comparison)
    (htarget : op.target? = some symbol)
    (hread : ∀ cs, readToken (symbol.toList ++ ' ' :: cs) =
      some (.symbol (.comparison own), ' ' :: cs))
    (hplace : comparisonPlace op = .compare)
    (htree : ∀ l r, comparisonTree op l r = .compare own l r)
    {left right : Expr} (hleft : Rendered ctx aliases left) (hright : Rendered ctx aliases right) :
    RenderedComparison ctx aliases op left right := by
  obtain ⟨lt, ls, hl⟩ := hleft
  obtain ⟨rt, rs, hr⟩ := hright
  obtain ⟨ls', hspellsl, hderivesl⟩ := hl.operand .compare true
  obtain ⟨rs', hspellsr, hderivesr⟩ := hr.operand .compare true
  have hspells := spells_between (divides_of_readToken hread) hspellsl hspellsr
  have hderives : Derives (.expression .compare) (ls' ++ .symbol (.comparison own) :: rs')
      [.compare own (desugar left) (desugar right)] := .compare hderivesl hderivesr
  rw [← htree, ← hplace] at hderives
  refine ⟨_, _, ?_, hspells, hderives⟩
  intro state hstate
  simp only [comparisonText, htarget, yields_bind]
  refine ⟨lt, state, hl.yields hstate, rt, state, hr.yields hstate, ?_⟩
  simp [String.append_assoc]

/-- Comparisons of all operators are lowered to texts that derive as their trees. -/
theorem rendered_comparison (op : CompareOp) {left right : Expr}
    (hleft : Rendered ctx aliases left) (hright : Rendered ctx aliases right) :
    RenderedComparison ctx aliases op left right := by
  cases op with
  | eq | is => exact rendered_of_target .eq rfl (fun _ => rfl) rfl (fun _ _ => rfl) hleft hright
  | notEq | isNot =>
      exact rendered_of_target .notEq rfl (fun _ => rfl) rfl (fun _ _ => rfl) hleft hright
  | lt => exact rendered_of_target .lt rfl (fun _ => rfl) rfl (fun _ _ => rfl) hleft hright
  | ltE => exact rendered_of_target .ltE rfl (fun _ => rfl) rfl (fun _ _ => rfl) hleft hright
  | gt => exact rendered_of_target .gt rfl (fun _ => rfl) rfl (fun _ _ => rfl) hleft hright
  | gtE => exact rendered_of_target .gtE rfl (fun _ => rfl) rfl (fun _ _ => rfl) hleft hright
  | isIn =>
      obtain ⟨lt, ls, hl⟩ := hleft
      obtain ⟨rt, rs, hr⟩ := hright
      refine ⟨_, _, ?_, spells_membership hr.spells hl.spells,
        derives_membership (hr.derives.loosen (Nat.zero_le _)) (hl.derives.loosen (Nat.zero_le _))⟩
      intro state hstate
      simp only [comparisonText, CompareOp.target?, yields_bind]
      exact ⟨rt, state, hr.yields hstate, lt, state, hl.yields hstate, by simp⟩
  | notIn =>
      obtain ⟨lt, ls, hl⟩ := hleft
      obtain ⟨rt, rs, hr⟩ := hright
      have hderives := derives_membership (hr.derives.loosen (Nat.zero_le _))
        (hl.derives.loosen (Nat.zero_le _))
      refine ⟨_, _, ?_, spells_not (spells_membership hr.spells hl.spells) hderives.starts,
        .not (hderives.loosen (by decide))⟩
      intro state hstate
      simp only [comparisonText, CompareOp.target?, yields_bind]
      exact ⟨rt, state, hr.yields hstate, lt, state, hl.yields hstate, by simp⟩

/-- Comparisons bind no more loosely than their place. -/
theorem rank_compare_le (op : CompareOp) :
    Precedence.compare.rank ≤ (comparisonPlace op).rank := by
  cases op <;> decide

/-- The comparisons of a chain are lowered to a row of texts that must all hold. -/
theorem strung_lowerLinks {left right : Expr} {op : CompareOp} {links : List Link}
    (hleft : Rendered ctx aliases left) (hright : Rendered ctx aliases right)
    (h : ∀ op right, .mk op right ∈ links → Rendered ctx aliases right) :
    ∃ text texts,
      (∀ {state}, Neutral aliases state →
        Yields (lowerLinks ctx left.precedence (lower ctx left) (.mk op right :: links)) state
          (text :: texts) state) ∧
      Strung " && " (.connective .and) .compare (text :: texts)
        (desugarLinks (desugar left) (.mk op right :: links)) := by
  obtain ⟨text, tokens, hyields, hspells, hderives⟩ := rendered_comparison op hleft hright
  have hone : Derives (.separated (.connective .and) .compare) tokens
      [comparisonTree op (desugar left) (desugar right)] :=
    .one (hderives.loosen (rank_compare_le op))
  induction links generalizing left op right text tokens with
  | nil =>
      refine ⟨text, [], ?_, strung_singleton hspells hone⟩
      intro state hstate
      apply (hyields hstate).bind
      apply Yields.pure.bind
      exact .pure
  | cons link links ih =>
      obtain ⟨op', right'⟩ := link
      have hnext := h op' right' List.mem_cons_self
      -- The right operand of this comparison is the left operand of the next.
      obtain ⟨text', tokens', hyields', hspells', hderives'⟩ := rendered_comparison op' hright hnext
      obtain ⟨next, texts, hyieldsRest, hstrung⟩ := ih hright hnext
        (fun op right hlink => h op right (List.mem_cons_of_mem _ hlink)) text' tokens' hyields'
        hspells' hderives' (.one (hderives'.loosen (rank_compare_le op')))
      refine ⟨text, next :: texts, ?_, strung_cons (divides_connective .and) hspells hone hstrung⟩
      intro state hstate
      apply (hyields hstate).bind
      apply (hyieldsRest hstate).bind
      exact .pure

/-! ## The forms one by one -/

/-- A plain name is derived as itself. -/
theorem rendered_name {id : String} (h : Plain ctx aliases id) :
    Rendered ctx aliases (.name id) := by
  refine .of_derives .atom rfl (by decide) ?_ (spells_word h.word) (.name h.notKeyword)
  intro state hstate
  refine yields_bind.mpr ⟨state, state, by simp, ?_⟩
  simp only [hstate.aliases h.notAlias, plainName, h.notConstant, Bool.false_eq_true, if_false,
    yields_pure, and_self]

/-- A literal whose text spells its token. -/
theorem rendered_constant {value : Constant} {text : String} {token : Token}
    (hspells : Spells text [token])
    (hyields : ∀ state, Yields (constantText value) state text state)
    (hliteral : token.literal? = some (literalOf value)) : Rendered ctx aliases (.constant value) :=
  .of_derives .atom rfl (by decide) (fun _ => hyields _) hspells (.literal hliteral)

/-- A number within the digit limit is written in decimal digits. -/
theorem yields_integerText {n : Nat} (h : n < digitBound) (state : LoweringState) :
    Yields (integerText n) state (.ofList (Nat.toDigits 10 n)) state := by
  have htext := decimalText?_of_lt h
  unfold integerText
  -- The bound has thousands of digits: it is kept out of sight of whatever would compute it.
  generalize decimalText? n = text at htext
  subst htext
  exact yields_pure.mpr ⟨rfl, rfl⟩

/-- Such a number is derived as a literal. -/
theorem rendered_int {n : Nat} (h : n < digitBound) :
    Rendered ctx aliases (.constant (.int n)) := by
  refine rendered_constant (spells_number n) ?_ rfl
  intro state
  rw [constantText]
  exact yields_integerText h state

/-- An attribute is derived as a field of its value. -/
theorem rendered_attribute {value : Expr} {label : String}
    (hsupported : Supported ctx aliases value)
    (hvalue : Rendered ctx aliases value) (hlabel : IsWord label) :
    Rendered ctx aliases (.attribute value label) := by
  obtain ⟨text, tokens, h⟩ := hvalue
  obtain ⟨tokens', hspells, hderives⟩ := h.operand .atom false
  refine .of_derives .atom rfl (by decide) ?_ (spells_field hspells hlabel) (.field hderives)
  intro state hstate
  simp only [lower, hsupported.enumMember?_eq_none, hsupported.name?_ne_self, Bool.false_and,
    Bool.false_eq_true, if_false]
  rw [yields_bind]
  refine ⟨state, state, by simp, ?_⟩
  rw [yields_bind]
  exact ⟨text, state, h.yields hstate, by simp⟩

/-- A subscript is derived as an index. -/
theorem rendered_subscript {value index : Expr} (hsupported : Supported ctx aliases index)
    (hvalue : Rendered ctx aliases value) (hindex : Rendered ctx aliases index) :
    Rendered ctx aliases (.subscript value index) := by
  obtain ⟨text, tokens, h⟩ := hvalue
  obtain ⟨inside, position, hi⟩ := hindex
  obtain ⟨tokens', hspells, hderives⟩ := h.operand .atom false
  refine .of_derives .atom rfl (by decide) ?_ (spells_index hspells hi.spells)
    (.index hderives (hi.derives.loosen (Nat.zero_le _)))
  intro state hstate
  have hslice : ∀ a b c, index ≠ .slice a b c := by
    rintro a b c rfl
    cases hsupported
  rw [lower]
  · apply (h.yields hstate).bind
    apply (hi.yields hstate).bind
    exact .pure
  · exact hslice

/-- A list is derived as one. -/
theorem rendered_list {items : List Expr} (h : ∀ e ∈ items, Rendered ctx aliases e) :
    Rendered ctx aliases (.list items) := by
  obtain ⟨texts, tokens, hyields, hspells, hderives⟩ := arguments_lowerAll h
  refine .of_derives .atom rfl (by decide) ?_ (spells_square hspells) (.list hderives)
  intro state hstate
  apply (hyields hstate).bind
  exact .pure

/-- A tuple of two items or more is derived as one. -/
theorem rendered_tuple {items : List Expr} (hlength : 2 ≤ items.length)
    (h : ∀ e ∈ items, Rendered ctx aliases e) : Rendered ctx aliases (.tuple items) := by
  match items, hlength with
  | first :: second :: items, _ =>
      obtain ⟨text, texts, hyields, tokens, hspells, hderives⟩ := strung_lowerAll h
      refine .of_derives .atom rfl (by decide) ?_ (spells_round hspells) (.tuple hderives)
      intro state hstate
      apply (hyields hstate).bind
      exact .pure

/-- A sign is derived over its operand. -/
theorem rendered_minus {operand : Expr} (h : Rendered ctx aliases operand) :
    Rendered ctx aliases (.unary .minus operand) := by
  obtain ⟨text, tokens, h⟩ := h
  obtain ⟨tokens', hspells, hderives⟩ := h.operand .unary false
  refine .of_derives .unary rfl (by decide) ?_ (spells_negative hspells) (.negative hderives)
  intro state hstate
  apply (h.yields hstate).bind
  exact .pure

theorem rendered_not {operand : Expr} (h : Rendered ctx aliases operand) :
    Rendered ctx aliases (.unary .not operand) := by
  obtain ⟨text, tokens, h⟩ := h
  obtain ⟨tokens', hspells, hderives⟩ := h.operand .unary false
  refine .of_derives .unary rfl (by decide) ?_ (spells_not hspells hderives.starts) (.not hderives)
  intro state hstate
  apply (h.yields hstate).bind
  exact .pure

/-- Each supported operator has a symbol of arithmetic, with the precedence of its place. -/
theorem target?_arithmeticOf {op : BinaryOp}
    (hop : op ∈ [BinaryOp.add, .sub, .mult, .div, .floorDiv, .mod]) :
    ∃ symbol, op.target? = some (symbol, (arithmeticOf op).place) ∧
      Divides (" " ++ symbol ++ " ") (.arithmetic (arithmeticOf op)) := by
  simp only [List.mem_cons, List.not_mem_nil, or_false] at hop
  rcases hop with rfl | rfl | rfl | rfl | rfl | rfl
  all_goals exact ⟨_, rfl, divides_of_readToken fun _ => rfl⟩

/-- A binary operation is derived over its operands, with the brackets that they need. -/
theorem rendered_binary {op : BinaryOp} {left right : Expr}
    (hop : op ∈ [BinaryOp.add, .sub, .mult, .div, .floorDiv, .mod])
    (hleft : Rendered ctx aliases left) (hright : Rendered ctx aliases right) :
    Rendered ctx aliases (.binary op left right) := by
  obtain ⟨symbol, htarget, hdivides⟩ := target?_arithmeticOf hop
  obtain ⟨lt, ls, hl⟩ := hleft
  obtain ⟨rt, rs, hr⟩ := hright
  obtain ⟨ls', hspellsl, hderivesl⟩ := hl.operand (arithmeticOf op).place false
  obtain ⟨rs', hspellsr, hderivesr⟩ := hr.operand (arithmeticOf op).place true
  have hown : (Expr.binary op left right).precedence = (arithmeticOf op).place := by
    simp [Expr.precedence, htarget]
  have hplace : (arithmeticOf op).place ≠ .or ∧ (arithmeticOf op).place ≠ .and := by
    cases arithmeticOf op <;> decide
  refine .of_derives _ hown hplace ?_ (spells_between hdivides hspellsl hspellsr)
    (.arithmetic hderivesl hderivesr)
  intro state hstate
  simp only [lower, htarget, yields_bind]
  refine ⟨lt, state, hl.yields hstate, rt, state, hr.yields hstate, ?_⟩
  simp [String.append_assoc]

/-- Something separated has at least one part. -/
theorem Derives.separated_ne_nil {separator : Symbol} {place : Precedence} {tokens : List Token}
    {trees : List Tree} (h : Derives (.separated separator place) tokens trees) : trees ≠ [] := by
  cases h <;> simp

/-- A chain, whose operands are those of its connective. -/
theorem Rendered.of_chain {e : Expr} (op : BoolOp) {text : String} {tokens : List Token}
    {trees : List Tree} (hown : e.precedence = connectivePlace op)
    (htree : desugar e = .chain op trees) (hlength : 2 ≤ trees.length)
    (yields : ∀ {state}, Neutral aliases state → Yields (lower ctx e) state text state)
    (spells : Spells text tokens)
    (derives : Derives (.separated (.connective op) (tighter (connectivePlace op))) tokens trees) :
    Rendered ctx aliases e := by
  match trees, hlength with
  | first :: second :: others, _ =>
      refine ⟨text, tokens, yields, spells, ?_, ?_⟩
      · rw [hown, htree]
        exact .chain derives
      · intro op' hop'
        have hsame : op = op' := by
          rw [hown] at hop'
          cases op <;> cases op' <;> first | rfl | cases hop'
        subst hsame
        simpa [htree, spread] using derives

/-- Every operand adds at least one tree to a chain. -/
theorem length_le_length_operands {op : BoolOp} {values : List Expr}
    (hsupported : ∀ e ∈ values, Supported ctx aliases e)
    (h : ∀ e ∈ values, Rendered ctx aliases e) :
    values.length ≤ ((desugarAll values).flatMap (spread op)).length := by
  induction values with
  | nil => exact Nat.le_refl 0
  | cons e values ih =>
      obtain ⟨text, tokens, he⟩ := h e List.mem_cons_self
      obtain ⟨_, _, hderives⟩ := he.chained (hsupported e List.mem_cons_self) op
      have hone : 0 < (spread op (desugar e)).length :=
        List.length_pos_iff.mpr hderives.separated_ne_nil
      have hrest := ih (fun e he => hsupported e (List.mem_cons_of_mem _ he))
        (fun e he => h e (List.mem_cons_of_mem _ he))
      rw [desugarAll, List.flatMap_cons, List.length_append, List.length_cons]
      omega

/-- A connective is derived as a chain of its operands. -/
theorem rendered_boolean {op : BoolOp} {values : List Expr} (hlength : 2 ≤ values.length)
    (hsupported : ∀ e ∈ values, Supported ctx aliases e)
    (h : ∀ e ∈ values, Rendered ctx aliases e) : Rendered ctx aliases (.boolean op values) := by
  have hoperands : 2 ≤ ((desugarAll values).flatMap (spread op)).length :=
    hlength.trans (length_le_length_operands hsupported h)
  match values with
  | first :: values =>
      obtain ⟨text, texts, hyields, tokens, hspells, hderives⟩ :=
        strung_lowerOperands hsupported h
      refine .of_chain op (by cases op <;> rfl) rfl hoperands ?_ hspells hderives
      intro state hstate
      cases op with
      | and | or =>
          apply (hyields hstate).bind
          exact .pure

/-- A chain of comparisons is derived as a conjunction of them. -/
theorem rendered_compare {left : Expr} {links : List Link} (hlinks : links ≠ [])
    (hleft : Rendered ctx aliases left)
    (h : ∀ op right, .mk op right ∈ links → Rendered ctx aliases right) :
    Rendered ctx aliases (.compare left links) := by
  match links with
  | [.mk op right] =>
      have hright := h op right List.mem_cons_self
      obtain ⟨text, tokens, hyields, hspells, hderives⟩ := rendered_comparison op hleft hright
      have hown : (Expr.compare left [.mk op right]).precedence = comparisonPlace op := by
        cases op <;> rfl
      have hplace : comparisonPlace op ≠ .or ∧ comparisonPlace op ≠ .and := by
        cases op <;> decide
      refine .of_derives _ hown hplace ?_ hspells hderives
      intro state hstate
      have hlinks : Yields (lowerLinks ctx left.precedence (lower ctx left) [.mk op right]) state
          [text] state := by
        apply (hyields hstate).bind
        apply Yields.pure.bind
        exact .pure
      apply hlinks.bind
      exact .pure
  | .mk op right :: .mk op' right' :: links =>
      obtain ⟨text, texts, hyields, tokens, hspells, hderives⟩ :=
        strung_lowerLinks hleft (h op right List.mem_cons_self)
          fun op right hlink => h op right (List.mem_cons_of_mem _ hlink)
      refine .of_chain .and rfl rfl (by simp [desugarLinks]) ?_ hspells hderives
      intro state hstate
      apply (hyields hstate).bind
      exact .pure

/-- A conditional is derived with its branches in braces. -/
theorem rendered_conditional {test body orelse : Expr} (htest : Rendered ctx aliases test)
    (hbody : Rendered ctx aliases body) (horelse : Rendered ctx aliases orelse) :
    Rendered ctx aliases (.conditional test body orelse) := by
  obtain ⟨first, cs, hc⟩ := htest
  obtain ⟨second, as, ha⟩ := hbody
  obtain ⟨third, bs, hb⟩ := horelse
  refine .of_derives .loose rfl (by decide) ?_ (spells_conditional hc.spells ha.spells hb.spells)
    (.conditional (hc.derives.loosen (Nat.zero_le _)) (ha.derives.loosen (Nat.zero_le _))
      (hb.derives.loosen (Nat.zero_le _)))
  intro state hstate
  apply (hc.yields hstate).bind
  apply (ha.yields hstate).bind
  apply (hb.yields hstate).bind
  exact .pure

/-- A call is derived as an application. -/
theorem rendered_call {callee : Expr} {args : List Expr} (hpipe : callee.name? ≠ some "pipe")
    (hexpect : callee.name? ≠ some "expect") (hcallee : Rendered ctx aliases callee)
    (h : ∀ e ∈ args, Rendered ctx aliases e) : Rendered ctx aliases (.call callee args []) := by
  obtain ⟨text, tokens, hc⟩ := hcallee
  obtain ⟨tokens', hspells, hderives⟩ := hc.operand .atom false
  obtain ⟨texts, inside, hyields, hspells', hderives'⟩ := arguments_lowerAll h
  refine .of_derives .atom rfl (by decide) ?_ (spells_apply hspells hspells')
    (.apply hderives hderives')
  intro state hstate
  have hbuiltin : Yields (builtinTarget? ctx callee) state none state := by
    rw [builtinTarget?, yields_bind]
    refine ⟨state, state, by simp, ?_⟩
    simp [hstate.registry]
  have hname : Yields (calleeText ctx callee (lower ctx callee)) state
      (bracketOperand callee.precedence .atom false text) state := by
    rw [calleeText, yields_bind]
    refine ⟨none, state, hbuiltin, ?_⟩
    rw [yields_bind]
    exact ⟨text, state, hc.yields hstate, by simp⟩
  simp only [lower, specialCall?_eq_none args hpipe hexpect]
  rw [yields_bind]
  refine ⟨_, state, hname, ?_⟩
  simp only [List.isEmpty_nil, Bool.not_true, Bool.and_false, Bool.false_and, Bool.false_eq_true,
    if_false, lowerLabelled, yields_bind]
  exact ⟨texts, state, hyields hstate, [], state, by simp, by simp⟩

/-- Ending aliases leaves a neutral state neutral. -/
theorem Neutral.erase {state : LoweringState} (h : Neutral aliases state) (names : List String) :
    Neutral aliases { state with aliases := names.foldl Table.erase state.aliases } := by
  refine ⟨h.registry, ?_⟩
  intro id hid
  have hnone := h.aliases hid
  change (names.foldl Table.erase state.aliases).find? id = none
  generalize state.aliases = table at hnone
  induction names generalizing table with
  | nil => exact hnone
  | cons name names ih =>
      refine ih _ ?_
      simp only [Table.find?, Table.erase, List.lookup_eq_none_iff] at hnone ⊢
      intro entry hentry
      exact hnone entry (List.mem_filter.mp hentry).1

theorem map_name_bareParameter (names : List String) :
    (names.map bareParameter).map Parameter.name = names := by
  induction names with
  | nil => rfl
  | cons name names ih => rw [List.map_cons, List.map_cons, ih]; rfl

/-- A function is derived with its parameters and its body. -/
theorem rendered_lambda {names : List String} {body : Expr}
    (hnames : ∀ name ∈ names, IsWord name ∧ name ∉ keywords) (hbody : Rendered ctx aliases body) :
    Rendered ctx aliases (.lambda (.mk [] (names.map bareParameter) none [] none) body) := by
  obtain ⟨text, tokens, h⟩ := hbody
  have hparameters := spells_parameters fun name hname => (hnames name hname).1
  have hderives : Derives (.expression .loose)
      (.word "fn" :: bracketed .round (parameterTokens names) ++ bracketed .brace tokens)
      [.function names (desugar body)] :=
    .function (fun name hname => (hnames name hname).2) (h.derives.loosen (Nat.zero_le _))
  rw [← map_name_bareParameter names] at hderives hparameters
  refine .of_derives .loose rfl (by decide) ?_ (spells_function hparameters h.spells) hderives
  intro state hstate
  refine Yields.bind (yields_withAliases.mpr ⟨_, h.yields (hstate.erase _), rfl⟩) ?_
  exact .pure

/-! ## Every supported expression -/

/-- Supported expressions are lowered to texts that derive from the places of their precedences. -/
theorem Supported.rendered {e : Expr} (h : Supported ctx aliases e) : Rendered ctx aliases e := by
  induction h with
  | name hplain => exact rendered_name hplain
  | noneValue =>
      exact rendered_constant (spells_word (by decide : IsWord "None")) (by simp [constantText]) rfl
  | bool value =>
      cases value with
      | true =>
          exact rendered_constant (spells_word (by decide : IsWord "True"))
            (by simp [constantText]) rfl
      | false =>
          exact rendered_constant (spells_word (by decide : IsWord "False"))
            (by simp [constantText]) rfl
  | int hbound => exact rendered_int hbound
  | text _ hpoints => exact rendered_constant (spells_quotePoints hpoints) (fun _ => .pure) rfl
  | bytes content => exact rendered_constant (spells_bytes content) (by simp [constantText]) rfl
  | field hvalue hlabel ih => exact rendered_attribute hvalue ih hlabel
  | subscript _ hindex ihvalue ihindex => exact rendered_subscript hindex ihvalue ihindex
  | list _ ih => exact rendered_list ih
  | tuple hlength _ ih => exact rendered_tuple hlength ih
  | @unary op operand hop _ ih =>
      cases op with
      | plus =>
          -- A plus sign is dropped: the operand stands in its place with its own precedence.
          obtain ⟨text, tokens, h⟩ := ih
          exact ⟨text, tokens, h.yields, h.spells, h.derives, h.operands⟩
      | minus => exact rendered_minus ih
      | not => exact rendered_not ih
      | invert => exact absurd rfl hop
  | binary hop _ _ ihleft ihright => exact rendered_binary hop ihleft ihright
  | boolean hlength hvalues ih => exact rendered_boolean hlength hvalues ih
  | compare hlinks _ _ ihleft ih => exact rendered_compare hlinks ihleft ih
  | conditional _ _ _ ihtest ihbody ihorelse => exact rendered_conditional ihtest ihbody ihorelse
  | call hpipe hexpect _ _ ihcallee ih => exact rendered_call hpipe hexpect ihcallee ih
  | lambda hnames _ ih => exact rendered_lambda hnames ih

/-- The text of a supported expression reads as exactly one tree, its desugaring. -/
theorem lower_reads_iff_desugar (ctx : Context) (state : LoweringState)
    (hregistry : state.registry = none) (e : Expr) (h : Supported ctx state.aliases e) :
    ∃ text, Yields (lower ctx e) state text state ∧
      ∀ tree, Reads text tree ↔ tree = desugar e := by
  obtain ⟨text, tokens, hrenders⟩ := h.rendered
  have hreads : Reads text (desugar e) := by
    refine ⟨tokens, ?_, hrenders.derives.loosen (Nat.zero_le _)⟩
    simpa using hrenders.spells [] ends_nil
  refine ⟨text, hrenders.yields ⟨hregistry, id⟩, ?_⟩
  intro tree
  constructor
  · intro htree
    exact htree.unique hreads
  · rintro rfl
    exact hreads

/-- A disjunction under a conjunction keeps its brackets, and a chain of comparisons runs together
with the conjunction around it: `(a or b) and a <= b < +c`. -/
theorem lower_reads_iff_desugar_conjunction :
    ∃ text, Yields (lower {} (.boolean .and [.boolean .or [.name "a", .name "b"],
        .compare (.name "a") [.mk .ltE (.name "b"), .mk .lt (.unary .plus (.name "c"))]]))
          {} text {} ∧
      ∀ tree, Reads text tree ↔ tree = .chain .and [.chain .or [.name "a", .name "b"],
        .compare .ltE (.name "a") (.name "b"), .compare .lt (.name "b") (.name "c")] := by
  have ha : Supported {} [] (.name "a") := .name ⟨by decide, by decide, by decide, rfl, rfl, rfl⟩
  have hb : Supported {} [] (.name "b") := .name ⟨by decide, by decide, by decide, rfl, rfl, rfl⟩
  have hc : Supported {} [] (.name "c") := .name ⟨by decide, by decide, by decide, rfl, rfl, rfl⟩
  have hor : Supported {} [] (.boolean .or [.name "a", .name "b"]) :=
    .boolean (by decide) (by simp [ha, hb])
  have hcompare : Supported {} []
      (.compare (.name "a") [.mk .ltE (.name "b"), .mk .lt (.unary .plus (.name "c"))]) := by
    refine .compare (by simp) ha ?_
    intro op right hlink
    simp only [List.mem_cons, Link.mk.injEq, List.not_mem_nil, or_false] at hlink
    rcases hlink with ⟨-, rfl⟩ | ⟨-, rfl⟩
    · exact hb
    · exact .unary (by decide) hc
  exact lower_reads_iff_desugar {} {} rfl _ (.boolean (by decide) (by simp [hor, hcompare]))

/-- An integer with more digits than the limit has no text. -/
theorem not_yields_lower_digitBound :
    outcome (lower {} (.constant (.int digitBound))) {} = (.error .digitLimit, {}) ∧
      ¬ ∃ text after, Yields (lower {} (.constant (.int digitBound))) {} text after := by
  have hnone := decimalText?_of_le (Nat.le_refl digitBound)
  generalize digitBound = n at hnone ⊢
  have hrun : outcome (lower {} (.constant (.int n))) {} = (.error .digitLimit, {}) := by
    change outcome (integerText n) {} = _
    unfold integerText
    generalize decimalText? n = text at hnone
    subst hnone
    rfl
  refine ⟨hrun, ?_⟩
  rintro ⟨text, after, hyields⟩
  cases hrun.symm.trans hyields

end AikenForge.Readback
