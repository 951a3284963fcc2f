/-
# The grammar of target expressions

How target text of an expression is read: characters are grouped into tokens, and tokens are derived
from the grammar of the precedence table. The grammar is a relation between forms, token lists and
trees, written down without regard to how text is produced; nothing in it excludes by itself that
one token list has several trees.

A chain of one connective is a single node with all its operands. Brackets around a chain keep it
apart from a chain of the same connective around it.
-/

import AikenForge.Json.Reader
import AikenForge.Lowering.Expression

namespace AikenForge.Readback

open AikenForge.Source AikenForge.Number AikenForge.Text

/-- Comparisons of the target language. -/
inductive Comparison
  | eq | notEq | lt | ltE | gt | gtE
  deriving DecidableEq

/-- Arithmetic of the target language. -/
inductive Arithmetic
  | add | sub | mult | div | mod
  deriving DecidableEq

/-- Kinds of brackets. -/
inductive Bracket
  | round | square | brace
  deriving DecidableEq

/-- Tokens that are neither words nor literals. -/
inductive Symbol
  | connective (op : BoolOp)
  | comparison (op : Comparison)
  | arithmetic (op : Arithmetic)
  | bang
  | dot
  | comma
  | opening (bracket : Bracket)
  | closing (bracket : Bracket)
  deriving DecidableEq

/-- A token of target text. A text is kept as its code points. -/
inductive Token
  | word (name : String)
  | number (value : Nat)
  | text (points : CodePoints)
  | bytes (content : List UInt8)
  | symbol (symbol : Symbol)
  deriving DecidableEq

/-- Literal values of the target language. -/
inductive Literal
  | none
  | bool (value : Bool)
  | integer (value : Nat)
  | text (points : CodePoints)
  | bytes (content : List UInt8)
  deriving DecidableEq

/-- The tree of a target expression. -/
inductive Tree
  | name (id : String)
  | literal (value : Literal)
  | field (value : Tree) (label : String)
  | index (value position : Tree)
  | apply (callee : Tree) (args : List Tree)
  | list (items : List Tree)
  | tuple (items : List Tree)
  | negative (operand : Tree)
  | not (operand : Tree)
  | arithmetic (op : Arithmetic) (left right : Tree)
  | compare (op : Comparison) (left right : Tree)
  | chain (op : BoolOp) (operands : List Tree)
  | conditional (test body orelse : Tree)
  | function (parameters : List String) (body : Tree)

/-! ## Characters to tokens -/

/-- The symbol that opens a text, the longest that fits. -/
def readSymbol : List Char → Option (Symbol × List Char)
  | '|' :: '|' :: rest => some (.connective .or, rest)
  | '&' :: '&' :: rest => some (.connective .and, rest)
  | '=' :: '=' :: rest => some (.comparison .eq, rest)
  | '!' :: '=' :: rest => some (.comparison .notEq, rest)
  | '<' :: '=' :: rest => some (.comparison .ltE, rest)
  | '>' :: '=' :: rest => some (.comparison .gtE, rest)
  | '<' :: rest => some (.comparison .lt, rest)
  | '>' :: rest => some (.comparison .gt, rest)
  | '+' :: rest => some (.arithmetic .add, rest)
  | '-' :: rest => some (.arithmetic .sub, rest)
  | '*' :: rest => some (.arithmetic .mult, rest)
  | '/' :: rest => some (.arithmetic .div, rest)
  | '%' :: rest => some (.arithmetic .mod, rest)
  | '!' :: rest => some (.bang, rest)
  | '.' :: rest => some (.dot, rest)
  | ',' :: rest => some (.comma, rest)
  | '(' :: rest => some (.opening .round, rest)
  | ')' :: rest => some (.closing .round, rest)
  | '[' :: rest => some (.opening .square, rest)
  | ']' :: rest => some (.closing .square, rest)
  | '\x7b' :: rest => some (.opening .brace, rest)
  | '\x7d' :: rest => some (.closing .brace, rest)
  | _ => none

/-- The bytes that hexadecimal digits write, two for each. -/
def bytesOfHex? : List Char → Option (List UInt8)
  | [] => some []
  | high :: low :: rest => do
    let h ← hexValue? high
    let l ← hexValue? low
    let bytes ← bytesOfHex? rest
    return UInt8.ofNat (16 * h + l) :: bytes
  | [_] => none

/-- The token of a byte string after its mark and its opening quote. -/
def readBytes (cs : List Char) : Option (Token × List Char) := do
  let content ← bytesOfHex? (cs.takeWhile (· != '"'))
  match cs.dropWhile (· != '"') with
  | _ :: rest => return (.bytes content, rest)
  | [] => none

/-- The code points of a text up to its closing quote, and what follows that. The escapes are those
of JSON, each of them a code point of its own. -/
def readText : List Char → Option (CodePoints × List Char)
  | [] => none
  | '"' :: rest => some ([], rest)
  | '\\' :: 'u' :: a :: b :: c :: d :: rest => do
    let point ← JsonReader.hexUnit? [a, b, c, d]
    let (points, rest) ← readText rest
    return (point :: points, rest)
  | '\\' :: letter :: rest => do
    let point ← JsonReader.escapeLetter? letter
    let (points, rest) ← readText rest
    return (point :: points, rest)
  | c :: rest =>
    if c.toNat < 32 then none
    else (readText rest).map fun (points, rest) => (c.toNat :: points, rest)

/-- The token that opens a text, as long as possible. -/
def readToken : List Char → Option (Token × List Char)
  | [] => none
  | '"' :: rest => (readText rest).map fun (points, rest) => (.text points, rest)
  | '#' :: '"' :: rest => readBytes rest
  | c :: rest =>
    if c.isDigit then
      let digits := (c :: rest).takeWhile Char.isDigit
      some (.number (ofDigits digits), (c :: rest).dropWhile Char.isDigit)
    else if isWordChar c then
      let word := (c :: rest).takeWhile isWordChar
      some (.word (.ofList word), (c :: rest).dropWhile isWordChar)
    else (readSymbol (c :: rest)).map fun (symbol, rest) => (.symbol symbol, rest)

/-- Scanning a text gives tokens and leaves a rest. A token is read with all that follows it in
view, so that scanning never splits a word, a number or a symbol. -/
inductive Scans : List Char → List Token → List Char → Prop
  | done (rest : List Char) : Scans rest [] rest
  | blank {cs rest : List Char} {tokens : List Token} :
      Scans cs tokens rest → Scans (' ' :: cs) tokens rest
  | token {cs after rest : List Char} {token : Token} {tokens : List Token} :
      readToken cs = some (token, after) → Scans after tokens rest →
      Scans cs (token :: tokens) rest

/-- Scans one after the other. -/
theorem Scans.append {cs between rest : List Char} {tokens more : List Token}
    (first : Scans cs tokens between) (second : Scans between more rest) :
    Scans cs (tokens ++ more) rest := by
  induction first with
  | done => exact second
  | blank _ ih => exact .blank (ih second)
  | token htoken _ ih => exact .token htoken (ih second)

/-- A whole text has at most one list of tokens. -/
theorem Scans.unique {cs : List Char} {tokens tokens' : List Token}
    (h : Scans cs tokens []) (h' : Scans cs tokens' []) : tokens = tokens' := by
  generalize hrest : ([] : List Char) = rest at h
  induction h generalizing tokens' with
  | done rest =>
      subst hrest
      cases h' with
      | done => rfl
      | token htoken _ => cases htoken
  | blank _ ih =>
      cases h' with
      | blank h' => exact ih h' hrest
      | token htoken _ => cases htoken
  | token htoken _ ih =>
      cases h' with
      | done => subst hrest; cases htoken
      | blank => cases htoken
      | token htoken' h' =>
          obtain ⟨rfl, rfl⟩ := Prod.mk.inj (Option.some.inj (htoken.symm.trans htoken'))
          rw [ih h' hrest]

/-! ## Tokens to trees -/

/-- Words that are not names. -/
def keywords : List String :=
  ["if", "else", "fn", "True", "False", "None"]

/-- The literal that a token is. -/
def Token.literal? : Token → Option Literal
  | .word name =>
    if name = "True" then some (.bool true)
    else if name = "False" then some (.bool false)
    else if name = "None" then some .none
    else none
  | .number value => some (.integer value)
  | .text points => some (.text points)
  | .bytes content => some (.bytes content)
  | .symbol _ => none

/-- The next tighter place; nothing is tighter than an atom. -/
def tighter : Precedence → Precedence
  | .loose => .or
  | .or => .and
  | .and => .compare
  | .compare => .add
  | .add => .mult
  | .mult => .unary
  | .unary | .atom => .atom

/-- The place of a chain of a connective. -/
def connectivePlace : BoolOp → Precedence
  | .or => .or
  | .and => .and

/-- The place of an arithmetic operation. -/
def Arithmetic.place : Arithmetic → Precedence
  | .add | .sub => .add
  | .mult | .div | .mod => .mult

/-- What a list of tokens can be derived from: an expression for a place, expressions between
separators, or arguments, of which there may be none. -/
inductive Form
  | expression (place : Precedence)
  | separated (separator : Symbol) (place : Precedence)
  | arguments

/-- Tokens between brackets. -/
def bracketed (bracket : Bracket) (tokens : List Token) : List Token :=
  .symbol (.opening bracket) :: tokens ++ [.symbol (.closing bracket)]

/-- Parameter names between commas. -/
def parameterTokens : List String → List Token
  | [] => []
  | [name] => [.word name]
  | name :: rest => .word name :: .symbol .comma :: parameterTokens rest

/-- The grammar of the precedence table. A form is derived as a list of trees, an expression as one.
Chains have two operands or more, comparisons do not associate, arithmetic associates to the
left. -/
inductive Derives : Form → List Token → List Tree → Prop
  | tighten {place : Precedence} {ts : List Token} {t : Tree} :
      place ≠ .atom → Derives (.expression (tighter place)) ts [t] →
      Derives (.expression place) ts [t]
  | conditional {cs as bs : List Token} {c a b : Tree} :
      Derives (.expression .loose) cs [c] → Derives (.expression .loose) as [a] →
      Derives (.expression .loose) bs [b] →
      Derives (.expression .loose)
        (.word "if" :: cs ++ bracketed .brace as ++ .word "else" :: bracketed .brace bs)
        [.conditional c a b]
  | function {names : List String} {ts : List Token} {t : Tree} :
      (∀ name ∈ names, name ∉ keywords) → Derives (.expression .loose) ts [t] →
      Derives (.expression .loose)
        (.word "fn" :: bracketed .round (parameterTokens names) ++ bracketed .brace ts)
        [.function names t]
  | chain {op : BoolOp} {ts : List Token} {first second : Tree} {others : List Tree} :
      Derives (.separated (.connective op) (tighter (connectivePlace op))) ts
        (first :: second :: others) →
      Derives (.expression (connectivePlace op)) ts [.chain op (first :: second :: others)]
  | compare {op : Comparison} {ls rs : List Token} {l r : Tree} :
      Derives (.expression .add) ls [l] → Derives (.expression .add) rs [r] →
      Derives (.expression .compare) (ls ++ .symbol (.comparison op) :: rs) [.compare op l r]
  | arithmetic {op : Arithmetic} {ls rs : List Token} {l r : Tree} :
      Derives (.expression op.place) ls [l] → Derives (.expression (tighter op.place)) rs [r] →
      Derives (.expression op.place) (ls ++ .symbol (.arithmetic op) :: rs) [.arithmetic op l r]
  | negative {ts : List Token} {t : Tree} :
      Derives (.expression .unary) ts [t] →
      Derives (.expression .unary) (.symbol (.arithmetic .sub) :: ts) [.negative t]
  | not {ts : List Token} {t : Tree} :
      Derives (.expression .unary) ts [t] →
      Derives (.expression .unary) (.symbol .bang :: ts) [.not t]
  | field {ts : List Token} {t : Tree} {label : String} :
      Derives (.expression .atom) ts [t] →
      Derives (.expression .atom) (ts ++ [.symbol .dot, .word label]) [.field t label]
  | index {ts is : List Token} {t i : Tree} :
      Derives (.expression .atom) ts [t] → Derives (.expression .loose) is [i] →
      Derives (.expression .atom) (ts ++ bracketed .square is) [.index t i]
  | apply {ts as : List Token} {t : Tree} {args : List Tree} :
      Derives (.expression .atom) ts [t] → Derives .arguments as args →
      Derives (.expression .atom) (ts ++ bracketed .round as) [.apply t args]
  | name {id : String} :
      id ∉ keywords → Derives (.expression .atom) [.word id] [.name id]
  | literal {token : Token} {value : Literal} :
      token.literal? = some value → Derives (.expression .atom) [token] [.literal value]
  | group {ts : List Token} {t : Tree} :
      Derives (.expression .loose) ts [t] → Derives (.expression .atom) (bracketed .round ts) [t]
  | tuple {ts : List Token} {first second : Tree} {others : List Tree} :
      Derives (.separated .comma .loose) ts (first :: second :: others) →
      Derives (.expression .atom) (bracketed .round ts) [.tuple (first :: second :: others)]
  | list {ts : List Token} {items : List Tree} :
      Derives .arguments ts items → Derives (.expression .atom) (bracketed .square ts) [.list items]
  | one {separator : Symbol} {place : Precedence} {ts : List Token} {t : Tree} :
      Derives (.expression place) ts [t] → Derives (.separated separator place) ts [t]
  | more {separator : Symbol} {place : Precedence} {ts us : List Token} {t : Tree}
      {trees : List Tree} :
      Derives (.expression place) ts [t] → Derives (.separated separator place) us trees →
      Derives (.separated separator place) (ts ++ .symbol separator :: us) (t :: trees)
  | noArguments : Derives .arguments [] []
  | someArguments {ts : List Token} {trees : List Tree} :
      Derives (.separated .comma .loose) ts trees → Derives .arguments ts trees

theorem tighter_rank {place : Precedence} (h : place ≠ .atom) :
    (tighter place).rank = place.rank + 1 := by
  cases place <;> first | rfl | exact absurd rfl h

/-- What stands in a tight place may stand in a looser one. -/
theorem Derives.loosen {place looser : Precedence} {tokens : List Token} {tree : Tree}
    (h : Derives (.expression place) tokens [tree]) (hrank : looser.rank ≤ place.rank) :
    Derives (.expression looser) tokens [tree] := by
  obtain heq | hlt := Nat.eq_or_lt_of_le hrank
  · have hsame : looser = place := by cases looser <;> cases place <;> first | rfl | cases heq
    rw [hsame]
    exact h
  · have hatom : looser ≠ .atom := by
      rintro rfl
      cases place <;> simp [Precedence.rank] at hlt
    exact .tighten hatom (h.loosen (by rw [tighter_rank hatom]; omega))
termination_by place.rank - looser.rank
decreasing_by rw [tighter_rank hatom]; omega

/-- Expressions between separators, one row after the other. -/
theorem Derives.separated_append {separator : Symbol} {place : Precedence} {ts us : List Token}
    {trees trees' : List Tree} (first : Derives (.separated separator place) ts trees)
    (second : Derives (.separated separator place) us trees') :
    Derives (.separated separator place) (ts ++ .symbol separator :: us) (trees ++ trees') := by
  generalize hform : Form.separated separator place = form at first
  induction first with
  | one h =>
      cases hform
      exact .more h second
  | more h _ _ ih =>
      cases hform
      have hrest := Derives.more h (ih rfl)
      simpa using hrest
  | _ => cases hform

/-- A text reads as a tree: it is scanned to its end into tokens that the grammar derives from an
expression with that tree. -/
def Reads (text : String) (tree : Tree) : Prop :=
  ∃ tokens, Scans text.toList tokens [] ∧ Derives (.expression .loose) tokens [tree]

end AikenForge.Readback
