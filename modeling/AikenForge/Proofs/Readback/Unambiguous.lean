/-
# One tree for each token list

The grammar of target expressions is unambiguous. A recursive-descent reader shows it: whatever the
grammar derives, the reader finds, as long as what follows cannot continue the expression, and a
reader finds one tree only. The reader is bounded from outside; a result that stands from some bound
on is what it *finds*.

The left-recursive rules of the grammar meet a loop of the reader. What carries the induction there
is not a result but a continuation: reading the tokens of a tree and then more comes to what the
loop makes of the tree and that.
-/

import Mathlib.Order.Filter.AtTopBot.Basic
import AikenForge.Proofs.Readback.Grammar

namespace AikenForge.Readback

open AikenForge.Source

/-- What the reader is asked for: the forms of the grammar, with arguments up to a closing bracket;
an atom before its postfixes; and the continuation of a tree by the operators of a place. -/
inductive Goal
  | expression (place : Precedence)
  | separated (separator : Symbol) (place : Precedence)
  | arguments (closing : Bracket)
  | primary
  | after (place : Precedence) (left : Tree)

/-- The trees that are read and the tokens after them. -/
abbrev Answer := Option (List Tree × List Token)

/-- Go on with the tree of an answer that has one. -/
def Answer.one (answer : Answer) (next : Tree → List Token → Answer) : Answer :=
  match answer with
  | some ([tree], rest) => next tree rest
  | _ => none

/-- Go on after a token. -/
def skip (token : Token) (tokens : List Token) (next : List Token → Answer) : Answer :=
  match tokens with
  | first :: rest => if first = token then next rest else none
  | [] => none

/-- The tree of operands of a connective, which is the operand itself if it is alone. -/
def joinOperands (op : BoolOp) : List Tree → List Tree
  | [operand] => [operand]
  | operands => [.chain op operands]

/-- The tree of expressions in round brackets, which is the expression itself if it is alone. -/
def joinItems : List Tree → List Tree
  | [item] => [item]
  | items => [.tuple items]

/-- Parameter names up to their closing bracket, and what follows it. -/
def readParameters : List Token → Option (List String × List Token)
  | .symbol (.closing .round) :: rest => some ([], rest)
  | .word name :: .symbol .comma :: rest =>
    (readParameters rest).map fun (names, rest) => (name :: names, rest)
  | .word name :: .symbol (.closing .round) :: rest => some ([name], rest)
  | _ => none

/-- One step of reading; `recur` reads the parts. -/
@[simp]
def step (recur : Goal → List Token → Answer) : Goal → List Token → Answer
  | .expression .loose, .word name :: tokens =>
    if name = "if" then
      (recur (.expression .loose) tokens).one fun test tokens =>
      skip (.symbol (.opening .brace)) tokens fun tokens =>
      (recur (.expression .loose) tokens).one fun body tokens =>
      skip (.symbol (.closing .brace)) tokens fun tokens =>
      skip (.word "else") tokens fun tokens =>
      skip (.symbol (.opening .brace)) tokens fun tokens =>
      (recur (.expression .loose) tokens).one fun orelse tokens =>
      skip (.symbol (.closing .brace)) tokens fun tokens =>
      some ([.conditional test body orelse], tokens)
    else if name = "fn" then
      skip (.symbol (.opening .round)) tokens fun tokens =>
      match readParameters tokens with
      | some (names, tokens) =>
        skip (.symbol (.opening .brace)) tokens fun tokens =>
        (recur (.expression .loose) tokens).one fun body tokens =>
        skip (.symbol (.closing .brace)) tokens fun tokens =>
        some ([.function names body], tokens)
      | none => none
    else recur (.expression .or) (.word name :: tokens)
  | .expression .loose, tokens => recur (.expression .or) tokens
  | .expression .or, tokens =>
    (recur (.separated (.connective .or) .and) tokens).map fun (trees, rest) =>
      (joinOperands .or trees, rest)
  | .expression .and, tokens =>
    (recur (.separated (.connective .and) .compare) tokens).map fun (trees, rest) =>
      (joinOperands .and trees, rest)
  | .expression .unary, .symbol (.arithmetic .sub) :: tokens =>
    (recur (.expression .unary) tokens).one fun tree rest => some ([.negative tree], rest)
  | .expression .unary, .symbol .bang :: tokens =>
    (recur (.expression .unary) tokens).one fun tree rest => some ([.not tree], rest)
  | .expression .unary, tokens => recur (.expression .atom) tokens
  | .expression .atom, tokens =>
    (recur .primary tokens).one fun tree rest => recur (.after .atom tree) rest
  | .expression place, tokens =>
    (recur (.expression (tighter place)) tokens).one fun tree rest =>
      recur (.after place tree) rest
  | .separated separator place, tokens =>
    (recur (.expression place) tokens).one fun tree rest =>
      match rest with
      | .symbol symbol :: others =>
        if symbol = separator then
          (recur (.separated separator place) others).map fun (trees, rest) => (tree :: trees, rest)
        else some ([tree], rest)
      | _ => some ([tree], rest)
  | .arguments closing, tokens =>
    if tokens.head? = some (.symbol (.closing closing)) then some ([], tokens)
    else recur (.separated .comma .loose) tokens
  | .primary, .symbol (.opening .round) :: tokens =>
    match recur (.separated .comma .loose) tokens with
    | some (trees, rest) =>
      skip (.symbol (.closing .round)) rest fun rest => some (joinItems trees, rest)
    | none => none
  | .primary, .symbol (.opening .square) :: tokens =>
    match recur (.arguments .square) tokens with
    | some (trees, rest) =>
      skip (.symbol (.closing .square)) rest fun rest => some ([.list trees], rest)
    | none => none
  | .primary, token :: tokens =>
    match token.literal?, token with
    | some value, _ => some ([.literal value], tokens)
    | none, .word name => some ([.name name], tokens)
    | none, _ => none
  | .primary, [] => none
  | .after .compare left, .symbol (.comparison op) :: tokens =>
    (recur (.expression .add) tokens).one fun right rest => some ([.compare op left right], rest)
  | .after .atom left, .symbol .dot :: .word label :: tokens =>
    recur (.after .atom (.field left label)) tokens
  | .after .atom left, .symbol (.opening .square) :: tokens =>
    (recur (.expression .loose) tokens).one fun position rest =>
      skip (.symbol (.closing .square)) rest fun rest =>
      recur (.after .atom (.index left position)) rest
  | .after .atom left, .symbol (.opening .round) :: tokens =>
    match recur (.arguments .round) tokens with
    | some (args, rest) =>
      skip (.symbol (.closing .round)) rest fun rest => recur (.after .atom (.apply left args)) rest
    | none => none
  | .after place left, .symbol (.arithmetic op) :: tokens =>
    if op.place = place then
      (recur (.expression (tighter place)) tokens).one fun right rest =>
        recur (.after place (.arithmetic op left right)) rest
    else some ([left], .symbol (.arithmetic op) :: tokens)
  | .after _ left, tokens => some ([left], tokens)

/-- Reading with a bound on the depth. -/
def parse : (bound : Nat) → Goal → List Token → Answer
  | 0, _, _ => none
  | bound + 1, goal, tokens => step (parse bound) goal tokens

/-- From some bound on, reading tokens for a goal gives these trees and leaves this rest. -/
def Finds (goal : Goal) (tokens : List Token) (trees : List Tree) (rest : List Token) : Prop :=
  ∀ᶠ bound in Filter.atTop, parse bound goal tokens = some (trees, rest)

/-- What one step finds from results that stand, is found. -/
theorem Finds.of_step {goal : Goal} {tokens rest : List Token} {trees : List Tree}
    (h : ∀ᶠ bound in Filter.atTop, step (parse bound) goal tokens = some (trees, rest)) :
    Finds goal tokens trees rest := by
  obtain ⟨least, hleast⟩ := Filter.eventually_atTop.mp h
  refine Filter.eventually_atTop.mpr ⟨least + 1, fun bound hbound => ?_⟩
  obtain ⟨lower, rfl⟩ := Nat.exists_eq_add_of_le' (Nat.one_le_of_lt hbound)
  exact hleast lower (by omega)

/-- Reading finds one answer only. -/
theorem Finds.unique {goal : Goal} {tokens rest rest' : List Token} {trees trees' : List Tree}
    (h : Finds goal tokens trees rest) (h' : Finds goal tokens trees' rest') : trees = trees' := by
  obtain ⟨bound, hbound, hbound'⟩ := (h.and h').exists
  have heq := hbound.symm.trans hbound'
  simp only [Option.some.injEq, Prod.mk.injEq] at heq
  exact heq.1

/-! ## How derivable tokens start and what may follow them -/

/-- How tightly the first of some tokens would bind to an expression before it, zero if it would
not. -/
def grip : List Token → Nat
  | .symbol (.connective op) :: _ => (connectivePlace op).rank
  | .symbol (.comparison _) :: _ => Precedence.compare.rank
  | .symbol (.arithmetic op) :: _ => op.place.rank
  | .symbol .dot :: _ | .symbol (.opening .round) :: _ | .symbol (.opening .square) :: _ =>
    Precedence.atom.rank
  | _ => 0

/-- The tokens after an expression for a place do not continue it. -/
def Clear (place : Precedence) (rest : List Token) : Prop :=
  grip rest = 0 ∨ grip rest < place.rank

/-- Whether a token may open an expression for a place. -/
def opens (place : Precedence) : Token → Bool
  | .word name => place == .loose || (name != "if" && name != "fn")
  | .symbol (.arithmetic .sub) | .symbol .bang => place != .atom
  | .symbol (.opening .round) | .symbol (.opening .square) => true
  | .symbol _ => false
  | _ => true

/-- Tokens start with one that may open an expression for a place. -/
def Starts (place : Precedence) (tokens : List Token) : Prop :=
  ∃ first others, tokens = first :: others ∧ opens place first = true

/-- How tokens start does not change when more follow them. -/
theorem Starts.append {place : Precedence} {tokens : List Token} (h : Starts place tokens)
    (more : List Token) : Starts place (tokens ++ more) := by
  obtain ⟨first, others, rfl, hopens⟩ := h
  exact ⟨first, others ++ more, rfl, hopens⟩

/-- What opens an operand at a tighter place opens one at the place itself. -/
theorem opens_of_tighter {place : Precedence} {token : Token}
    (h : opens (tighter place) token = true) : opens place token = true := by
  cases token with
  | word name => cases place <;> simp_all [opens, tighter]
  | symbol symbol =>
      cases symbol with
      | arithmetic op => cases op <;> cases place <;> simp_all [opens, tighter]
      | bang => cases place <;> simp_all [opens, tighter]
      | opening bracket => cases bracket <;> exact h
      | _ => exact h
  | _ => rfl

theorem Starts.loosen {place : Precedence} {tokens : List Token}
    (h : Starts (tighter place) tokens) : Starts place tokens := by
  obtain ⟨first, others, rfl, hopens⟩ := h
  exact ⟨first, others, rfl, opens_of_tighter hopens⟩

/-- How the tokens of a form start. -/
def FormStarts : Form → List Token → Prop
  | .expression place, tokens | .separated _ place, tokens => Starts place tokens
  | .arguments, tokens => tokens = [] ∨ Starts .loose tokens

/-- A literal opens an expression for any place. -/
theorem opens_of_literal {token : Token} {value : Literal} (h : token.literal? = some value)
    (place : Precedence) : opens place token = true := by
  cases token with
  | word name =>
      simp only [Token.literal?] at h
      by_cases hif : name = "if"
      · subst hif; simp at h
      · by_cases hfn : name = "fn"
        · subst hfn; simp at h
        · simp [opens, hif, hfn]
  | symbol symbol => cases h
  | _ => rfl

/-- Derivable tokens start as their form asks. -/
theorem Derives.starts {form : Form} {tokens : List Token} {trees : List Tree}
    (h : Derives form tokens trees) : FormStarts form tokens := by
  induction h with
  | tighten _ _ ih => exact Starts.loosen ih
  | conditional | function => exact ⟨_, _, rfl, rfl⟩
  | @chain op _ _ _ _ _ ih => exact Starts.loosen ih
  | compare _ _ ihl _ => exact Starts.loosen (Starts.append ihl _)
  | arithmetic _ _ ihl _ => exact Starts.append ihl _
  | negative | not => exact ⟨_, _, rfl, rfl⟩
  | field _ ih => exact Starts.append ih _
  | index _ _ ih _ => exact Starts.append ih _
  | apply _ _ ih _ => exact Starts.append ih _
  | @name id hid =>
      refine ⟨_, _, rfl, ?_⟩
      have hif : id ≠ "if" := by rintro rfl; simp [keywords] at hid
      have hfn : id ≠ "fn" := by rintro rfl; simp [keywords] at hid
      simp [opens, hif, hfn]
  | literal hvalue => exact ⟨_, _, rfl, opens_of_literal hvalue _⟩
  | group | tuple | list => exact ⟨_, _, rfl, rfl⟩
  | one _ ih => exact ih
  | more _ _ ih _ => exact Starts.append ih _
  | noArguments => exact .inl rfl
  | someArguments _ ih => exact .inr ih

/-! ## The reader finds what the grammar derives -/

/-- Reading tokens for a place finds their tree, whatever follows that does not continue it. -/
def Settles (place : Precedence) (tokens : List Token) (tree : Tree) : Prop :=
  ∀ rest, Clear place rest → Finds (.expression place) (tokens ++ rest) [tree] rest

/-- Reading tokens for a place and then more comes to what the loop of the place makes of their tree
and that. -/
def Continues (place : Precedence) (tokens : List Token) (tree : Tree) : Prop :=
  ∀ rest trees last, grip rest ≤ place.rank → Finds (.after place tree) rest trees last →
    Finds (.expression place) (tokens ++ rest) trees last

/-- The places at which the grammar recurs to the left. -/
def loops : Precedence → Bool
  | .add | .mult | .atom => true
  | _ => false

/-- A separator does not continue the expressions it separates. -/
def Separates (separator : Symbol) (place : Precedence) : Prop :=
  ∀ rest, Clear place (.symbol separator :: rest)

/-- A connective ends the operands next to it. -/
theorem separates_connective (op : BoolOp) :
    Separates (.connective op) (tighter (connectivePlace op)) := by
  intro rest
  have hrank : (connectivePlace op).rank < (tighter (connectivePlace op)).rank := by
    cases op <;> decide
  exact .inr hrank

/-- A comma ends any expression. -/
theorem separates_comma (place : Precedence) : Separates .comma place :=
  fun _ => .inl rfl

/-- What the induction on derivations shows of each form. -/
def Complete : Form → List Token → List Tree → Prop
  | .expression place, tokens, trees => ∃ tree, trees = [tree] ∧ Settles place tokens tree ∧
      (loops place = true → Continues place tokens tree)
  | .separated separator place, tokens, trees => Separates separator place →
      ∀ rest, Clear place rest → rest.head? ≠ some (.symbol separator) →
      Finds (.separated separator place) (tokens ++ rest) trees rest
  | .arguments, tokens, trees => ∀ closing rest,
      Finds (.arguments closing) (tokens ++ .symbol (.closing closing) :: rest) trees
        (.symbol (.closing closing) :: rest)

/-- A closing bracket ends any expression. -/
theorem clear_closing (place : Precedence) (bracket : Bracket) (rest : List Token) :
    Clear place (.symbol (.closing bracket) :: rest) :=
  .inl rfl

/-- An opening brace ends any expression, as those of a block do. -/
theorem clear_opening_brace (place : Precedence) (rest : List Token) :
    Clear place (.symbol (.opening .brace) :: rest) :=
  .inl rfl

/-- What ends an expression at a place ends one at every tighter place. -/
theorem Clear.tighten {place : Precedence} {rest : List Token} (h : Clear place rest) :
    Clear (tighter place) rest := by
  rcases h with h | h
  · exact .inl h
  · refine .inr (lt_of_lt_of_le h ?_)
    cases place <;> decide

/-- The loop of a place stops where nothing continues the place. -/
theorem finds_after_of_clear {place : Precedence} (hplace : place = .compare ∨ loops place = true)
    {rest : List Token} (hclear : Clear place rest) (tree : Tree) :
    Finds (.after place tree) rest [tree] rest := by
  refine .of_step (.of_forall fun bound => ?_)
  -- each first token that a loop takes up has the grip of the loop's own place
  cases rest with
  | nil => cases place <;> rfl
  | cons token rest =>
      cases token with
      | symbol symbol =>
          cases symbol with
          | connective op => cases place <;> rfl
          | comparison op =>
              cases place <;> first | rfl | simp [Clear, grip, Precedence.rank] at hclear
          | arithmetic op =>
              cases place <;> cases op <;>
                first | rfl | simp_all [Clear, grip, Precedence.rank, Arithmetic.place, loops]
          | bang => cases place <;> rfl
          | dot => cases place <;> first | rfl | simp [Clear, grip, Precedence.rank] at hclear
          | comma => cases place <;> rfl
          | opening bracket =>
              cases bracket <;> cases place <;>
                first | rfl | simp [Clear, grip, Precedence.rank] at hclear
          | closing bracket => cases place <;> rfl
      | _ => cases place <;> rfl

/-- At a place with a loop, what the loop can continue settles as soon as the loop ends. -/
theorem Continues.settles {place : Precedence} (hplace : loops place = true) {tokens : List Token}
    {tree : Tree} (h : Continues place tokens tree) : Settles place tokens tree := by
  intro rest hclear
  refine h rest _ _ ?_ (finds_after_of_clear (.inr hplace) hclear tree)
  rcases hclear with hclear | hclear <;> omega

/-- At a place with a loop it is enough to be continued. -/
theorem complete_of_continues {place : Precedence} (hplace : loops place = true)
    {tokens : List Token} {tree : Tree} (h : Continues place tokens tree) :
    Complete (.expression place) tokens [tree] :=
  ⟨tree, rfl, h.settles hplace, fun _ => h⟩

/-- At a place without a loop it is enough to settle. -/
theorem complete_of_settles {place : Precedence} (hplace : loops place = false)
    {tokens : List Token} {tree : Tree} (h : Settles place tokens tree) :
    Complete (.expression place) tokens [tree] :=
  ⟨tree, rfl, h, fun hloops => absurd (hplace.symm.trans hloops) (by decide)⟩

theorem Complete.settles {place : Precedence} {tokens : List Token} {tree : Tree}
    (h : Complete (.expression place) tokens [tree]) : Settles place tokens tree := by
  obtain ⟨_, heq, hsettles, _⟩ := h
  cases heq
  exact hsettles

theorem Complete.continues {place : Precedence} {tokens : List Token} {tree : Tree}
    (h : Complete (.expression place) tokens [tree]) (hplace : loops place = true) :
    Continues place tokens tree := by
  obtain ⟨_, heq, _, hcontinues⟩ := h
  cases heq
  exact hcontinues hplace

/-- Skipping the token that stands first. -/
@[simp]
theorem skip_cons (token : Token) (tokens : List Token) (next : List Token → Answer) :
    skip token (token :: tokens) next = next tokens := by
  simp [skip]

@[simp]
theorem one_some (tree : Tree) (rest : List Token) (next : Tree → List Token → Answer) :
    Answer.one (some ([tree], rest)) next = next tree rest :=
  rfl

/-- Parameter names with commas are read back up to the closing bracket. -/
theorem readParameters_append (names : List String) (rest : List Token) :
    readParameters (parameterTokens names ++ .symbol (.closing .round) :: rest) =
      some (names, rest) := by
  induction names with
  | nil => rfl
  | cons name names ih =>
      cases names with
      | nil => rfl
      | cons second others =>
          simp only [parameterTokens, List.cons_append, readParameters, ih, Option.map_some]

/-- Operands that stand alone are read at the tighter place and found again by the chain. -/
theorem settles_of_operand (op : BoolOp) {tokens : List Token} {tree : Tree}
    (h : Settles (tighter (connectivePlace op)) tokens tree) :
    Settles (connectivePlace op) tokens tree := by
  intro rest hclear
  have hfound := h rest hclear.tighten
  have hseparated : Finds (.separated (.connective op) (tighter (connectivePlace op)))
      (tokens ++ rest) [tree] rest := by
    apply Finds.of_step
    filter_upwards [hfound] with bound hbound
    simp only [step, hbound, one_some]
    cases rest with
    | nil => rfl
    | cons token rest =>
        cases token with
        | symbol symbol =>
            by_cases hsymbol : symbol = .connective op
            · subst hsymbol
              cases op <;> simp [Clear, grip, connectivePlace, Precedence.rank] at hclear
            · simp only [if_neg hsymbol]
        | _ => rfl
  apply Finds.of_step
  filter_upwards [hseparated] with bound hbound
  cases op <;> simp_all [step, joinOperands, connectivePlace, tighter]

/-- A loose place reads what a chain does, if the tokens do not open with a word of its own. -/
theorem settles_loose {tokens : List Token} {tree : Tree} (hstarts : Starts .or tokens)
    (h : Settles .or tokens tree) : Settles .loose tokens tree := by
  intro rest hclear
  have hfound := h rest hclear.tighten
  obtain ⟨first, others, rfl, hopens⟩ := hstarts
  apply Finds.of_step
  filter_upwards [hfound] with bound hbound
  cases first with
  | word name =>
      have hnames : name ≠ "if" ∧ name ≠ "fn" := by simpa [opens] using hopens
      simp only [List.cons_append] at hbound ⊢
      simp only [step, if_neg hnames.1, if_neg hnames.2, hbound]
  | _ => exact hbound

/-- A prefix place reads an atom, if the tokens do not open with a prefix. -/
theorem settles_unary {tokens : List Token} {tree : Tree} (hstarts : Starts .atom tokens)
    (h : Settles .atom tokens tree) : Settles .unary tokens tree := by
  intro rest hclear
  have hfound := h rest hclear.tighten
  obtain ⟨first, others, rfl, hopens⟩ := hstarts
  apply Finds.of_step
  filter_upwards [hfound] with bound hbound
  cases first with
  | symbol symbol =>
      cases symbol with
      | arithmetic op => cases op <;> first | exact hbound | cases hopens
      | bang => cases hopens
      | _ => exact hbound
  | _ => exact hbound

/-- The loop of a place goes on from an operand of the next tighter place. -/
theorem continues_of_operand {place : Precedence} (hplace : place = .add ∨ place = .mult)
    {tokens : List Token} {tree : Tree} (h : Settles (tighter place) tokens tree) :
    Continues place tokens tree := by
  intro rest trees last hgrip hafter
  have hclear : Clear (tighter place) rest := by
    right
    rcases hplace with rfl | rfl <;> exact lt_of_le_of_lt hgrip (by decide)
  have hfound := h rest hclear
  apply Finds.of_step
  filter_upwards [hfound, hafter] with bound hbound hloop
  rcases hplace with rfl | rfl <;> simp only [step, hbound, one_some, hloop]

/-- A comparison place reads an operand that no comparison follows. -/
theorem settles_compare {tokens : List Token} {tree : Tree} (h : Settles .add tokens tree) :
    Settles .compare tokens tree := by
  intro rest hclear
  have hfound := h rest hclear.tighten
  have hafter := finds_after_of_clear (.inl rfl) hclear tree
  apply Finds.of_step
  filter_upwards [hfound, hafter] with bound hbound hloop
  simp only [step, tighter, hbound, one_some, hloop]

/-- Each place reads what the next tighter place does. -/
theorem complete_tighten {place : Precedence} (hplace : place ≠ .atom) {tokens : List Token}
    {tree : Tree} (hstarts : Starts (tighter place) tokens)
    (h : Complete (.expression (tighter place)) tokens [tree]) :
    Complete (.expression place) tokens [tree] := by
  cases place with
  | loose => exact complete_of_settles rfl (settles_loose hstarts h.settles)
  | or => exact complete_of_settles rfl (settles_of_operand .or h.settles)
  | and => exact complete_of_settles rfl (settles_of_operand .and h.settles)
  | compare => exact complete_of_settles rfl (settles_compare h.settles)
  | add => exact complete_of_continues rfl (continues_of_operand (.inl rfl) h.settles)
  | mult => exact complete_of_continues rfl (continues_of_operand (.inr rfl) h.settles)
  | unary => exact complete_of_settles rfl (settles_unary hstarts h.settles)
  | atom => exact absurd rfl hplace

/-- Operands of a connective settle as one chain. -/
theorem settles_chain {op : BoolOp} {tokens : List Token} {first second : Tree}
    {others : List Tree}
    (h : Complete (.separated (.connective op) (tighter (connectivePlace op))) tokens
      (first :: second :: others)) :
    Settles (connectivePlace op) tokens (.chain op (first :: second :: others)) := by
  intro rest hclear
  have hhead : rest.head? ≠ some (.symbol (.connective op)) := by
    intro hhead
    obtain ⟨others, rfl⟩ := List.head?_eq_some_iff.mp hhead
    cases op <;> simp [Clear, grip, connectivePlace, Precedence.rank] at hclear
  have hfound := h (separates_connective op) rest hclear.tighten hhead
  apply Finds.of_step
  filter_upwards [hfound] with bound hbound
  cases op <;> simp_all [step, joinOperands, connectivePlace, tighter]

/-- The braces of a conditional say where its parts end. -/
theorem settles_conditional {cs as bs : List Token} {c a b : Tree} (hc : Settles .loose cs c)
    (ha : Settles .loose as a) (hb : Settles .loose bs b) :
    Settles .loose (.word "if" :: cs ++ bracketed .brace as ++ .word "else" :: bracketed .brace bs)
      (.conditional c a b) := by
  intro rest _
  have hc' := hc (bracketed .brace as ++ .word "else" :: bracketed .brace bs ++ rest)
    (clear_opening_brace _ _)
  have ha' := ha (.symbol (.closing .brace) :: .word "else" :: bracketed .brace bs ++ rest)
    (clear_closing _ _ _)
  have hb' := hb (.symbol (.closing .brace) :: rest) (clear_closing _ _ _)
  apply Finds.of_step
  filter_upwards [hc', ha', hb'] with bound hcb hab hbb
  simp only [bracketed, List.append_assoc, List.cons_append, List.nil_append] at hcb hab hbb ⊢
  simp only [step, if_true, hcb, hab, hbb, one_some, skip_cons]

/-- The braces of a function say where its body ends. -/
theorem settles_function {names : List String} {ts : List Token} {t : Tree}
    (h : Settles .loose ts t) :
    Settles .loose (.word "fn" :: bracketed .round (parameterTokens names) ++ bracketed .brace ts)
      (.function names t) := by
  intro rest _
  have hbody := h (.symbol (.closing .brace) :: rest) (clear_closing _ _ _)
  apply Finds.of_step
  filter_upwards [hbody] with bound hbound
  have hnames := readParameters_append names
    (.symbol (.opening .brace) :: ts ++ .symbol (.closing .brace) :: rest)
  have hword : ("fn" : String) ≠ "if" := by decide
  simp only [bracketed, List.append_assoc, List.cons_append, List.nil_append] at hnames ⊢
  simp only [step, if_neg hword, if_true, skip_cons, hnames, hbound, one_some]

/-- Two sides of a comparison settle as one, since comparisons do not chain. -/
theorem settles_comparison {op : Comparison} {ls rs : List Token} {l r : Tree}
    (hl : Settles .add ls l) (hr : Settles .add rs r) :
    Settles .compare (ls ++ .symbol (.comparison op) :: rs) (.compare op l r) := by
  intro rest hclear
  have hgrip : Precedence.compare.rank < Precedence.add.rank := by decide
  have hleft := hl (.symbol (.comparison op) :: rs ++ rest) (.inr hgrip)
  have hright := hr rest hclear.tighten
  have hafter : Finds (.after .compare l) (.symbol (.comparison op) :: rs ++ rest)
      [.compare op l r] rest := by
    apply Finds.of_step
    filter_upwards [hright] with bound hbound
    simp only [List.cons_append, step, hbound, one_some]
  apply Finds.of_step
  filter_upwards [hleft, hafter] with bound hbound hloop
  simp only [List.append_assoc, List.cons_append] at hbound hloop ⊢
  simp only [step, tighter, hbound, one_some, hloop]

/-- An operation takes the loop of its place one round further. -/
theorem continues_arithmetic {op : Arithmetic} {ls rs : List Token} {l r : Tree}
    (hl : Continues op.place ls l) (hr : Settles (tighter op.place) rs r) :
    Continues op.place (ls ++ .symbol (.arithmetic op) :: rs) (.arithmetic op l r) := by
  intro rest trees last hgrip hafter
  have hclear : Clear (tighter op.place) rest := by
    refine .inr (lt_of_le_of_lt hgrip ?_)
    cases op <;> decide
  have hright := hr rest hclear
  have hround : Finds (.after op.place l) (.symbol (.arithmetic op) :: rs ++ rest) trees last := by
    apply Finds.of_step
    filter_upwards [hright, hafter] with bound hbound hloop
    cases op <;> simp_all [step, Arithmetic.place]
  simpa using hl _ trees last le_rfl hround

/-- A sign settles with its operand. -/
theorem settles_negative {ts : List Token} {t : Tree} (h : Settles .unary ts t) :
    Settles .unary (.symbol (.arithmetic .sub) :: ts) (.negative t) := by
  intro rest hclear
  apply Finds.of_step
  filter_upwards [h rest hclear] with bound hbound
  simp only [List.cons_append, step, hbound, one_some]

theorem settles_not {ts : List Token} {t : Tree} (h : Settles .unary ts t) :
    Settles .unary (.symbol .bang :: ts) (.not t) := by
  intro rest hclear
  apply Finds.of_step
  filter_upwards [h rest hclear] with bound hbound
  simp only [List.cons_append, step, hbound, one_some]

/-- A postfix takes the loop of atoms one round further. -/
theorem continues_postfix {ts suffix : List Token} {t t' : Tree} (h : Continues .atom ts t)
    (hround : ∀ rest trees last, Finds (.after .atom t') rest trees last →
      Finds (.after .atom t) (suffix ++ rest) trees last)
    (hgrip : ∀ rest, grip (suffix ++ rest) ≤ Precedence.atom.rank) :
    Continues .atom (ts ++ suffix) t' := by
  intro rest trees last _ hafter
  simpa using h (suffix ++ rest) trees last (hgrip rest) (hround rest trees last hafter)

/-- A field of an atom may be followed by more suffixes. -/
theorem continues_field {ts : List Token} {t : Tree} {label : String}
    (h : Continues .atom ts t) :
    Continues .atom (ts ++ [.symbol .dot, .word label]) (.field t label) := by
  refine continues_postfix h (fun rest trees last hafter => ?_) fun rest => le_rfl
  apply Finds.of_step
  filter_upwards [hafter] with bound hbound
  simpa only [List.cons_append, List.nil_append, step] using hbound

/-- So may an index. -/
theorem continues_index {ts is : List Token} {t i : Tree} (h : Continues .atom ts t)
    (hi : Settles .loose is i) :
    Continues .atom (ts ++ bracketed .square is) (.index t i) := by
  refine continues_postfix h (fun rest trees last hafter => ?_) fun rest => le_rfl
  have hposition := hi (.symbol (.closing .square) :: rest) (clear_closing _ _ _)
  apply Finds.of_step
  filter_upwards [hposition, hafter] with bound hbound hloop
  simp only [bracketed, List.append_assoc, List.cons_append, List.nil_append] at hbound ⊢
  simp only [step, hbound, one_some, skip_cons, hloop]

/-- So may arguments. -/
theorem continues_apply {ts as : List Token} {t : Tree} {args : List Tree}
    (h : Continues .atom ts t) (hargs : Complete .arguments as args) :
    Continues .atom (ts ++ bracketed .round as) (.apply t args) := by
  refine continues_postfix h (fun rest trees last hafter => ?_) fun rest => le_rfl
  have harguments := hargs .round rest
  apply Finds.of_step
  filter_upwards [harguments, hafter] with bound hbound hloop
  simp only [bracketed, List.append_assoc, List.cons_append, List.nil_append] at hbound ⊢
  simp only [step, hbound, skip_cons, hloop]

/-- An atom without postfixes enters the loop of atoms. -/
theorem continues_primary {tokens : List Token} {tree : Tree}
    (h : ∀ rest, Finds .primary (tokens ++ rest) [tree] rest) :
    Continues .atom tokens tree := by
  intro rest trees last _ hafter
  apply Finds.of_step
  filter_upwards [h rest, hafter] with bound hbound hloop
  simp only [step, hbound, one_some, hloop]

/-- A word that is no keyword is a name. -/
theorem finds_primary_word {id : String} (hid : id ∉ keywords) (rest : List Token) :
    Finds .primary (.word id :: rest) [.name id] rest := by
  have hliteral : (Token.word id).literal? = none := by
    simp only [keywords, List.mem_cons, not_or] at hid
    simp [Token.literal?, hid]
  refine .of_step (.of_forall fun bound => ?_)
  simp [step, hliteral]

/-- A literal is found as itself. -/
theorem finds_primary_literal {token : Token} {value : Literal}
    (hvalue : token.literal? = some value) (rest : List Token) :
    Finds .primary (token :: rest) [.literal value] rest := by
  refine .of_step (.of_forall fun bound => ?_)
  cases token with
  | symbol symbol => cases hvalue
  | _ => simp [step, hvalue]

/-- Expressions in round brackets are read as one tree: a group or a tuple. -/
theorem finds_primary_round {ts : List Token} {trees : List Tree} {tree : Tree}
    (h : ∀ rest, Finds (.separated .comma .loose) (ts ++ .symbol (.closing .round) :: rest) trees
      (.symbol (.closing .round) :: rest))
    (hjoin : joinItems trees = [tree]) (rest : List Token) :
    Finds .primary (bracketed .round ts ++ rest) [tree] rest := by
  apply Finds.of_step
  filter_upwards [h rest] with bound hbound
  simp only [bracketed, List.append_assoc, List.cons_append, List.nil_append]
  simp only [step, hbound, skip_cons, hjoin]

/-- Items in square brackets are a list. -/
theorem finds_primary_square {ts : List Token} {items : List Tree}
    (h : Complete .arguments ts items) (rest : List Token) :
    Finds .primary (bracketed .square ts ++ rest) [.list items] rest := by
  apply Finds.of_step
  filter_upwards [h .square rest] with bound hbound
  simp only [bracketed, List.append_assoc, List.cons_append, List.nil_append] at hbound ⊢
  simp only [step, hbound, skip_cons]

/-- The last expression between separators. -/
theorem complete_one {separator : Symbol} {place : Precedence} {ts : List Token} {t : Tree}
    (h : Settles place ts t) : Complete (.separated separator place) ts [t] := by
  intro _ rest hclear hhead
  apply Finds.of_step
  filter_upwards [h rest hclear] with bound hbound
  simp only [step, hbound, one_some]
  cases rest with
  | nil => rfl
  | cons token rest =>
      cases token with
      | symbol symbol =>
          have hsymbol : symbol ≠ separator := by rintro rfl; exact hhead rfl
          simp only [if_neg hsymbol]
      | _ => rfl

/-- An expression before a separator. -/
theorem complete_more {separator : Symbol} {place : Precedence} {ts us : List Token} {t : Tree}
    {trees : List Tree} (h : Settles place ts t)
    (hmore : Complete (.separated separator place) us trees) :
    Complete (.separated separator place) (ts ++ .symbol separator :: us) (t :: trees) := by
  intro hseparator rest hclear hhead
  have hfirst := h (.symbol separator :: us ++ rest) (hseparator _)
  have hothers := hmore hseparator rest hclear hhead
  apply Finds.of_step
  filter_upwards [hfirst, hothers] with bound hbound hrest
  simp only [List.append_assoc, List.cons_append] at hbound ⊢
  simp only [step, hbound, one_some, if_true, hrest, Option.map_some]

/-- Expressions between commas are found before a closing bracket. -/
theorem finds_items {ts : List Token} {trees : List Tree}
    (h : Complete (.separated .comma .loose) ts trees) (bracket : Bracket) (rest : List Token) :
    Finds (.separated .comma .loose) (ts ++ .symbol (.closing bracket) :: rest) trees
      (.symbol (.closing bracket) :: rest) :=
  h (separates_comma _) _ (clear_closing _ _ _) (by simp)

/-- Arguments with commas are complete if there are any. -/
theorem complete_someArguments {ts : List Token} {trees : List Tree} (hstarts : Starts .loose ts)
    (h : Complete (.separated .comma .loose) ts trees) : Complete .arguments ts trees := by
  intro closing rest
  obtain ⟨first, others, rfl, hopens⟩ := hstarts
  have hfirst : first ≠ .symbol (.closing closing) := by
    rintro rfl
    cases hopens
  apply Finds.of_step
  filter_upwards [finds_items h closing rest] with bound hbound
  simp only [List.cons_append] at hbound ⊢
  simp [step, hfirst, hbound]

/-- Whatever the grammar derives, the reader finds. -/
theorem Derives.complete {form : Form} {tokens : List Token} {trees : List Tree}
    (h : Derives form tokens trees) : Complete form tokens trees := by
  induction h with
  | tighten hplace hderives ih => exact complete_tighten hplace hderives.starts ih
  | conditional _ _ _ ihc iha ihb =>
      exact complete_of_settles rfl (settles_conditional ihc.settles iha.settles ihb.settles)
  | function _ _ ih => exact complete_of_settles rfl (settles_function ih.settles)
  | @chain op _ _ _ _ _ ih =>
      exact complete_of_settles (by cases op <;> rfl) (settles_chain ih)
  | compare _ _ ihl ihr =>
      exact complete_of_settles rfl (settles_comparison ihl.settles ihr.settles)
  | @arithmetic op _ _ _ _ _ _ ihl ihr =>
      have hplace : loops op.place = true := by cases op <;> rfl
      exact complete_of_continues hplace (continues_arithmetic (ihl.continues hplace) ihr.settles)
  | negative _ ih => exact complete_of_settles rfl (settles_negative ih.settles)
  | not _ ih => exact complete_of_settles rfl (settles_not ih.settles)
  | field _ ih => exact complete_of_continues rfl (continues_field (ih.continues rfl))
  | index _ _ ih ihi =>
      exact complete_of_continues rfl (continues_index (ih.continues rfl) ihi.settles)
  | apply _ _ ih ihargs =>
      exact complete_of_continues rfl (continues_apply (ih.continues rfl) ihargs)
  | name hid => exact complete_of_continues rfl (continues_primary (finds_primary_word hid))
  | literal hvalue =>
      exact complete_of_continues rfl (continues_primary (finds_primary_literal hvalue))
  | group _ ih =>
      refine complete_of_continues rfl (continues_primary ?_)
      exact finds_primary_round (finds_items (complete_one ih.settles) .round) rfl
  | tuple _ ih =>
      exact complete_of_continues rfl
        (continues_primary (finds_primary_round (finds_items ih .round) rfl))
  | list _ ih => exact complete_of_continues rfl (continues_primary (finds_primary_square ih))
  | one _ ih => exact complete_one ih.settles
  | more _ _ ih ihmore => exact complete_more ih.settles ihmore
  | noArguments =>
      intro closing rest
      exact .of_step (.of_forall fun bound => by simp [step])
  | someArguments hderives ih => exact complete_someArguments hderives.starts ih

/-- Tokens are derived from an expression with one tree at most. -/
theorem Derives.unique {tokens : List Token} {tree tree' : Tree}
    (h : Derives (.expression .loose) tokens [tree])
    (h' : Derives (.expression .loose) tokens [tree']) : tree = tree' := by
  have hfinds := h.complete.settles [] (.inl rfl)
  have hfinds' := h'.complete.settles [] (.inl rfl)
  exact List.singleton_inj.mp (hfinds.unique hfinds')

/-- A text reads as one tree at most. -/
theorem Reads.unique {text : String} {tree tree' : Tree} (h : Reads text tree)
    (h' : Reads text tree') : tree = tree' := by
  obtain ⟨tokens, hscans, hderives⟩ := h
  obtain ⟨tokens', hscans', hderives'⟩ := h'
  obtain rfl := hscans.unique hscans'
  exact hderives.unique hderives'

end AikenForge.Readback
