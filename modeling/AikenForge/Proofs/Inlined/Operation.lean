/-
# Operations and their operands

An operation between the tokens of two operands reads as the operation over their trees exactly if
each operand binds tightly enough for its side. That they are whole operands is seen by counting: a
tree has as many operators as the tokens that it is derived from, in brackets or not, so an operand
that began together with another one and had the same tree would end together with it.
-/

import AikenForge.Proofs.Grouping
import AikenForge.Proofs.Inlined.Weakest

namespace AikenForge.Readback

open AikenForge.Source

/-! ## Counting operators -/

def Symbol.isOperator : Symbol → Bool
  | .connective _ | .comparison _ | .arithmetic _ | .bang => true
  | _ => false

def Token.isOperator : Token → Bool
  | .symbol s => s.isOperator
  | _ => false

mutual

/-- How many operators a tree has; a chain has one between two of its operands. -/
def Tree.operators : Tree → Nat
  | .name _ | .literal _ => 0
  | .field value _ => value.operators
  | .index value position => value.operators + position.operators
  | .apply callee args => callee.operators + operatorsAll args
  | .list items | .tuple items => operatorsAll items
  | .negative operand | .not operand => operand.operators + 1
  | .arithmetic _ left right | .compare _ left right => left.operators + right.operators + 1
  | .chain _ operands => operatorsAll operands + (operands.length - 1)
  | .conditional test body orelse => test.operators + body.operators + orelse.operators
  | .function _ body => body.operators

/-- How many operators trees have. -/
def Tree.operatorsAll : List Tree → Nat
  | [] => 0
  | tree :: rest => tree.operators + operatorsAll rest

end

/-- How many operators are among tokens. -/
def operatorCount (tokens : List Token) : Nat :=
  tokens.countP Token.isOperator

@[simp]
theorem operatorCount_nil : operatorCount [] = 0 :=
  rfl

/-- Operators add up over tokens. -/
@[simp]
theorem operatorCount_append (ts us : List Token) :
    operatorCount (ts ++ us) = operatorCount ts + operatorCount us :=
  List.countP_append

theorem operatorCount_cons (token : Token) (ts : List Token) :
    operatorCount (token :: ts) = operatorCount ts + if token.isOperator then 1 else 0 :=
  List.countP_cons

@[simp]
theorem operatorCount_word (name : String) (ts : List Token) :
    operatorCount (.word name :: ts) = operatorCount ts :=
  operatorCount_cons _ _

@[simp]
theorem operatorCount_symbol (symbol : Symbol) (ts : List Token) :
    operatorCount (.symbol symbol :: ts) =
      operatorCount ts + if symbol.isOperator then 1 else 0 :=
  operatorCount_cons _ _

/-- Brackets are no operators, and what is inside them counts. -/
@[simp]
theorem operatorCount_bracketed (bracket : Bracket) (ts : List Token) :
    operatorCount (bracketed bracket ts) = operatorCount ts := by
  simp [bracketed, Symbol.isOperator]

/-- Parameter names with commas have no operators. -/
theorem operatorCount_parameterTokens (names : List String) :
    operatorCount (parameterTokens names) = 0 := by
  induction names with
  | nil => rfl
  | cons name names ih =>
      cases names with
      | nil => simp [parameterTokens]
      | cons second names => simp [parameterTokens, ih, Symbol.isOperator]

/-- Tokens have the operators of their trees; a row has its separators besides. -/
def Counted : Form → List Token → List Tree → Prop
  | .separated separator _, ts, trees =>
    operatorCount ts + (if separator.isOperator then 1 else 0) =
      Tree.operatorsAll trees + if separator.isOperator then trees.length else 0
  | _, ts, trees => operatorCount ts = Tree.operatorsAll trees

/-- The operators in tokens are those of the trees that they derive. -/
theorem Derives.counted {form : Form} {tokens : List Token} {trees : List Tree}
    (h : Derives form tokens trees) : Counted form tokens trees := by
  induction h with
  | tighten _ _ ih => exact ih
  | one _ ih =>
      simp only [Counted, Tree.operatorsAll] at ih ⊢
      split <;> simp [ih]
  | more _ _ ih ihmore =>
      simp only [Counted, Tree.operatorsAll, operatorCount_append, operatorCount_symbol,
        List.length_cons] at ih ihmore ⊢
      split at ihmore <;> simp_all
      omega
  | someArguments _ ih => simpa [Counted, Symbol.isOperator] using ih
  | tuple _ ih =>
      simpa [Counted, Tree.operatorsAll, Tree.operators, Symbol.isOperator] using ih
  | chain _ ih =>
      simp only [Counted, Tree.operatorsAll, Tree.operators, Symbol.isOperator, if_true,
        List.length_cons] at ih ⊢
      omega
  | function _ _ ih =>
      simpa [Counted, Tree.operatorsAll, Tree.operators, operatorCount_parameterTokens] using ih
  | @literal token _ hvalue =>
      cases token with
      | symbol _ => cases hvalue
      | _ => rfl
  | noArguments => rfl
  | name _ => rfl
  | _ =>
      simp_all only [Counted, Tree.operatorsAll, Tree.operators, operatorCount_append,
        operatorCount_symbol, operatorCount_word, operatorCount_bracketed, operatorCount_nil,
        Symbol.isOperator, if_true, Bool.false_eq_true, if_false] <;> omega

/-- A tree has the operators of the tokens that it is derived from. -/
theorem Derives.operatorCount_eq {place : Precedence} {tokens : List Token} {tree : Tree}
    (h : Derives (.expression place) tokens [tree]) : operatorCount tokens = tree.operators :=
  h.counted

/-- A row of tokens is cut at an operator in one way only with as many operators before it. -/
theorem append_operator_inj {ls ls' rs rs' : List Token} {s s' : Token} (hs : s.isOperator = true)
    (hs' : s'.isOperator = true) (heq : ls ++ s :: rs = ls' ++ s' :: rs')
    (hcount : operatorCount ls = operatorCount ls') : ls = ls' ∧ s = s' ∧ rs = rs' := by
  obtain ⟨others, hls, hrest⟩ | ⟨others, hls, hrest⟩ := List.append_eq_append_iff.mp heq
  all_goals
    cases others with
    | nil => simp_all
    | cons first others =>
        obtain ⟨rfl, -⟩ := List.cons.inj hrest
        rw [hls, operatorCount_append, operatorCount_cons] at hcount
        simp only [hs, hs', if_true] at hcount
        omega

/-! ## Operations -/

/-- What stands between two operands. -/
inductive Operation
  | connective (op : BoolOp)
  | comparison (op : Comparison)
  | arithmetic (op : Arithmetic)

def Operation.symbol : Operation → Symbol
  | .connective op => .connective op
  | .comparison op => .comparison op
  | .arithmetic op => .arithmetic op

/-- The place of an operation as an expression. -/
def Operation.place : Operation → Precedence
  | .connective op => connectivePlace op
  | .comparison _ => .compare
  | .arithmetic op => op.place

/-- The place of what stands before an operation. A chain of one connective runs together. -/
def Operation.leftPlace : Operation → Precedence
  | .connective op => connectivePlace op
  | .comparison _ => .add
  | .arithmetic op => op.place

/-- The place of what stands after an operation. -/
def Operation.rightPlace : Operation → Precedence
  | .connective op => connectivePlace op
  | .comparison _ => .add
  | .arithmetic op => tighter op.place

/-- The tree of an operation over the trees of its operands. -/
def Operation.tree : Operation → Tree → Tree → Tree
  | .connective op, left, right => .chain op (spread op left ++ spread op right)
  | .comparison op, left, right => .compare op left right
  | .arithmetic op, left, right => .arithmetic op left right

/-- Tokens read as a tree, and not for being in brackets: the weakest operator outside brackets is
the one at the root. -/
structure Stands (tokens : List Token) (tree : Tree) : Prop where
  derives : Derives (.expression tree.place) tokens [tree]
  weighs : Weighs tree.place tokens

variable {ts ls rs : List Token} {t left right : Tree}

/-- Tokens that stand for a tree derive it at every place that is no tighter than its own. -/
theorem Stands.derives_iff (h : Stands ts t) (place : Precedence) :
    Derives (.expression place) ts [t] ↔ place.rank ≤ t.place.rank := by
  obtain ⟨own, hweighs, -, hplaces⟩ := h.derives.exists_weighs
  rw [hplaces, hweighs.unique h.weighs]

@[simp]
theorem Operation.place_tree (operation : Operation) (left right : Tree) :
    (operation.tree left right).place = operation.place := by
  cases operation <;> rfl

theorem Operation.isOperation (operation : Operation) :
    IsOperation operation.place operation.symbol := by
  cases operation <;> exact fun _ => rfl

/-- A left operand binds at least as tightly as its operation. -/
theorem Operation.rank_le_leftPlace (operation : Operation) :
    operation.place.rank ≤ operation.leftPlace.rank := by
  obtain op | op | op := operation <;> cases op <;> decide

/-- A right operand binds at least as tightly as its operation. -/
theorem Operation.rank_le_rightPlace (operation : Operation) :
    operation.place.rank ≤ operation.rightPlace.rank := by
  obtain op | op | op := operation <;> cases op <;> decide

theorem Operation.place_ne_atom (operation : Operation) : operation.place ≠ .atom := by
  obtain op | op | op := operation <;> cases op <;> decide

/-- What the tokens of a tree are, by the rule that gives its root. -/
def Rooted (tokens : List Token) : Tree → Prop
  | .chain op operands =>
    Derives (.separated (.connective op) (tighter (connectivePlace op))) tokens operands
  | .compare op left right =>
    ∃ ls rs, tokens = ls ++ .symbol (.comparison op) :: rs ∧
      Derives (.expression .add) ls [left] ∧ Derives (.expression .add) rs [right]
  | .arithmetic op left right =>
    ∃ ls rs, tokens = ls ++ .symbol (.arithmetic op) :: rs ∧
      Derives (.expression op.place) ls [left] ∧ Derives (.expression (tighter op.place)) rs [right]
  | _ => True

/-- A tree comes from the rule of its root, unless it is in brackets. -/
theorem Derives.rooted {place : Precedence} (h : Derives (.expression place) ts [t]) :
    Rooted ts t ∨ Derives (.expression .atom) ts [t] := by
  generalize hform : Form.expression place = form at h
  generalize htrees : [t] = trees at h
  induction h generalizing place with
  | tighten _ _ ih =>
      cases hform
      exact ih rfl htrees
  | chain hoperands _ =>
      cases htrees
      exact .inl hoperands
  | compare hl hr _ _ =>
      cases htrees
      exact .inl ⟨_, _, rfl, hl, hr⟩
  | arithmetic hl hr _ _ =>
      cases htrees
      exact .inl ⟨_, _, rfl, hl, hr⟩
  | group hinside _ =>
      cases htrees
      exact .inr (.group hinside)
  | one | more | noArguments | someArguments => cases hform
  | _ =>
      cases htrees
      exact .inl trivial

/-- Tokens that stand for a tree come from the rule of its root. -/
theorem Stands.rooted (h : Stands ts t) (hne : t.place ≠ .atom) : Rooted ts t := by
  obtain hrooted | hatom := h.derives.rooted
  · exact hrooted
  · exact absurd (eq_atom_of_rank_le ((h.derives_iff _).mp hatom)) hne

/-- Outside brackets an operand of a connective gives the operands that its tree adds to the
chain. -/
theorem Stands.spread {op : BoolOp} (h : Stands ts t)
    (hplace : (connectivePlace op).rank ≤ t.place.rank) :
    Derives (.separated (.connective op) (tighter (connectivePlace op))) ts (spread op t) := by
  have hne : connectivePlace op ≠ .atom := by cases op <;> decide
  by_cases hroot : t.place = connectivePlace op
  · have hrooted := h.rooted (hroot ▸ hne)
    cases t with
    | chain own operands =>
        have hown : own = op := by
          cases own <;> cases op <;> first | rfl | cases hroot
        subst hown
        rw [show Readback.spread own (.chain own operands) = operands from if_pos rfl]
        exact hrooted
    | arithmetic own => cases own <;> cases op <;> cases hroot
    | _ => cases op <;> cases hroot
  · have hspread : Readback.spread op t = [t] := by
      cases t with
      | chain own operands =>
          have hown : own ≠ op := by
            rintro rfl
            exact hroot rfl
          exact if_neg hown
      | _ => rfl
    rw [hspread]
    refine .one ((h.derives_iff _).mpr ?_)
    rw [tighter_rank hne]
    have hstrict : (connectivePlace op).rank ≠ t.place.rank :=
      fun hrank => hroot (rank_injective hrank).symm
    omega

/-- Two operands or more make a chain of a connective. -/
theorem derives_chain {op : BoolOp} {operands : List Tree} (hlength : 2 ≤ operands.length)
    (h : Derives (.separated (.connective op) (tighter (connectivePlace op))) ts operands) :
    Derives (.expression (connectivePlace op)) ts [.chain op operands] := by
  match operands, hlength with
  | first :: second :: others, _ => exact .chain h

/-- Operands that bind tightly enough for their sides make an operation. -/
theorem Stands.operation {operation : Operation} (hl : Stands ls left) (hr : Stands rs right)
    (hleft : operation.leftPlace.rank ≤ left.place.rank)
    (hright : operation.rightPlace.rank ≤ right.place.rank) :
    Stands (ls ++ .symbol operation.symbol :: rs) (operation.tree left right) := by
  have hweighs := hl.weighs.operation operation.isOperation hr.weighs
  rw [weaker_operation (operation.rank_le_leftPlace.trans hleft)
    (operation.rank_le_rightPlace.trans hright)] at hweighs
  refine ⟨?_, by rwa [Operation.place_tree]⟩
  rw [Operation.place_tree]
  cases operation with
  | connective op =>
      have hfirst := hl.spread hleft
      have hsecond := hr.spread hright
      have hlength := List.length_pos_iff.mpr hfirst.separated_ne_nil
      have hlength' := List.length_pos_iff.mpr hsecond.separated_ne_nil
      refine derives_chain ?_ (hfirst.separated_append hsecond)
      rw [List.length_append]
      omega
  | comparison op => exact .compare ((hl.derives_iff _).mpr hleft) ((hr.derives_iff _).mpr hright)
  | arithmetic op =>
      exact .arithmetic ((hl.derives_iff _).mpr hleft) ((hr.derives_iff _).mpr hright)

/-- An operation between operands reads as the operation over their trees exactly if both operands
bind tightly enough for their sides. -/
theorem operation_derives_iff (hl : Stands ls left) (hr : Stands rs right) (operation : Operation) :
    Derives (.expression .loose) (ls ++ .symbol operation.symbol :: rs)
        [operation.tree left right] ↔
      operation.leftPlace.rank ≤ left.place.rank ∧
      operation.rightPlace.rank ≤ right.place.rank := by
  constructor
  · intro h
    have hweighs := hl.weighs.operation operation.isOperation hr.weighs
    obtain ⟨own, hown, hroot, hplaces⟩ := h.exists_weighs
    obtain rfl := hweighs.unique hown
    simp only [Operation.place_tree, rank_weaker] at hroot hplaces
    have hrooted := h.rooted.resolve_right fun hatom => by
      have hle := (hplaces _).mp hatom
      have hne := operation.place_ne_atom
      exact hne (eq_atom_of_rank_le (by omega))
    cases operation with
    | connective op =>
        exact ⟨hroot.trans (Nat.min_le_left _ _),
          hroot.trans ((Nat.min_le_right _ _).trans (Nat.min_le_right _ _))⟩
    | comparison op | arithmetic op =>
        -- The operands by which the operation was read are the ones that stand there.
        obtain ⟨ls', rs', htokens, hl', hr'⟩ := hrooted
        obtain ⟨rfl, -, rfl⟩ := append_operator_inj (by rfl) (by rfl) htokens
          (hl.derives.operatorCount_eq.trans hl'.operatorCount_eq.symm)
        exact ⟨(hl.derives_iff _).mp hl', (hr.derives_iff _).mp hr'⟩
  · rintro ⟨hleft, hright⟩
    exact (hl.operation hr hleft hright).derives.loosen (Nat.zero_le _)

/-! ## Signs and suffixes -/

/-- What stands before an operand. -/
inductive Sign
  | minus
  | not

def Sign.symbol : Sign → Symbol
  | .minus => .arithmetic .sub
  | .not => .bang

def Sign.tree : Sign → Tree → Tree
  | .minus, operand => .negative operand
  | .not, operand => .not operand

@[simp]
theorem Sign.place_tree (sign : Sign) (operand : Tree) : (sign.tree operand).place = .unary := by
  cases sign <;> rfl

theorem Sign.isSign (sign : Sign) : IsSign sign.symbol := by
  cases sign <;> exact fun _ => rfl

/-- A sign in front of tokens that stand for a tree. -/
theorem Stands.signed (h : Stands ts t) (sign : Sign)
    (hplace : Precedence.unary.rank ≤ t.place.rank) :
    Stands (.symbol sign.symbol :: ts) (sign.tree t) := by
  have hweighs := h.weighs.signed sign.isSign
  rw [weaker_of_le hplace] at hweighs
  refine ⟨?_, by rwa [Sign.place_tree]⟩
  rw [Sign.place_tree]
  cases sign with
  | minus => exact .negative ((h.derives_iff _).mpr hplace)
  | not => exact .not ((h.derives_iff _).mpr hplace)

/-- What stands after an operand. Brackets hold one name. -/
inductive Suffix
  | field (label : String)
  | position
  | arguments

def Suffix.tokens : Suffix → List Token
  | .field label => [.symbol .dot, .word label]
  | .position => bracketed .square [.word "_"]
  | .arguments => bracketed .round [.word "_"]

def Suffix.tree : Suffix → Tree → Tree
  | .field label, base => .field base label
  | .position, base => .index base (.name "_")
  | .arguments, base => .apply base [.name "_"]

@[simp]
theorem Suffix.place_tree (suffix : Suffix) (base : Tree) : (suffix.tree base).place = .atom := by
  cases suffix <;> rfl

theorem Suffix.isSuffix (suffix : Suffix) : IsSuffix suffix.tokens := by
  cases suffix with
  | field label => exact isSuffix_field label
  | position | arguments => exact isSuffix_bracketed (hidden_nil.word _) _

/-- The blank of an outline is an atom at every place. -/
theorem derives_blank (place : Precedence) : Derives (.expression place) [.word "_"] [.name "_"] :=
  (Derives.name (by decide)).loosen (rank_le_atom place)

/-- A suffix after tokens that stand for an atom. -/
theorem Stands.suffixed (h : Stands ts t) (suffix : Suffix)
    (hplace : Precedence.atom.rank ≤ t.place.rank) :
    Stands (ts ++ suffix.tokens) (suffix.tree t) := by
  have hweighs := h.weighs.suffixed suffix.isSuffix
  rw [eq_atom_of_rank_le hplace] at hweighs
  refine ⟨?_, by rwa [Suffix.place_tree]⟩
  have hbase := (h.derives_iff _).mpr hplace
  rw [Suffix.place_tree]
  cases suffix with
  | field label => exact .field hbase
  | position => exact .index hbase (derives_blank _)
  | arguments => exact .apply hbase (.someArguments (.one (derives_blank _)))

/-! ## Tokens that bind -/

/-- Tokens begin as an expression does and bind as tightly as a place says, and unless they are a
conditional or a function they stand for a tree of that place. -/
structure Binds (place : Precedence) (ts : List Token) : Prop where
  starts : Starts .loose ts
  weighs : Weighs place ts
  stands : place ≠ .loose → ∃ t, t.place = place ∧ Stands ts t

variable {place own : Precedence}

/-- Tokens that stand for a tree bind as its place says. -/
theorem Stands.binds (h : Stands ts t) (hplace : t.place = place) : Binds place ts := by
  subst hplace
  exact ⟨(h.derives.loosen (Nat.zero_le _)).starts, h.weighs, fun _ => ⟨t, rfl, h⟩⟩

/-- Tokens that bind as tightly as some place other than the loosest stand for a tree. -/
theorem Binds.exists_stands (h : Binds own ts) (hplace : place.rank ≤ own.rank)
    (hne : place ≠ .loose) : ∃ t, t.place = own ∧ Stands ts t ∧ place.rank ≤ t.place.rank := by
  have hown : own ≠ .loose := by
    rintro rfl
    exact hne (rank_injective (Nat.le_zero.mp hplace))
  obtain ⟨t, htree, hstands⟩ := h.stands hown
  exact ⟨t, htree, hstands, htree ▸ hplace⟩

/-- What such tokens read as is what they stand for. -/
theorem Binds.stands_of_derives (h : Binds own ts) (hplace : place.rank ≤ own.rank)
    (hne : place ≠ .loose) (hderives : Derives (.expression .loose) ts [t]) :
    t.place = own ∧ Stands ts t := by
  obtain ⟨t', htree, hstands, -⟩ := h.exists_stands hplace hne
  obtain rfl := hderives.unique (hstands.derives.loosen (Nat.zero_le _))
  exact ⟨htree, hstands⟩

theorem Operation.place_ne_loose (op : Operation) : op.place ≠ .loose := by
  obtain op | op | op := op <;> cases op <;> decide

theorem Operation.leftPlace_ne_loose (op : Operation) : op.leftPlace ≠ .loose := by
  obtain op | op | op := op <;> cases op <;> decide

theorem Operation.rightPlace_ne_loose (op : Operation) : op.rightPlace ≠ .loose := by
  obtain op | op | op := op <;> cases op <;> decide

/-- A sign keeps tokens together that bind at least as tightly. -/
theorem Binds.signed (h : Binds own ts) (sign : Sign)
    (hplace : Precedence.unary.rank ≤ own.rank) : Binds .unary (.symbol sign.symbol :: ts) := by
  obtain ⟨t, -, hstands, htree⟩ := h.exists_stands hplace (by decide)
  exact (hstands.signed sign htree).binds (Sign.place_tree sign t)

/-- A suffix keeps an atom together. -/
theorem Binds.suffixed (h : Binds own ts) (suffix : Suffix)
    (hplace : Precedence.atom.rank ≤ own.rank) : Binds .atom (ts ++ suffix.tokens) := by
  obtain ⟨t, -, hstands, htree⟩ := h.exists_stands hplace (by decide)
  exact (hstands.suffixed suffix htree).binds (Suffix.place_tree suffix t)

/-- An operator keeps operands together that bind at least as tightly as their places ask. -/
theorem Binds.operation {leftOwn rightOwn : Precedence} {op : Operation} (hl : Binds leftOwn ls)
    (hr : Binds rightOwn rs) (hleft : op.leftPlace.rank ≤ leftOwn.rank)
    (hright : op.rightPlace.rank ≤ rightOwn.rank) :
    Binds op.place (ls ++ .symbol op.symbol :: rs) := by
  obtain ⟨l, -, hl, hleft⟩ := hl.exists_stands hleft op.leftPlace_ne_loose
  obtain ⟨r, -, hr, hright⟩ := hr.exists_stands hright op.rightPlace_ne_loose
  exact (hl.operation hr hleft hright).binds (Operation.place_tree op l r)

/-! ## Operands that are kept whole

Where two trees are read from the tokens of two operands, the operation between them is read over
these trees only if nothing is taken out of an operand. Likewise for signs and suffixes.
-/

/-- A sign before an operand reads as the sign over its tree exactly if the operand binds as tightly
as a sign. -/
theorem Binds.signed_iff (h : Binds own ts) (ht : Derives (.expression .loose) ts [t])
    (sign : Sign) :
    Derives (.expression .loose) (.symbol sign.symbol :: ts) [sign.tree t] ↔
      Precedence.unary.rank ≤ own.rank := by
  constructor
  · intro hsigned
    obtain ⟨all, hall, hroot, -⟩ := hsigned.exists_weighs
    obtain rfl := (h.weighs.signed sign.isSign).unique hall
    rw [Sign.place_tree, rank_weaker] at hroot
    exact hroot.trans (Nat.min_le_right _ _)
  · intro hplace
    obtain ⟨htree, hstands⟩ := h.stands_of_derives hplace (by decide) ht
    exact (hstands.signed sign (htree ▸ hplace)).derives.loosen (Nat.zero_le _)

/-- A suffix after an operand reads as the suffix over its tree exactly if the operand is an
atom. -/
theorem Binds.suffixed_iff (h : Binds own ts) (ht : Derives (.expression .loose) ts [t])
    (suffix : Suffix) :
    Derives (.expression .loose) (ts ++ suffix.tokens) [suffix.tree t] ↔
      Precedence.atom.rank ≤ own.rank := by
  constructor
  · intro hsuffixed
    obtain ⟨all, hall, hroot, -⟩ := hsuffixed.exists_weighs
    obtain rfl := (h.weighs.suffixed suffix.isSuffix).unique hall
    rwa [Suffix.place_tree] at hroot
  · intro hplace
    obtain ⟨htree, hstands⟩ := h.stands_of_derives hplace (by decide) ht
    exact (hstands.suffixed suffix (htree ▸ hplace)).derives.loosen (Nat.zero_le _)

/-- An operation between operands reads as the operation over their trees exactly if both operands
bind tightly enough for their sides. -/
theorem Binds.operation_iff {leftOwn rightOwn : Precedence} (hl : Binds leftOwn ls)
    (hr : Binds rightOwn rs) (hleft : Derives (.expression .loose) ls [left])
    (hright : Derives (.expression .loose) rs [right]) (op : Operation) :
    Derives (.expression .loose) (ls ++ .symbol op.symbol :: rs) [op.tree left right] ↔
      op.leftPlace.rank ≤ leftOwn.rank ∧ op.rightPlace.rank ≤ rightOwn.rank := by
  constructor
  · intro h
    obtain ⟨all, hall, hroot, -⟩ := h.exists_weighs
    obtain rfl := (hl.weighs.operation op.isOperation hr.weighs).unique hall
    simp only [Operation.place_tree, rank_weaker] at hroot
    have hleftRank := hroot.trans (Nat.min_le_left _ _)
    have hrightRank := hroot.trans ((Nat.min_le_right _ _).trans (Nat.min_le_right _ _))
    obtain ⟨hleftTree, hls⟩ := hl.stands_of_derives hleftRank op.place_ne_loose hleft
    obtain ⟨hrightTree, hrs⟩ := hr.stands_of_derives hrightRank op.place_ne_loose hright
    rw [← hleftTree, ← hrightTree]
    exact (operation_derives_iff hls hrs op).mp h
  · rintro ⟨hleftRank, hrightRank⟩
    obtain ⟨hleftTree, hls⟩ := hl.stands_of_derives hleftRank op.leftPlace_ne_loose hleft
    obtain ⟨hrightTree, hrs⟩ := hr.stands_of_derives hrightRank op.rightPlace_ne_loose hright
    rw [← hleftTree] at hleftRank
    rw [← hrightTree] at hrightRank
    exact (hls.operation hrs hleftRank hrightRank).derives.loosen (Nat.zero_le _)

end AikenForge.Readback
