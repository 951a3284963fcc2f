/-
# The weakest operator

Tokens that derive from some place derive from every looser one. The tightest place that they derive
from is that of the weakest operator outside brackets, and a single pass over the tokens finds it.
The pass knows a sign from an operation by what is due, an operand or an operator.
-/

import AikenForge.Proofs.Readback.Unambiguous

namespace AikenForge.Readback

open AikenForge.Source

/-! ## Places -/

/-- The looser one of two places. -/
def weaker (place other : Precedence) : Precedence :=
  if place.rank ≤ other.rank then place else other

/-- The weaker of two places has the lower rank. -/
theorem rank_weaker (place other : Precedence) :
    (weaker place other).rank = min place.rank other.rank := by
  unfold weaker
  split <;> omega

/-- Places are told apart by their ranks. -/
theorem rank_injective {place other : Precedence} (h : place.rank = other.rank) :
    place = other := by
  cases place <;> cases other <;> first | rfl | cases h

theorem rank_le_atom (place : Precedence) : place.rank ≤ Precedence.atom.rank := by
  cases place <;> decide

/-- Gathering the weakest place does not depend on grouping. -/
theorem weaker_assoc (first second third : Precedence) :
    weaker (weaker first second) third = weaker first (weaker second third) := by
  refine rank_injective ?_
  simp only [rank_weaker, Nat.min_assoc]

/-- A place of lower rank is the weaker one. -/
theorem weaker_of_le {place other : Precedence} (h : place.rank ≤ other.rank) :
    weaker place other = place :=
  if_pos h

/-- An atom never weakens a place. -/
theorem weaker_atom (place : Precedence) : weaker place .atom = place :=
  weaker_of_le (rank_le_atom place)

theorem atom_weaker (place : Precedence) : weaker .atom place = place := by
  cases place <;> rfl

/-- Nothing is weaker than a loose expression. -/
theorem loose_weaker (place : Precedence) : weaker .loose place = .loose :=
  rfl

theorem weaker_loose (place : Precedence) : weaker place .loose = .loose := by
  cases place <;> rfl

/-- A loose place can only come from a loose one. -/
theorem weaker_eq_loose {place other : Precedence} (h : weaker place other = .loose) :
    place = .loose ∨ other = .loose := by
  unfold weaker at h
  split at h
  · exact .inl h
  · exact .inr h

/-- The place of the operator at the root of a tree. -/
def Tree.place : Tree → Precedence
  | .conditional .. | .function .. => .loose
  | .chain op _ => connectivePlace op
  | .compare .. => .compare
  | .arithmetic op .. => op.place
  | .negative _ | .not _ => .unary
  | _ => .atom

/-! ## The pass over tokens -/

/-- What may come next outside brackets. -/
inductive Due
  | operand
  | label
  | operator
  deriving DecidableEq

/-- The state of the pass: the depth of brackets, what is due outside them, and the place of the
weakest operator so far. -/
structure Gauge where
  depth : Nat
  due : Due
  weakest : Precedence

/-- How tightly a symbol outside brackets binds. The dash is an operation or a sign. -/
def Symbol.place (due : Due) : Symbol → Precedence
  | .connective op => connectivePlace op
  | .comparison _ => .compare
  | .arithmetic op => if due = .operator then op.place else .unary
  | .bang => .unary
  | _ => .loose

/-- One step of the pass. -/
def Gauge.read : Gauge → Token → Gauge
  | ⟨0, due, weakest⟩, .symbol (.opening _) => ⟨1, due, weakest⟩
  | ⟨0, _, weakest⟩, .symbol .dot => ⟨0, .label, weakest⟩
  | ⟨0, due, weakest⟩, .symbol symbol => ⟨0, .operand, weaker weakest (symbol.place due)⟩
  | ⟨0, .operand, weakest⟩, .word name =>
    if name = "if" ∨ name = "fn" then ⟨0, .operand, .loose⟩ else ⟨0, .operator, weakest⟩
  | ⟨0, _, weakest⟩, _ => ⟨0, .operator, weakest⟩
  | ⟨depth + 1, due, weakest⟩, .symbol (.opening _) => ⟨depth + 2, due, weakest⟩
  | ⟨1, _, weakest⟩, .symbol (.closing _) => ⟨0, .operator, weakest⟩
  | ⟨depth + 2, due, weakest⟩, .symbol (.closing _) => ⟨depth + 1, due, weakest⟩
  | ⟨depth + 1, due, weakest⟩, _ => ⟨depth + 1, due, weakest⟩

/-- The state after a pass over tokens. -/
def Gauge.readAll (gauge : Gauge) (tokens : List Token) : Gauge :=
  tokens.foldl Gauge.read gauge

/-- Reading tokens one part after the other. -/
theorem Gauge.readAll_append (gauge : Gauge) (ts us : List Token) :
    gauge.readAll (ts ++ us) = (gauge.readAll ts).readAll us :=
  List.foldl_append

theorem Gauge.readAll_cons (gauge : Gauge) (token : Token) (ts : List Token) :
    gauge.readAll (token :: ts) = (gauge.read token).readAll ts :=
  rfl

/-- Nothing binds looser than what the pass has found to be loosest. -/
theorem Gauge.weakest_read {gauge : Gauge} (h : gauge.weakest = .loose) (token : Token) :
    (gauge.read token).weakest = .loose := by
  fun_cases Gauge.read <;> simp_all [loose_weaker]

/-- Once the gauge has seen a loose operator it stays there. -/
theorem Gauge.weakest_readAll {gauge : Gauge} (h : gauge.weakest = .loose) (tokens : List Token) :
    (gauge.readAll tokens).weakest = .loose := by
  induction tokens generalizing gauge with
  | nil => exact h
  | cons token tokens ih => exact ih (weakest_read h token)

/-- Tokens that leave the pass as it is inside brackets. -/
def Hidden (tokens : List Token) : Prop :=
  ∀ depth due weakest, Gauge.readAll ⟨depth + 1, due, weakest⟩ tokens = ⟨depth + 1, due, weakest⟩

/-- Tokens are one expression whose weakest operator outside brackets has this place. Nothing more
is said of tokens with a conditional or a function outside brackets. -/
def Weighs (place : Precedence) (tokens : List Token) : Prop :=
  if place = .loose then ∀ weakest, (Gauge.readAll ⟨0, .operand, weakest⟩ tokens).weakest = .loose
  else ∀ weakest,
    Gauge.readAll ⟨0, .operand, weakest⟩ tokens = ⟨0, .operator, weaker weakest place⟩

/-- Tokens weigh loose if reading them always ends at the loosest place. -/
theorem weighs_loose {tokens : List Token} :
    Weighs .loose tokens ↔
      ∀ weakest, (Gauge.readAll ⟨0, .operand, weakest⟩ tokens).weakest = .loose := by
  simp [Weighs]

/-- Other tokens weigh their place if they are read as one operand, with that place taken in. -/
theorem weighs_of_ne {place : Precedence} {tokens : List Token} (h : place ≠ .loose) :
    Weighs place tokens ↔ ∀ weakest,
      Gauge.readAll ⟨0, .operand, weakest⟩ tokens = ⟨0, .operator, weaker weakest place⟩ := by
  simp [Weighs, h]

/-- What reading tokens adds to the weakest place so far is the place that they weigh. -/
theorem Weighs.weakest {place : Precedence} {tokens : List Token} (h : Weighs place tokens)
    (weakest : Precedence) :
    (Gauge.readAll ⟨0, .operand, weakest⟩ tokens).weakest = weaker weakest place := by
  by_cases hplace : place = .loose
  · subst hplace
    rw [weighs_loose.mp h, weaker_loose]
  · rw [(weighs_of_ne hplace).mp h]

/-- The pass finds one place only. -/
theorem Weighs.unique {place other : Precedence} {tokens : List Token} (h : Weighs place tokens)
    (h' : Weighs other tokens) : place = other := by
  have hweakest := (h.weakest .atom).symm.trans (h'.weakest .atom)
  rwa [atom_weaker, atom_weaker] at hweakest

/-! ## Passes over composed tokens -/

/-- A symbol that is an operation after an operand. -/
def IsOperation (own : Precedence) (symbol : Symbol) : Prop :=
  ∀ weakest, Gauge.read ⟨0, .operator, weakest⟩ (.symbol symbol) = ⟨0, .operand, weaker weakest own⟩

theorem isOperation_connective (op : BoolOp) :
    IsOperation (connectivePlace op) (.connective op) :=
  fun _ => rfl

theorem isOperation_comparison (op : Comparison) : IsOperation .compare (.comparison op) :=
  fun _ => rfl

theorem isOperation_arithmetic (op : Arithmetic) : IsOperation op.place (.arithmetic op) :=
  fun _ => rfl

/-- An operation binds as tightly as it does by itself, or as the loosest of its operands. -/
theorem Weighs.operation {own left right : Precedence} {symbol : Symbol} {ls rs : List Token}
    (hown : IsOperation own symbol) (hl : Weighs left ls) (hr : Weighs right rs) :
    Weighs (weaker left (weaker own right)) (ls ++ .symbol symbol :: rs) := by
  by_cases hleft : left = .loose
  · subst hleft
    rw [loose_weaker, weighs_loose]
    intro weakest
    rw [Gauge.readAll_append]
    exact Gauge.weakest_readAll (weighs_loose.mp hl weakest) _
  · have hafter (weakest : Precedence) :
        Gauge.readAll ⟨0, .operand, weakest⟩ (ls ++ .symbol symbol :: rs) =
          Gauge.readAll ⟨0, .operand, weaker (weaker weakest left) own⟩ rs := by
      rw [Gauge.readAll_append, Gauge.readAll_cons, (weighs_of_ne hleft).mp hl, hown]
    by_cases hplace : weaker left (weaker own right) = .loose
    · rw [hplace, weighs_loose]
      intro weakest
      rw [hafter, hr.weakest, weaker_assoc, weaker_assoc, hplace, weaker_loose]
    · have hright : right ≠ .loose := by
        rintro rfl
        rw [weaker_loose, weaker_loose] at hplace
        exact hplace rfl
      rw [weighs_of_ne hplace]
      intro weakest
      rw [hafter, (weighs_of_ne hright).mp hr, weaker_assoc, weaker_assoc]

/-- A symbol that is a sign before an operand. -/
def IsSign (symbol : Symbol) : Prop :=
  ∀ weakest,
    Gauge.read ⟨0, .operand, weakest⟩ (.symbol symbol) = ⟨0, .operand, weaker weakest .unary⟩

theorem isSign_minus : IsSign (.arithmetic .sub) :=
  fun _ => rfl

theorem isSign_bang : IsSign .bang :=
  fun _ => rfl

/-- A sign in front takes in the place of signs. -/
theorem Weighs.signed {place : Precedence} {symbol : Symbol} {tokens : List Token}
    (hsign : IsSign symbol) (h : Weighs place tokens) :
    Weighs (weaker .unary place) (.symbol symbol :: tokens) := by
  by_cases hloose : place = .loose
  · subst hloose
    rw [weaker_loose, weighs_loose]
    intro weakest
    rw [Gauge.readAll_cons, hsign, weighs_loose.mp h]
  · have hplace : weaker .unary place ≠ .loose := by
      intro heq
      obtain hunary | hother := weaker_eq_loose heq
      · cases hunary
      · exact hloose hother
    rw [weighs_of_ne hplace]
    intro weakest
    rw [Gauge.readAll_cons, hsign, (weighs_of_ne hloose).mp h, weaker_assoc]

/-- Tokens that an operand may end with without getting looser. -/
def IsSuffix (tokens : List Token) : Prop :=
  ∀ weakest, Gauge.readAll ⟨0, .operator, weakest⟩ tokens = ⟨0, .operator, weakest⟩

theorem isSuffix_field (label : String) : IsSuffix [.symbol .dot, .word label] :=
  fun _ => rfl

/-- What is hidden in brackets leaves the gauge alone. -/
theorem readAll_bracketed {tokens : List Token} (h : Hidden tokens) (bracket : Bracket) (due : Due)
    (weakest : Precedence) :
    Gauge.readAll ⟨0, due, weakest⟩ (bracketed bracket tokens) = ⟨0, .operator, weakest⟩ := by
  have hinside : Gauge.readAll ⟨1, due, weakest⟩ tokens = ⟨1, due, weakest⟩ := h 0 due weakest
  have hopens : Gauge.read ⟨0, due, weakest⟩ (.symbol (.opening bracket)) = ⟨1, due, weakest⟩ := by
    cases due <;> rfl
  rw [bracketed, List.cons_append, Gauge.readAll_cons, hopens, Gauge.readAll_append, hinside]
  rfl

theorem isSuffix_bracketed {tokens : List Token} (h : Hidden tokens) (bracket : Bracket) :
    IsSuffix (bracketed bracket tokens) :=
  readAll_bracketed h bracket .operator

/-- A suffix after tokens does not change what they weigh. -/
theorem Weighs.suffixed {place : Precedence} {tokens suffix : List Token} (h : Weighs place tokens)
    (hsuffix : IsSuffix suffix) : Weighs place (tokens ++ suffix) := by
  by_cases hloose : place = .loose
  · subst hloose
    rw [weighs_loose]
    intro weakest
    rw [Gauge.readAll_append]
    exact Gauge.weakest_readAll (weighs_loose.mp h weakest) _
  · rw [weighs_of_ne hloose]
    intro weakest
    rw [Gauge.readAll_append, (weighs_of_ne hloose).mp h, hsuffix]

/-- What is read as one operand without operators weighs an atom. -/
theorem weighs_atom {tokens : List Token}
    (h : ∀ weakest, Gauge.readAll ⟨0, .operand, weakest⟩ tokens = ⟨0, .operator, weakest⟩) :
    Weighs .atom tokens := by
  rw [weighs_of_ne (by decide)]
  intro weakest
  rw [h, weaker_atom]

/-- What begins with the keyword of a conditional or a function binds loosest. -/
theorem weighs_keyword {name : String} (h : name = "if" ∨ name = "fn") (tokens : List Token) :
    Weighs .loose (.word name :: tokens) := by
  rw [weighs_loose]
  intro weakest
  have hread : Gauge.read ⟨0, .operand, weakest⟩ (.word name) = ⟨0, .operand, .loose⟩ := if_pos h
  rw [Gauge.readAll_cons, hread]
  exact Gauge.weakest_readAll rfl tokens

/-- A word weighs an atom, unless it opens a conditional or a function. -/
theorem weighs_word {name : String} (h : ¬ (name = "if" ∨ name = "fn")) :
    Weighs .atom [.word name] :=
  weighs_atom fun _ => if_neg h

/-! ## What the grammar derives -/

theorem hidden_nil : Hidden [] :=
  fun _ _ _ => rfl

/-- Hidden tokens one after the other are hidden. -/
theorem Hidden.append {ts us : List Token} (hts : Hidden ts) (hus : Hidden us) :
    Hidden (ts ++ us) := by
  intro depth due weakest
  rw [Gauge.readAll_append, hts, hus]

/-- A token that is skipped inside brackets may stand before hidden ones. -/
theorem Hidden.cons {token : Token} {ts : List Token}
    (htoken : ∀ depth due weakest,
      Gauge.read ⟨depth + 1, due, weakest⟩ token = ⟨depth + 1, due, weakest⟩)
    (hts : Hidden ts) : Hidden (token :: ts) := by
  intro depth due weakest
  rw [Gauge.readAll_cons, htoken, hts]

theorem Hidden.word (name : String) {ts : List Token} (hts : Hidden ts) :
    Hidden (.word name :: ts) :=
  hts.cons fun _ _ _ => rfl

theorem Hidden.bracketed {ts : List Token} (hts : Hidden ts) (bracket : Bracket) :
    Hidden (bracketed bracket ts) := by
  intro depth due weakest
  rw [Readback.bracketed, List.cons_append, Gauge.readAll_cons]
  change Gauge.readAll ⟨depth + 2, due, weakest⟩ (ts ++ [.symbol (.closing bracket)]) = _
  rw [Gauge.readAll_append, hts]
  rfl

/-- Parameter names with commas hide nothing. -/
theorem hidden_parameterTokens (names : List String) : Hidden (parameterTokens names) := by
  induction names with
  | nil => exact hidden_nil
  | cons name names ih =>
      cases names with
      | nil => exact hidden_nil.word name
      | cons second names => exact Hidden.word name (ih.cons fun _ _ _ => rfl)

/-- The forms that stand for something in the grammar: rows are separated by commas or
connectives. -/
def Form.IsPlain : Form → Prop
  | .separated separator _ => separator = .comma ∨ ∃ op, separator = .connective op
  | _ => True

/-- Derived tokens close the brackets that they open. -/
theorem Derives.hidden {form : Form} {tokens : List Token} {trees : List Tree}
    (h : Derives form tokens trees) (hform : form.IsPlain) : Hidden tokens := by
  induction h with
  | tighten _ _ ih => exact ih trivial
  | conditional _ _ _ ihc iha ihb =>
      exact (((ihc trivial).word _).append ((iha trivial).bracketed _)).append
        (((ihb trivial).bracketed _).word _)
  | @function names _ _ _ _ ih =>
      exact (((hidden_parameterTokens names).bracketed _).word _).append ((ih trivial).bracketed _)
  | chain _ ih => exact ih (.inr ⟨_, rfl⟩)
  | compare _ _ ihl ihr | arithmetic _ _ ihl ihr =>
      exact (ihl trivial).append ((ihr trivial).cons fun _ _ _ => rfl)
  | negative _ ih | not _ ih => exact (ih trivial).cons fun _ _ _ => rfl
  | field _ ih => exact (ih trivial).append ((hidden_nil.word _).cons fun _ _ _ => rfl)
  | index _ _ ih ihi => exact (ih trivial).append ((ihi trivial).bracketed _)
  | apply _ _ ih ihargs => exact (ih trivial).append ((ihargs trivial).bracketed _)
  | name _ => exact hidden_nil.word _
  | @literal token _ hvalue =>
      cases token with
      | symbol _ => cases hvalue
      | _ => exact hidden_nil.cons fun _ _ _ => rfl
  | group _ ih => exact (ih trivial).bracketed _
  | tuple _ ih => exact (ih (.inl rfl)).bracketed _
  | list _ ih => exact (ih trivial).bracketed _
  | one _ ih => exact ih trivial
  | more _ _ ih ihmore =>
      obtain rfl | ⟨op, rfl⟩ := hform
      all_goals exact (ih trivial).append ((ihmore (by simp [Form.IsPlain])).cons fun _ _ _ => rfl)
  | noArguments => exact hidden_nil
  | someArguments _ ih => exact ih (.inl rfl)

theorem weighs_bracketed {tokens : List Token} (h : Hidden tokens) (bracket : Bracket) :
    Weighs .atom (bracketed bracket tokens) :=
  weighs_atom (readAll_bracketed h bracket .operand)

/-- A literal is an atom. -/
theorem weighs_literal {token : Token} {value : Literal} (h : token.literal? = some value) :
    Weighs .atom [token] := by
  cases token with
  | symbol _ => cases h
  | word name =>
      refine weighs_word ?_
      rintro (rfl | rfl) <;> cases h
  | _ => exact weighs_atom fun _ => rfl

/-- What a pass over derived tokens finds. An expression derives from the place of its weakest
operator, and that place is the one at the root of its tree or, in brackets, tighter. The operands
of a chain are tighter than the chain. -/
def Measured : Form → List Token → List Tree → Prop
  | .expression place, ts, trees =>
    ∀ t, trees = [t] → ∃ own, place.rank ≤ own.rank ∧ t.place.rank ≤ own.rank ∧
      Derives (.expression own) ts [t] ∧ Weighs own ts
  | .separated (.connective op) place, ts, trees =>
    place = tighter (connectivePlace op) →
      ∃ own, (connectivePlace op).rank ≤ own.rank ∧ Weighs own ts ∧
        (2 ≤ trees.length → own = connectivePlace op)
  | _, _, _ => True

/-- An operation weighs its own place if its operands bind at least as tightly. -/
theorem weaker_operation {left own right : Precedence} (hl : own.rank ≤ left.rank)
    (hr : own.rank ≤ right.rank) : weaker left (weaker own right) = own := by
  refine rank_injective ?_
  rw [rank_weaker, rank_weaker]
  omega

/-- The place next to a place is tighter, up to the atoms. -/
theorem rank_lt_tighter {place : Precedence} (h : place ≠ .atom) :
    place.rank < (tighter place).rank := by
  rw [tighter_rank h]
  exact Nat.lt_succ_self _

/-- Nothing binds tighter than an atom. -/
theorem eq_atom_of_rank_le {place : Precedence} (h : Precedence.atom.rank ≤ place.rank) :
    place = .atom :=
  rank_injective (Nat.le_antisymm (rank_le_atom place) h)

/-- An expression that was read at its own place can be read at every looser one. -/
theorem measured_expression {place own : Precedence} {tokens : List Token} {t : Tree}
    (hplace : place.rank ≤ own.rank) (hroot : t.place.rank ≤ own.rank)
    (hderives : Derives (.expression own) tokens [t]) (hweighs : Weighs own tokens) :
    Measured (.expression place) tokens [t] := by
  intro t' ht
  cases ht
  exact ⟨own, hplace, hroot, hderives, hweighs⟩

/-- What derives with an operator at the root of its tree has no weaker one. -/
theorem measured_root {own : Precedence} {tokens : List Token} {t : Tree} (hroot : t.place = own)
    (hderives : Derives (.expression own) tokens [t]) (hweighs : Weighs own tokens) :
    Measured (.expression own) tokens [t] :=
  measured_expression (Nat.le_refl _) (hroot ▸ Nat.le_refl _) hderives hweighs

section Operands

variable {own place left right : Precedence} {symbol : Symbol} {ts ls rs : List Token}
    {t l r : Tree}

/-- Measured operands around an operator weigh the operator's place. -/
theorem Measured.weighs_operation (hown : IsOperation own symbol)
    (hl : Measured (.expression left) ls [l]) (hleft : own.rank ≤ left.rank)
    (hr : Measured (.expression right) rs [r]) (hright : own.rank ≤ right.rank) :
    Weighs own (ls ++ .symbol symbol :: rs) := by
  obtain ⟨_, hll, -, -, hwl⟩ := hl l rfl
  obtain ⟨_, hrr, -, -, hwr⟩ := hr r rfl
  have hweighs := hwl.operation hown hwr
  rwa [weaker_operation (hleft.trans hll) (hright.trans hrr)] at hweighs

/-- A sign with its measured operand weighs the place of signs. -/
theorem Measured.weighs_signed (hsign : IsSign symbol) (h : Measured (.expression .unary) ts [t]) :
    Weighs .unary (.symbol symbol :: ts) := by
  obtain ⟨_, hrank, -, -, hweighs⟩ := h t rfl
  have hsigned := hweighs.signed hsign
  rwa [weaker_of_le hrank] at hsigned

theorem Measured.weighs_atom (h : Measured (.expression .atom) ts [t]) : Weighs .atom ts := by
  obtain ⟨_, hrank, -, -, hweighs⟩ := h t rfl
  rwa [eq_atom_of_rank_le hrank] at hweighs

end Operands

/-- What the grammar derives weighs the place of its tree, by induction on the derivation. -/
theorem Derives.measured {form : Form} {tokens : List Token} {trees : List Tree}
    (h : Derives form tokens trees) : Measured form tokens trees := by
  induction h with
  | @tighten place _ _ hplace _ ih =>
      intro t ht
      obtain ⟨own, hrank, hroot, hderives, hweighs⟩ := ih t ht
      exact ⟨own, (rank_lt_tighter hplace).le.trans hrank, hroot, hderives, hweighs⟩
  | conditional hc ha hb =>
      exact measured_root rfl (.conditional hc ha hb) (weighs_keyword (.inl rfl) _)
  | function hnames hbody =>
      exact measured_root rfl (.function hnames hbody) (weighs_keyword (.inr rfl) _)
  | chain hoperands ih =>
      obtain ⟨own, -, hweighs, hown⟩ := ih rfl
      rw [hown (by simp)] at hweighs
      exact measured_root rfl (.chain hoperands) hweighs
  | @compare op _ _ _ _ hl hr ihl ihr =>
      have hlt : Precedence.compare.rank ≤ (tighter .compare).rank := by decide
      exact measured_root rfl (.compare hl hr)
        (Measured.weighs_operation (isOperation_comparison op) ihl hlt ihr hlt)
  | @arithmetic op _ _ _ _ hl hr ihl ihr =>
      have hne : op.place ≠ .atom := by cases op <;> decide
      exact measured_root rfl (.arithmetic hl hr)
        (Measured.weighs_operation (isOperation_arithmetic op) ihl (Nat.le_refl _) ihr
          (rank_lt_tighter hne).le)
  | negative hoperand ih =>
      exact measured_root rfl (.negative hoperand) (Measured.weighs_signed isSign_minus ih)
  | not hoperand ih =>
      exact measured_root rfl (.not hoperand) (Measured.weighs_signed isSign_bang ih)
  | field hbase ih =>
      exact measured_root rfl (.field hbase) ((Measured.weighs_atom ih).suffixed (isSuffix_field _))
  | index hbase hposition ih =>
      exact measured_root rfl (.index hbase hposition)
        ((Measured.weighs_atom ih).suffixed (isSuffix_bracketed (hposition.hidden trivial) _))
  | apply hbase hargs ih =>
      exact measured_root rfl (.apply hbase hargs)
        ((Measured.weighs_atom ih).suffixed (isSuffix_bracketed (hargs.hidden trivial) _))
  | name hid =>
      refine measured_root rfl (.name hid) (weighs_word ?_)
      rintro (rfl | rfl) <;> exact hid (by decide)
  | literal hvalue => exact measured_root rfl (.literal hvalue) (weighs_literal hvalue)
  | group hinside _ =>
      -- The tree is that of what stands in the brackets, and it may bind looser.
      exact measured_expression (Nat.le_refl _) (rank_le_atom _) (.group hinside)
        (weighs_bracketed (hinside.hidden trivial) _)
  | tuple hinside _ =>
      exact measured_root rfl (.tuple hinside) (weighs_bracketed (hinside.hidden (.inl rfl)) _)
  | list hinside _ =>
      exact measured_root rfl (.list hinside) (weighs_bracketed (hinside.hidden trivial) _)
  | @one separator place _ _ _ ih =>
      cases separator with
      | connective op =>
          rintro rfl
          obtain ⟨own, hrank, -, -, hweighs⟩ := ih _ rfl
          have hne : connectivePlace op ≠ .atom := by cases op <;> decide
          exact ⟨own, (rank_lt_tighter hne).le.trans hrank, hweighs, by simp⟩
      | _ => trivial
  | @more separator place _ _ _ _ _ _ ih ihmore =>
      cases separator with
      | connective op =>
          rintro rfl
          obtain ⟨left, hleft, -, -, hwl⟩ := ih _ rfl
          obtain ⟨right, hright, hwr, -⟩ := ihmore rfl
          have hne : connectivePlace op ≠ .atom := by cases op <;> decide
          have hweighs := hwl.operation (isOperation_connective op) hwr
          rw [weaker_operation ((rank_lt_tighter hne).le.trans hleft) hright] at hweighs
          exact ⟨connectivePlace op, Nat.le_refl _, hweighs, fun _ => rfl⟩
      | _ => trivial
  | noArguments => trivial
  | someArguments _ _ => trivial

/-- Tokens that derive with a tree derive exactly from the places that are not tighter than that of
their weakest operator. -/
theorem Derives.exists_weighs {place : Precedence} {tokens : List Token} {tree : Tree}
    (h : Derives (.expression place) tokens [tree]) :
    ∃ own, Weighs own tokens ∧ tree.place.rank ≤ own.rank ∧
      ∀ other : Precedence, Derives (.expression other) tokens [tree] ↔ other.rank ≤ own.rank := by
  obtain ⟨own, -, hroot, hderives, hweighs⟩ := h.measured tree rfl
  refine ⟨own, hweighs, hroot, fun other => ⟨fun hother => ?_, hderives.loosen⟩⟩
  obtain ⟨same, hrank, -, -, hsame⟩ := hother.measured tree rfl
  rwa [hweighs.unique hsame]

end AikenForge.Readback
