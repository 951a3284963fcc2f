/-
# Operators over their operands

An operator joins the tokens of its operands, and it joins their trees. The joined tokens read as
the joined trees exactly if each operand binds as tightly as its place asks: an operand that does
not loses a part of it to the operator, or takes a part of what stands beside it.

A connective has all its operands in one row, and so has a chain of comparisons, of which each is an
operand of a conjunction.
-/

import Mathlib.Algebra.BigOperators.Group.List.Basic
import AikenForge.Proofs.Inlined.Operation

namespace AikenForge.Readback

open AikenForge.Source

/-! ## Rows -/

/-- Rows of tokens with a connective between one and the next. -/
def rowTokens (op : BoolOp) : List (List Token) → List Token
  | [] => []
  | [ts] => ts
  | ts :: next :: rest => ts ++ .symbol (.connective op) :: rowTokens op (next :: rest)

section Rows

variable {α : Type} {op : BoolOp} {place : Precedence} {operands : List α} {tokens : α → List Token}

/-- Rows of operands make one row. -/
theorem derives_row {trees : α → List Tree} (hne : operands ≠ [])
    (h : ∀ o ∈ operands, Derives (.separated (.connective op) place) (tokens o) (trees o)) :
    Derives (.separated (.connective op) place) (rowTokens op (operands.map tokens))
      (operands.flatMap trees) := by
  induction operands with
  | nil => exact absurd rfl hne
  | cons first rest ih =>
      have hfirst := h first List.mem_cons_self
      cases rest with
      | nil => simpa [rowTokens] using hfirst
      | cons second rest =>
          rw [List.flatMap_cons]
          exact hfirst.separated_append
            (ih (by simp) fun o ho => h o (List.mem_cons_of_mem first ho))

/-- A row is read operand by operand if each has as many operators as the tree that is read for
it. -/
theorem derives_of_row {tree : α → Tree}
    (hcount : ∀ o ∈ operands, operatorCount (tokens o) = (tree o).operators)
    (h : Derives (.separated (.connective op) place) (rowTokens op (operands.map tokens))
      (operands.map tree)) :
    ∀ o ∈ operands, Derives (.expression place) (tokens o) [tree o] := by
  induction operands with
  | nil => simp
  | cons first rest ih =>
      cases rest with
      | nil =>
          simp only [List.map_cons, List.map_nil, rowTokens] at h
          rw [List.forall_mem_singleton]
          generalize tokens first = all at h ⊢
          cases h with
          | one hfirst => exact hfirst
          | more _ hrest => exact absurd rfl hrest.separated_ne_nil
      | cons second rest =>
          simp only [List.map_cons, rowTokens] at h
          generalize hall : tokens first ++ .symbol (.connective op) ::
            rowTokens op (tokens second :: rest.map tokens) = all at h
          cases h with
          | more hfirst hrest =>
              -- Both cuts have the operators of the first tree before them.
              obtain ⟨hts, -, hus⟩ := append_operator_inj rfl rfl hall
                ((hcount first List.mem_cons_self).trans hfirst.operatorCount_eq.symm)
              rw [List.forall_mem_cons]
              refine ⟨hts ▸ hfirst, ih (fun o ho => hcount o (List.mem_cons_of_mem first ho)) ?_⟩
              simpa only [List.map_cons, ← hus] using hrest

/-- A row binds no tighter than any of its operands, nor than its connective if it has one. -/
theorem weighs_row {own : α → Precedence} (hne : operands ≠ [])
    (h : ∀ o ∈ operands, Weighs (own o) (tokens o)) :
    ∃ all, Weighs all (rowTokens op (operands.map tokens)) ∧
      (∀ o ∈ operands, all.rank ≤ (own o).rank) ∧
      (2 ≤ operands.length → all.rank ≤ (connectivePlace op).rank) := by
  induction operands with
  | nil => exact absurd rfl hne
  | cons first rest ih =>
      have hfirst := h first List.mem_cons_self
      cases rest with
      | nil => exact ⟨own first, hfirst, by simp, by simp⟩
      | cons second rest =>
          obtain ⟨others, hothers, hranks, -⟩ :=
            ih (by simp) fun o ho => h o (List.mem_cons_of_mem first ho)
          refine ⟨_, hfirst.operation (isOperation_connective op) hothers, ?_, fun _ => ?_⟩
          · rw [List.forall_mem_cons]
            refine ⟨?_, fun o ho => le_trans ?_ (hranks o ho)⟩
            all_goals simp only [rank_weaker]; omega
          · simp only [rank_weaker]
            omega

end Rows

/-! ## Comparisons -/

/-- A comparison in a chain. Membership is a call, and its operands stand in brackets. -/
inductive Part (α : Type)
  | comparison (op : Comparison) (left right : α)
  | membership (isNegated : Bool)

namespace Part

variable {α : Type}

/-- The operands of a comparison outside brackets. -/
def operands : Part α → List α
  | .comparison _ left right => [left, right]
  | .membership _ => []

/-- The tokens of a comparison. -/
def tokens (operand : α → List Token) : Part α → List Token
  | .comparison op left right => operand left ++ .symbol (.comparison op) :: operand right
  | .membership isNegated =>
    let call := [.word "list"] ++ (Suffix.field "has").tokens ++ Suffix.arguments.tokens
    if isNegated then .symbol Sign.not.symbol :: call else call

/-- The tree of a comparison. -/
def tree (operand : α → Tree) : Part α → Tree
  | .comparison op left right => .compare op (operand left) (operand right)
  | .membership isNegated =>
    let call := Suffix.arguments.tree ((Suffix.field "has").tree (.name "list"))
    if isNegated then Sign.not.tree call else call

/-- The place of the weakest operator of a comparison. -/
def strength (own : α → Precedence) : Part α → Precedence
  | .comparison _ left right => weaker (own left) (weaker .compare (own right))
  | .membership isNegated => if isNegated then .unary else .atom

/-- Both sides of a comparison bind tighter than it. -/
def Fits (own : α → Precedence) : Part α → Prop
  | .comparison _ left right =>
    Precedence.add.rank ≤ (own left).rank ∧ Precedence.add.rank ≤ (own right).rank
  | .membership _ => True

theorem stands_membership (operand : α → List Token) (trees : α → Tree) (isNegated : Bool) :
    Stands ((membership isNegated).tokens operand) ((membership isNegated).tree trees) := by
  have hname : Stands [.word "list"] (.name "list") := ⟨.name (by decide), weighs_word (by decide)⟩
  have hcall := (hname.suffixed (.field "has") (by decide)).suffixed .arguments (by decide)
  cases isNegated with
  | false => exact hcall
  | true => exact hcall.signed .not (by decide)

variable {tokens : α → List Token} {tree : α → Tree} {own : α → Precedence} {part : Part α}

/-- The tokens of a part have the operators of its tree. -/
theorem operatorCount_tokens
    (hreads : ∀ o ∈ part.operands, Derives (.expression .loose) (tokens o) [tree o]) :
    operatorCount (part.tokens tokens) = (part.tree tree).operators := by
  cases part with
  | comparison op left right =>
      have hleft := (hreads left (by simp [operands])).operatorCount_eq
      have hright := (hreads right (by simp [operands])).operatorCount_eq
      simp only [Part.tokens, Part.tree, operatorCount_append, operatorCount_symbol, hleft, hright,
        Tree.operators, Symbol.isOperator, if_true]
      omega
  | membership isNegated =>
      exact (stands_membership tokens tree isNegated).derives.operatorCount_eq

/-- The tokens of a part weigh its place if its operands bind as they should. -/
theorem weighs (hbinds : ∀ o ∈ part.operands, Binds (own o) (tokens o)) :
    Weighs (part.strength own) (part.tokens tokens) := by
  cases part with
  | comparison op left right =>
      exact (hbinds left (by simp [operands])).weighs.operation (isOperation_comparison op)
        (hbinds right (by simp [operands])).weighs
  | membership isNegated =>
      have hstands := stands_membership tokens (fun _ => .name "_") isNegated
      cases isNegated with
      | false => exact hstands.weighs
      | true => exact hstands.weighs

/-- A part derives its tree exactly if its operands fit. -/
theorem derives_iff (hbinds : ∀ o ∈ part.operands, Binds (own o) (tokens o))
    (hreads : ∀ o ∈ part.operands, Derives (.expression .loose) (tokens o) [tree o]) :
    Derives (.expression .loose) (part.tokens tokens) [part.tree tree] ↔ part.Fits own := by
  cases part with
  | comparison op left right =>
      exact (hbinds left (by simp [operands])).operation_iff (hbinds right (by simp [operands]))
        (hreads left (by simp [operands])) (hreads right (by simp [operands])) (.comparison op)
  | membership isNegated =>
      have hderives := (stands_membership tokens tree isNegated).derives
      exact iff_of_true (hderives.loosen (Nat.zero_le _)) trivial

/-- What is read of a comparison is fit for an operand of a conjunction. -/
theorem derives_compare (h : Derives (.expression .loose) (part.tokens tokens) [part.tree tree])
    (hbinds : ∀ o ∈ part.operands, Binds (own o) (tokens o))
    (hreads : ∀ o ∈ part.operands, Derives (.expression .loose) (tokens o) [tree o]) :
    Derives (.expression .compare) (part.tokens tokens) [part.tree tree] := by
  cases part with
  | comparison op left right =>
      obtain ⟨hl, hr⟩ := (derives_iff hbinds hreads).mp h
      obtain ⟨hleft, hls⟩ := (hbinds left (by simp [operands])).stands_of_derives hl (by decide)
        (hreads left (by simp [operands]))
      obtain ⟨hright, hrs⟩ := (hbinds right (by simp [operands])).stands_of_derives hr (by decide)
        (hreads right (by simp [operands]))
      exact .compare ((hls.derives_iff _).mpr (hleft ▸ hl)) ((hrs.derives_iff _).mpr (hright ▸ hr))
  | membership isNegated =>
      refine ((stands_membership tokens tree isNegated).derives_iff _).mpr ?_
      cases isNegated <;> exact of_decide_eq_true rfl

end Part

/-! ## Operators -/

/-- An operator with its operands. -/
inductive Joint (α : Type)
  | signed (sign : Sign) (operand : α)
  | suffixed (suffix : Suffix) (base : α)
  | arithmetic (op : Arithmetic) (left right : α)
  | connective (op : BoolOp) (operands : List α)
  | comparisons (parts : List (Part α))

namespace Joint

variable {α : Type}

/-- The operands of an operator outside brackets. -/
def operands : Joint α → List α
  | .signed _ operand => [operand]
  | .suffixed _ base => [base]
  | .arithmetic _ left right => [left, right]
  | .connective _ operands => operands
  | .comparisons parts => parts.flatMap Part.operands

/-- Connectives have two operands or more, and chains of comparisons are not empty. -/
def IsProper : Joint α → Prop
  | .connective _ operands => 2 ≤ operands.length
  | .comparisons parts => parts ≠ []
  | _ => True

/-- The tokens of an operator with those of its operands. -/
def tokens (operand : α → List Token) : Joint α → List Token
  | .signed sign only => .symbol sign.symbol :: operand only
  | .suffixed suffix base => operand base ++ suffix.tokens
  | .arithmetic op left right => operand left ++ .symbol (.arithmetic op) :: operand right
  | .connective op operands => rowTokens op (operands.map operand)
  | .comparisons parts => rowTokens .and (parts.map (Part.tokens operand))

/-- The tree of an operator over those of its operands. -/
def tree (operand : α → Tree) : Joint α → Tree
  | .signed sign only => sign.tree (operand only)
  | .suffixed suffix base => suffix.tree (operand base)
  | .arithmetic op left right => .arithmetic op (operand left) (operand right)
  | .connective op operands => .chain op (operands.flatMap fun o => spread op (operand o))
  | .comparisons parts => joinComparisons (parts.map (Part.tree operand))

/-- Each operand binds as tightly as its place asks. -/
def Fits (own : α → Precedence) : Joint α → Prop
  | .signed _ operand => Precedence.unary.rank ≤ (own operand).rank
  | .suffixed _ base => Precedence.atom.rank ≤ (own base).rank
  | .arithmetic op left right =>
    op.place.rank ≤ (own left).rank ∧ (tighter op.place).rank ≤ (own right).rank
  | .connective op operands => ∀ o ∈ operands, (connectivePlace op).rank ≤ (own o).rank
  | .comparisons parts => ∀ part ∈ parts, part.Fits own

variable {tokens : α → List Token} {tree : α → Tree} {own : α → Precedence}

/-- A row of operands derives its chain exactly if all of them fit. -/
theorem connective_derives_iff {op : BoolOp} {operands : List α} (hproper : 2 ≤ operands.length)
    (hbinds : ∀ o ∈ operands, Binds (own o) (tokens o))
    (hreads : ∀ o ∈ operands, Derives (.expression .loose) (tokens o) [tree o]) :
    Derives (.expression .loose) (rowTokens op (operands.map tokens))
        [.chain op (operands.flatMap fun o => spread op (tree o))] ↔
      ∀ o ∈ operands, (connectivePlace op).rank ≤ (own o).rank := by
  have hne : operands ≠ [] := by
    rintro rfl
    cases hproper
  constructor
  · intro h o ho
    obtain ⟨all, hall, hranks, -⟩ := weighs_row hne fun o ho => (hbinds o ho).weighs
    obtain ⟨same, hsame, hroot, -⟩ := h.exists_weighs
    obtain rfl := hall.unique hsame
    exact hroot.trans (hranks o ho)
  · intro hplaces
    have hspread : ∀ o ∈ operands,
      Derives (.separated (.connective op) (tighter (connectivePlace op)))
        (tokens o) (spread op (tree o)) := by
      intro o ho
      obtain ⟨htree, hstands⟩ := (hbinds o ho).stands_of_derives (hplaces o ho)
        (by cases op <;> decide) (hreads o ho)
      exact hstands.spread (htree ▸ hplaces o ho)
    have hlength : operands.length ≤ (operands.flatMap fun o => spread op (tree o)).length := by
      have hone : ∀ n ∈ operands.map fun o => (spread op (tree o)).length, 1 ≤ n := by
        rw [List.forall_mem_map]
        exact fun o ho => List.length_pos_iff.mpr (hspread o ho).separated_ne_nil
      have hsum := List.length_le_sum_of_one_le _ hone
      rwa [List.length_map, ← List.length_flatMap] at hsum
    exact (derives_chain (hproper.trans hlength) (derives_row hne hspread)).loosen (Nat.zero_le _)

/-- A chain of two comparisons or more is read comparison by comparison. -/
theorem chain_derives_iff {parts : List (Part α)} (hlength : 2 ≤ parts.length)
    (hbinds : ∀ part ∈ parts, ∀ o ∈ part.operands, Binds (own o) (tokens o))
    (hreads : ∀ part ∈ parts, ∀ o ∈ part.operands,
      Derives (.expression .loose) (tokens o) [tree o]) :
    Derives (.expression .loose) (rowTokens .and (parts.map (Part.tokens tokens)))
        [.chain .and (parts.map (Part.tree tree))] ↔
      ∀ part ∈ parts, part.Fits own := by
  have hne : parts ≠ [] := by
    rintro rfl
    cases hlength
  constructor
  · intro h part hpart
    have hrow : Derives (.separated (.connective .and) .compare)
        (rowTokens .and (parts.map (Part.tokens tokens))) (parts.map (Part.tree tree)) := by
      refine h.rooted.resolve_right fun hatom => ?_
      obtain ⟨all, hall, -, hconnective⟩ :=
        weighs_row hne fun part hpart => Part.weighs (hbinds part hpart)
      obtain ⟨same, hsame, -, hplaces⟩ := h.exists_weighs
      obtain rfl := hall.unique hsame
      have hle := ((hplaces .atom).mp hatom).trans (hconnective hlength)
      exact absurd hle (by decide)
    have hpart' := derives_of_row (fun part hpart => Part.operatorCount_tokens (hreads part hpart))
      hrow part hpart
    exact (Part.derives_iff (hbinds part hpart) (hreads part hpart)).mp
      (hpart'.loosen (Nat.zero_le _))
  · intro hfits
    have hrow : Derives (.separated (.connective .and) .compare)
        (rowTokens .and (parts.map (Part.tokens tokens)))
        (parts.flatMap fun part => [part.tree tree]) := by
      refine derives_row hne fun part hpart => .one ?_
      exact Part.derives_compare ((Part.derives_iff (hbinds part hpart) (hreads part hpart)).mpr
        (hfits part hpart)) (hbinds part hpart) (hreads part hpart)
    rw [← List.map_eq_flatMap] at hrow
    exact (derives_chain (by rwa [List.length_map]) hrow).loosen (Nat.zero_le _)

/-- A row of comparisons derives its conjunction exactly if all of their sides fit. -/
theorem comparisons_derives_iff {parts : List (Part α)} (hproper : parts ≠ [])
    (hbinds : ∀ part ∈ parts, ∀ o ∈ part.operands, Binds (own o) (tokens o))
    (hreads : ∀ part ∈ parts, ∀ o ∈ part.operands,
      Derives (.expression .loose) (tokens o) [tree o]) :
    Derives (.expression .loose) (rowTokens .and (parts.map (Part.tokens tokens)))
        [joinComparisons (parts.map (Part.tree tree))] ↔
      ∀ part ∈ parts, part.Fits own := by
  match parts with
  | [] => exact absurd rfl hproper
  | [part] =>
      have hiff := Part.derives_iff (hbinds part List.mem_cons_self)
        (hreads part List.mem_cons_self)
      simpa [rowTokens, joinComparisons] using hiff
  | first :: second :: rest => exact chain_derives_iff (by simp) hbinds hreads

/-- The joined tokens of operands read as the joined trees exactly if each operand binds as tightly
as its place asks. -/
theorem derives_iff {joint : Joint α} (hproper : joint.IsProper)
    (hbinds : ∀ o ∈ joint.operands, Binds (own o) (tokens o))
    (hreads : ∀ o ∈ joint.operands, Derives (.expression .loose) (tokens o) [tree o]) :
    Derives (.expression .loose) (joint.tokens tokens) [joint.tree tree] ↔ joint.Fits own := by
  cases joint with
  | signed sign operand =>
      exact (hbinds operand (by simp [operands])).signed_iff
        (hreads operand (by simp [operands])) sign
  | suffixed suffix base =>
      exact (hbinds base (by simp [operands])).suffixed_iff
        (hreads base (by simp [operands])) suffix
  | arithmetic op left right =>
      exact (hbinds left (by simp [operands])).operation_iff (hbinds right (by simp [operands]))
        (hreads left (by simp [operands])) (hreads right (by simp [operands])) (.arithmetic op)
  | connective op operands => exact connective_derives_iff hproper hbinds hreads
  | comparisons parts =>
      refine comparisons_derives_iff hproper ?_ ?_
      · exact fun part hpart o ho => hbinds o (List.mem_flatMap.mpr ⟨part, hpart, ho⟩)
      · exact fun part hpart o ho => hreads o (List.mem_flatMap.mpr ⟨part, hpart, ho⟩)

end Joint

end AikenForge.Readback
