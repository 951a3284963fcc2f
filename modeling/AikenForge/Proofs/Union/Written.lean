/-
# How unions are written

A union is written with bars, as a generic union, or as either of them in quotes, and one may be an
operand of another. Bars join operands on one level. What a union is made of in the end are its
leaves, which are found by taking operands of operands and by reading what is quoted.
-/

import AikenForge.Proofs.Reading.Quoting

namespace AikenForge

open AikenForge.Source

namespace Hint

variable {names : CharacterNames}

/-- The operands of bars. -/
def bars : Expr → List Expr
  | .binary .bitOr left right => bars left ++ bars right
  | e => [e]

/-- The operands of a union, if an annotation is one outside of quotes. -/
def operands? : Expr → Option (List Expr)
  | .binary .bitOr left right => some (bars left ++ bars right)
  | .subscript base index =>
    if baseName? base == some "Union" then some ((genericArgs index).flatMap bars) else none
  | _ => none

/-- What stands in the quotes of an annotation. -/
def quoted? (names : CharacterNames) : Expr → Option Expr
  | .constant (.text points _) => points.string?.bind fun s => (readExpression names s).toOption
  | _ => none

/-- What a generic annotation qualifies. -/
def qualified? : Expr → Option Expr
  | .subscript base index =>
    if (baseName? base).any qualifierNames.contains then (genericArgs index).head? else none
  | _ => none

/-! ## Less of an annotation -/

/-- The order in which what an annotation is made of, and what its texts are read as, is smaller. -/
def Smaller (part e : Expr) : Prop :=
  Prod.Lex (· < ·) (· < ·) (part.longestText, part.subterms.length)
    (e.longestText, e.subterms.length)

/-- A proper part of an annotation is smaller. -/
theorem smaller_of_sublist {part e : Expr} {more : List Expr} (h : part.subterms.Sublist more)
    (hmore : e.subterms = e :: more) : Smaller part e := by
  have hlongest : part.longestText ≤ e.longestText :=
    longest_mono (List.Subset.trans h.subset (hmore ▸ List.subset_cons_self _ _))
  have hlength : part.subterms.length < e.subterms.length := by
    rw [hmore]
    exact Nat.lt_succ_of_le h.length_le
  rcases Nat.lt_or_eq_of_le hlongest with hlt | heq
  · exact .left _ _ hlt
  · rw [Smaller, heq]
    exact .right _ hlength

/-- A quoted annotation is a text that can be read. -/
theorem exists_of_quoted? {e inner : Expr} (h : quoted? names e = some inner) :
    ∃ s marked, e = .constant (.text (codePoints s) marked) ∧
    readExpression names s = .ok inner := by
  unfold quoted? at h
  split at h
  · rename_i points marked
    obtain ⟨s, hpoints, hread⟩ := Option.bind_eq_some_iff.mp h
    obtain rfl := CodePoints.string?_eq_some_iff.mp hpoints
    cases hresult : readExpression names s with
    | error reason => simp [hresult, Except.toOption] at hread
    | ok other =>
        obtain rfl : other = inner := by simpa [hresult, Except.toOption] using hread
        exact ⟨s, marked, rfl, hresult⟩
  · cases h

/-- What is in quotes is smaller, since its text is shorter than the one around it. -/
theorem smaller_of_quoted? {e inner : Expr} (h : quoted? names e = some inner) :
    Smaller inner e := by
  obtain ⟨s, marked, rfl, hread⟩ := exists_of_quoted? h
  exact .left _ _ (longestText_lt_of_mem (self_mem_subterms _) hread)

/-- The operands of a chain are inside it. -/
theorem sublist_of_mem_bars {e part : Expr} (h : part ∈ bars e) :
    part.subterms.Sublist e.subterms := by
  fun_induction bars e with
  | case1 left right ihleft ihright =>
      rw [Expr.subterms]
      refine .cons _ ?_
      rcases List.mem_append.mp h with hleft | hright
      · exact (ihleft hleft).trans (List.sublist_append_left _ _)
      · exact (ihright hright).trans (List.sublist_append_right _ _)
  | case2 e hne => rw [List.mem_singleton.mp h]

/-- An operand of a union is smaller. -/
theorem smaller_of_mem_operands {e part : Expr} {operands : List Expr}
    (h : operands? e = some operands) (hpart : part ∈ operands) : Smaller part e := by
  unfold operands? at h
  split at h
  · cases h
    refine smaller_of_sublist ?_ rfl
    rcases List.mem_append.mp hpart with hleft | hright
    · exact (sublist_of_mem_bars hleft).trans (List.sublist_append_left _ _)
    · exact (sublist_of_mem_bars hright).trans (List.sublist_append_right _ _)
  · split at h
    · cases h
      obtain ⟨arg, harg, hpart⟩ := List.mem_flatMap.mp hpart
      refine smaller_of_sublist ?_ rfl
      exact (sublist_of_mem_bars hpart).trans
        ((sublist_genericArgs harg).trans (List.sublist_append_right _ _))
    · cases h
  · cases h

/-- What is qualified is smaller. -/
theorem smaller_of_qualified? {e arg : Expr} (h : qualified? e = some arg) : Smaller arg e := by
  unfold qualified? at h
  split at h
  · split at h
    · refine smaller_of_sublist ?_ rfl
      exact (sublist_genericArgs (List.mem_of_head? h)).trans (List.sublist_append_right _ _)
    · cases h
  · cases h

/-! ## Quotes, qualifiers and leaves -/

/-- An annotation without the quotes around it. -/
def unquoted (names : CharacterNames) (e : Expr) : Expr :=
  match _ : quoted? names e with
  | some inner => unquoted names inner
  | none => e
termination_by (e.longestText, e.subterms.length)
decreasing_by exact smaller_of_quoted? ‹_›

/-- An annotation without quotes and qualifiers around it. -/
def bare (names : CharacterNames) (e : Expr) : Expr :=
  match _ : (quoted? names e).or (qualified? e) with
  | some inner => bare names inner
  | none => e
termination_by (e.longestText, e.subterms.length)
decreasing_by
  exact (Option.or_eq_some_iff.mp ‹_›).elim smaller_of_quoted? fun h => smaller_of_qualified? h.2

/-- What a union is made of in the end, from left to right and without quotes. -/
def leaves (names : CharacterNames) (e : Expr) : List Expr :=
  match _ : quoted? names e with
  | some inner => leaves names inner
  | none =>
    match _ : operands? e with
    | some operands => operands.attach.flatMap fun part => leaves names part.1
    | none => [e]
termination_by (e.longestText, e.subterms.length)
decreasing_by
  · exact smaller_of_quoted? ‹_›
  · exact smaller_of_mem_operands ‹_› part.2

/-- Whether an annotation resolves to a union: it has bars, is a generic union, or lists literals
other than one, with or without quotes and qualifiers. -/
def unites (names : CharacterNames) (e : Expr) : Bool :=
  match bare names e with
  | .binary .bitOr _ _ => true
  | .subscript base index =>
    baseName? base == some "Union" ||
      baseName? base == some "Literal" && (genericArgs index).length != 1
  | _ => false

section Equations

variable {e inner : Expr} {operands : List Expr}

theorem unquoted_eq_self (h : quoted? names e = none) : unquoted names e = e := by
  rw [unquoted]
  grind

/-- Taking off quotes or a qualifier goes on with what is inside. -/
theorem bare_of_inside (h : (quoted? names e).or (qualified? e) = some inner) :
    bare names e = bare names inner := by
  rw [bare]
  grind

theorem bare_eq_self (h : (quoted? names e).or (qualified? e) = none) : bare names e = e := by
  rw [bare]
  grind

/-- The leaves of a quoted annotation are those of what is in its quotes. -/
theorem leaves_of_quoted? (h : quoted? names e = some inner) :
    leaves names e = leaves names inner := by
  rw [leaves]
  grind

/-- A union is not quoted. -/
theorem quoted?_of_operands (h : operands? e = some operands) : quoted? names e = none := by
  cases e with
  | constant value => cases h
  | _ => rfl

theorem qualified?_of_operands (h : operands? e = some operands) : qualified? e = none := by
  unfold operands? at h
  split at h
  · rfl
  · split at h
    · rename_i hbase
      rw [qualified?, eq_of_beq hbase, if_neg (by decide)]
    · cases h
  · cases h

/-- The leaves of a union are those of its operands. -/
theorem leaves_of_operands (h : operands? e = some operands) :
    leaves names e = operands.flatMap (leaves names) := by
  rw [leaves]
  split
  · rename_i other hother
    rw [quoted?_of_operands h] at hother
    cases hother
  · split
    · rename_i others hothers
      cases h.symm.trans hothers
      rw [List.flatMap_subtype fun _ _ => rfl, List.unattach_attach]
    · rename_i hnone
      rw [h] at hnone
      cases hnone

/-- What is no union is its own leaf. -/
theorem leaves_eq_singleton (hquoted : quoted? names e = none) (h : operands? e = none) :
    leaves names e = [e] := by
  rw [leaves]
  grind

end Equations

/-- Without its quotes an annotation is not quoted. -/
theorem quoted?_unquoted (e : Expr) : quoted? names (unquoted names e) = none := by
  fun_induction unquoted names e with
  | case1 e inner hinner ih => exact ih
  | case2 e hnone => exact hnone

theorem leaves_unquoted (e : Expr) : leaves names (unquoted names e) = leaves names e := by
  fun_induction unquoted names e with
  | case1 e inner hinner ih => rw [ih, leaves_of_quoted? hinner]
  | case2 e hnone => rfl

theorem bare_unquoted (e : Expr) : bare names (unquoted names e) = bare names e := by
  fun_induction unquoted names e with
  | case1 e inner hinner ih => rw [ih, bare_of_inside (e := e) (by rw [hinner]; rfl)]
  | case2 e hnone => rfl

@[simp]
theorem leaves_name (id : String) : leaves names (.name id) = [.name id] :=
  leaves_eq_singleton rfl rfl

@[simp]
theorem unites_name (id : String) : unites names (.name id) = false := by
  rw [unites, bare_eq_self rfl]

/-- A quoted annotation is a union if what is in its quotes is. -/
theorem unites_of_quoted? {e inner : Expr} (h : quoted? names e = some inner) :
    unites names e = unites names inner := by
  have hinside : (quoted? names e).or (qualified? e) = some inner := by
    rw [h]
    rfl
  rw [unites, bare_of_inside hinside, ← unites]

/-- An annotation with operands is a union. -/
theorem unites_of_operands {e : Expr} {operands : List Expr}
    (h : operands? (unquoted names e) = some operands) : unites names e = true := by
  have hinside : (quoted? names (unquoted names e)).or (qualified? (unquoted names e)) = none := by
    rw [quoted?_of_operands h, qualified?_of_operands h]
    rfl
  rw [unites, ← bare_unquoted, bare_eq_self hinside]
  generalize unquoted names e = read at h
  unfold operands? at h
  split at h
  · rfl
  · split at h
    · rename_i hbase
      exact Bool.or_eq_true_iff.mpr (.inl hbase)
    · cases h
  · cases h

/-- What does not resolve to a union has one leaf: itself without quotes. -/
theorem leaves_of_not_unites {e : Expr} (h : unites names e = false) :
    leaves names e = [unquoted names e] := by
  rw [← leaves_unquoted]
  refine leaves_eq_singleton (quoted?_unquoted e) (Option.eq_none_iff_forall_ne_some.mpr ?_)
  intro operands hoperands
  rw [unites_of_operands hoperands] at h
  cases h

end Hint

end AikenForge
