/-
# The weight of tokens

A string literal weighs as much as is written between its quotes and two quotes; other tokens weigh
nothing. Tokens are read from the front of a text, so all of them together weigh no more than the
text has characters.
-/

import AikenForge.Source.Lexer
import AikenForge.Source.Walk
import Mathlib.Algebra.GroupWithZero.Nat

namespace AikenForge.Source

/-- The weight of a literal value: that of a text, which the scanner gives to no number. -/
def Constant.weight : Constant → Nat
  | .text s _ => s.length + 2
  | _ => 0

/-- The weight of a lexeme. -/
def Lexeme.weight : Lexeme → Nat
  | .string literal => literal.body.length + 2
  | .number value => value.weight
  | _ => 0

/-- The text of a constant is within the weight of its token, with two quotes left over. -/
theorem textLength_le_weight (value : Constant) :
    (Expr.constant value).textLength ≤ value.weight - 2 := by
  cases value <;> simp [Expr.textLength, Constant.weight]

/-- The weight of a row of tokens. -/
def weight (tokens : List Token) : Nat :=
  (tokens.map fun token => token.lexeme.weight).sum

@[simp]
theorem weight_nil : weight [] = 0 :=
  rfl

@[simp]
theorem weight_cons (token : Token) (tokens : List Token) :
    weight (token :: tokens) = token.lexeme.weight + weight tokens := by
  simp [weight]

/-- The weight of tokens adds up. -/
@[simp]
theorem weight_append (first second : List Token) :
    weight (first ++ second) = weight first + weight second := by
  simp [weight]

/-! ## Numbers -/

/-- What is read from the front of a text satisfies `p`, and at most `n` characters are left. -/
def Leaves {α : Type} (p : α → Prop) (n : Nat) (result : Option (α × List Char)) : Prop :=
  ∀ value rest, result = some (value, rest) → p value ∧ rest.length ≤ n

section Leaves

variable {α β : Type} {p : α → Prop} {q : β → Prop} {n : Nat}

theorem leaves_none : Leaves p n none :=
  fun _ _ h => nomatch h

theorem leaves_some {value : α} {rest : List Char} (hvalue : p value) (h : rest.length ≤ n) :
    Leaves p n (some (value, rest)) := by
  intro _ _ heq
  cases heq
  exact ⟨hvalue, h⟩

/-- A choice leaves what both of its sides leave. -/
theorem Leaves.ite {c : Prop} [Decidable c] {yes no : Option (α × List Char)}
    (hyes : Leaves p n yes)
    (hno : Leaves p n no) : Leaves p n (if c then yes else no) := by
  split
  · exact hyes
  · exact hno

/-- Reading on: the second part starts from what the first one left. -/
theorem Leaves.bind {first : Option (α × List Char)} {next : α × List Char → Option (β × List Char)}
    (h : Leaves p n first) (hnext : ∀ value rest, rest.length ≤ n →
      Leaves q n (next (value, rest))) :
    Leaves q n (first >>= next) := by
  intro value rest heq
  obtain ⟨⟨value', rest'⟩, hfirst, heq⟩ := Option.bind_eq_some_iff.mp heq
  exact hnext value' rest' (h value' rest' hfirst).2 value rest heq

theorem Leaves.mono {m : Nat} {result : Option (α × List Char)} (h : Leaves p n result)
    (hle : n ≤ m) :
    Leaves p m result :=
  fun value rest heq => (h value rest heq).imp_right fun hrest => Nat.le_trans hrest hle

end Leaves

/-- Digits may be anything. -/
abbrev anyDigits : List Char → Prop :=
  fun _ => True

/-- A number without weight. -/
abbrev Weightless (value : Constant) : Prop :=
  value.weight = 0

section Numbers

variable {n : Nat} {cs : List Char}

/-- A run of digits takes characters away. -/
theorem leaves_digitRun (isDigit : Char → Bool) (cs : List Char) :
    Leaves anyDigits cs.length (digitRun isDigit cs) := by
  fun_induction digitRun isDigit cs with
  | case1 => exact leaves_some trivial (Nat.le_refl _)
  | case2 d cs hd ih => exact ih.mono (Nat.le_succ _)
  | case3 => exact leaves_none
  | case4 => exact leaves_none
  | case5 c cs hc hd ih =>
      intro digits rest heq
      obtain ⟨⟨digits', rest'⟩, hrun, heq⟩ := Option.map_eq_some_iff.mp heq
      cases heq
      exact ⟨trivial, Nat.le_succ_of_le (ih _ _ hrun).2⟩
  | case6 => exact leaves_some trivial (Nat.le_refl _)

/-- A number may end here, if no letter or digit follows. -/
theorem leaves_closeNumber {value : Constant} (hvalue : Weightless value) (h : cs.length ≤ n) :
    Leaves Weightless n (closeNumber value cs) :=
  .ite (leaves_some hvalue h) leaves_none

/-- Digits after the prefix of a base. -/
theorem leaves_readBased (base : Nat) (h : cs.length ≤ n) :
    Leaves Weightless n (readBased base cs) := by
  refine ((leaves_digitRun _ cs).mono h).bind fun digits rest hrest => ?_
  dsimp only
  split
  · exact leaves_none
  · exact .ite leaves_none (leaves_closeNumber rfl hrest)
  · exact leaves_some rfl hrest

/-- A real number, perhaps with the mark of an imaginary one after it. -/
theorem leaves_closeReal (digits : List Char) (exponent : Int) (h : cs.length ≤ n) :
    Leaves Weightless n (closeReal digits exponent cs) := by
  unfold closeReal
  split
  · exact leaves_closeNumber rfl (Nat.le_of_succ_le h)
  · exact leaves_closeNumber rfl (Nat.le_of_succ_le h)
  · exact leaves_closeNumber rfl h

/-- An exponent is read where there is one. -/
theorem leaves_readExponent (h : cs.length ≤ n) :
    Leaves (fun _ => True) n (readExponent cs) := by
  unfold readExponent
  split
  rename_i isNegative after hsign
  have hafter : after.length ≤ n := by
    split at hsign <;> cases hsign
    · exact Nat.le_of_succ_le h
    · exact Nat.le_of_succ_le h
    · exact h
  have hdigits := (leaves_digitRun Char.isDigit after).mono hafter
  dsimp only
  split
  · exact .ite (hdigits.bind fun _ _ hrest => leaves_some trivial hrest) leaves_none
  · exact leaves_none

theorem leaves_readScaled (digits : List Char) (shift : Nat) (h : cs.length ≤ n) :
    Leaves Weightless n (readScaled digits shift cs) := by
  unfold readScaled
  split
  case h_3 => exact leaves_closeReal _ _ h
  all_goals
    split
    · rename_i hread
      exact leaves_closeReal _ _ (leaves_readExponent (Nat.le_of_succ_le h) _ _ hread).2
    · exact leaves_closeReal _ _ h

/-- The digits after the point. -/
theorem leaves_readFraction (digits : List Char) (h : cs.length ≤ n) :
    Leaves Weightless n (readFraction digits cs) := by
  have hscaled (fraction : List Char) {rest : List Char} (hrest : rest.length ≤ n) :
      Leaves Weightless n (readScaled (digits ++ fraction) fraction.length rest) :=
    leaves_readScaled _ _ hrest
  have hdigits := (leaves_digitRun Char.isDigit cs).mono h
  unfold readFraction
  dsimp only
  split
  · exact .ite (hdigits.bind fun _ _ hrest => hscaled _ hrest) (hscaled [] h)
  · exact hscaled [] h

/-- A whole number in the digits read. -/
theorem leaves_closeInteger (digits : List Char) (h : cs.length ≤ n) :
    Leaves Weightless n (closeInteger digits cs) :=
  .ite leaves_none (.ite leaves_none (leaves_closeNumber rfl h))

theorem leaves_closeBeforeLetter (digits : List Char) (h : cs.length ≤ n) :
    Leaves Weightless n (closeBeforeLetter digits cs) :=
  .ite (leaves_closeReal _ _ h) (leaves_closeInteger _ h)

/-- A decimal number of any form. -/
theorem leaves_readDecimal (h : cs.length ≤ n) : Leaves Weightless n (readDecimal cs) := by
  refine ((leaves_digitRun _ cs).mono h).bind fun digits rest hrest => ?_
  dsimp only
  split
  · exact leaves_readFraction _ (Nat.le_of_succ_le hrest)
  · exact leaves_closeReal _ _ hrest
  · exact leaves_closeReal _ _ hrest
  · exact .ite (leaves_readScaled _ _ hrest) (leaves_closeBeforeLetter _ hrest)
  · exact .ite (leaves_readScaled _ _ hrest) (leaves_closeBeforeLetter _ hrest)
  · exact leaves_closeInteger _ hrest

/-- A number is read from its own characters, and weighs nothing as a text. -/
theorem leaves_readNumber (cs : List Char) : Leaves Weightless cs.length (readNumber cs) := by
  unfold readNumber
  split
  all_goals first
    | exact leaves_readBased _ (Nat.le_of_succ_le (Nat.le_succ _))
    | exact leaves_readFraction _ (Nat.le_succ _)
    | exact leaves_readDecimal (Nat.le_refl _)

end Numbers

/-! ## Strings -/

/-- A string on one line: its body and the rest are shorter than what was there, by the closing
quote. -/
theorem shortBody_length {mark : Char} {cs body rest : List Char}
    (h : shortBody mark cs = some (body, rest)) : body.length + rest.length < cs.length := by
  fun_induction shortBody mark cs generalizing body rest with
  | case1 => cases h
  | case2 => cases h
  | case3 c cs ih =>
      obtain ⟨⟨body', rest'⟩, hrec, h⟩ := Option.map_eq_some_iff.mp h
      cases h
      have := ih hrec
      simp only [List.length_cons]
      omega
  | case4 =>
      cases h
      simp
  | case5 =>
      rename_i ih
      obtain ⟨⟨body', rest'⟩, hrec, h⟩ := Option.map_eq_some_iff.mp h
      cases h
      have := ih hrec
      simp only [List.length_cons]
      omega

/-- A string over several lines is shorter than what was there by its closing quotes. -/
theorem longBody_length {mark : Char} {cs body rest : List Char}
    (h : longBody mark cs = some (body, rest)) : body.length + rest.length < cs.length := by
  fun_induction longBody mark cs generalizing body rest with
  | case1 => cases h
  | case2 c cs ih =>
      obtain ⟨⟨body', rest'⟩, hrec, h⟩ := Option.map_eq_some_iff.mp h
      cases h
      have := ih hrec
      simp only [List.length_cons]
      omega
  | case3 =>
      cases h
      simp only [List.length_nil, List.length_drop, List.length_cons]
      omega
  | case4 =>
      rename_i ih
      obtain ⟨⟨body', rest'⟩, hrec, h⟩ := Option.map_eq_some_iff.mp h
      cases h
      have := ih hrec
      simp only [List.length_cons]
      omega

/-- In any string at least both quotes are left over. -/
theorem stringBody_length {mark : Char} {cs body rest : List Char}
    (h : stringBody mark cs = some (body, rest)) : body.length + 2 + rest.length ≤ cs.length := by
  unfold stringBody at h
  split at h
  · have := longBody_length h
    rw [List.length_drop] at this
    omega
  · have := shortBody_length h
    rw [List.length_drop] at this
    omega

/-! ## Tokens -/

/-- What is read from the front of a text weighs no more than what is taken from it. -/
def Weighs (n : Nat) (result : Option (List Token × Cursor × List Char)) : Prop :=
  ∀ tokens cursor rest, result = some (tokens, cursor, rest) → weight tokens + rest.length ≤ n

section Weighs

variable {n : Nat} {cursor : Cursor} {cs : List Char}

theorem weighs_none : Weighs n none :=
  fun _ _ _ h => nomatch h

theorem weighs_some {tokens : List Token} {rest : List Char} (h : weight tokens + rest.length ≤ n) :
    Weighs n (some (tokens, cursor, rest)) := by
  intro _ _ _ heq
  cases heq
  exact h

/-- A choice weighs what both of its sides weigh. -/
theorem Weighs.ite {p : Prop} [Decidable p] {yes no : Option (List Token × Cursor × List Char)}
    (hyes : Weighs n yes) (hno : Weighs n no) : Weighs n (if p then yes else no) := by
  split
  · exact hyes
  · exact hno

/-- Measuring the margin of a line takes characters away. -/
theorem leaves_measureMargin (margin : Margin) (fixed : Option Nat) (lines : Nat) (cs : List Char) :
    ∀ margin' fixed' lines' rest,
      measureMargin margin fixed lines cs = some (margin', fixed', lines', rest) →
        rest.length ≤ cs.length := by
  fun_induction measureMargin margin fixed lines cs with
  | case1 | case2 | case3 =>
      rename_i ih
      exact fun _ _ _ _ h => Nat.le_succ_of_le (ih _ _ _ _ h)
  | case4 =>
      rename_i ih
      exact fun _ _ _ _ h => Nat.le_succ_of_le (Nat.le_succ_of_le (ih _ _ _ _ h))
  | case5 => exact fun _ _ _ _ h => nomatch h
  | case6 =>
      intro _ _ _ _ h
      cases h
      exact Nat.le_refl _

/-- The marks of the layout have no characters of their own, and weigh nothing. -/
theorem weight_layoutMarks {margins left : List Margin} {margin : Margin} {marks : List Lexeme}
    (h : layoutMarks margins margin = some (marks, left)) (line : Nat) :
    weight (marks.map fun mark => ⟨mark, line, line⟩) = 0 := by
  unfold layoutMarks at h
  dsimp only at h
  split at h
  · split at h <;> cases h
    rfl
  split at h
  · split at h <;> cases h
    rfl
  · split at h <;> cases h
    simp [weight, Lexeme.weight]

theorem length_skipComment (cs : List Char) : (skipComment cs).length ≤ cs.length :=
  (List.dropWhile_suffix _).length_le

/-- The start of a line, with the marks of the layout that it calls for. -/
theorem weighs_openLine (cursor : Cursor) (cs : List Char) :
    Weighs cs.length (openLine cursor cs) := by
  intro tokens after rest heq
  obtain ⟨⟨margin, fixed, lines, body⟩, hmargin, heq⟩ := Option.bind_eq_some_iff.mp heq
  have hbody := leaves_measureMargin _ _ _ _ _ _ _ _ hmargin
  have hcomment := length_skipComment body
  refine Weighs.ite ?_ (.ite ?_ ?_) tokens after rest heq
  · split
    · rename_i hskip
      rw [hskip, List.length_cons] at hcomment
      exact weighs_some (by rw [weight_nil]; omega)
    · exact weighs_some (by simp)
  · intro tokens after rest heq
    obtain ⟨⟨marks, margins⟩, hmarks, heq⟩ := Option.bind_eq_some_iff.mp heq
    cases heq
    rw [weight_layoutMarks hmarks]
    omega
  · exact weighs_some (by simpa using hbody)

/-- A string literal weighs its body and its quotes at most. -/
theorem weighs_readString (marks : List Char) (mark : Char) (h : cs.length ≤ n) :
    Weighs n (readString cursor marks mark cs) := by
  intro tokens after rest heq
  obtain ⟨⟨body, rest'⟩, hbody, heq⟩ := Option.bind_eq_some_iff.mp heq
  cases heq
  have := stringBody_length hbody
  simp only [weight_cons, weight_nil, Lexeme.weight]
  omega

/-- A word weighs its characters. -/
theorem weighs_readWord (h : cs.length ≤ n) : Weighs n (readWord cursor cs) := by
  have hrest : (cs.dropWhile isWordChar).length ≤ n :=
    Nat.le_trans (List.dropWhile_suffix _).length_le h
  have hplain : Weighs n (if isValidWord (cs.takeWhile isWordChar) then
      some ([⟨.word (.ofList (cs.takeWhile isWordChar)), cursor.line, cursor.line⟩], cursor,
        cs.dropWhile isWordChar)
      else none) :=
    .ite (weighs_some (by simpa [Lexeme.weight] using hrest)) weighs_none
  unfold readWord
  dsimp only
  split
  · rename_i c rest hword
    exact .ite (weighs_readString _ _ (hword ▸ hrest)) hplain
  · exact hplain

/-- A symbol weighs its characters. -/
theorem weighs_readSymbol (h : cs.length ≤ n) : Weighs n (readSymbol cursor cs) := by
  intro tokens after rest heq
  obtain ⟨symbol, -, heq⟩ := Option.bind_eq_some_iff.mp heq
  obtain ⟨brackets, -, heq⟩ := Option.bind_eq_some_iff.mp heq
  cases heq
  simp only [weight_cons, weight_nil, Lexeme.weight, List.length_drop]
  omega

/-- One step within a line, by what it starts with. -/
theorem weighs_readInLine (cursor : Cursor) (cs : List Char) :
    Weighs cs.length (readInLine cursor cs) := by
  unfold readInLine
  split
  · exact .ite (weighs_some (by simp)) weighs_none
  · exact weighs_some (by rw [weight_nil, Nat.zero_add]; exact length_skipComment _)
  · exact .ite (weighs_some (by simp [Lexeme.weight])) (weighs_some (by simp))
  · exact weighs_some (by simp)
  · exact weighs_none
  · rename_i c rest _ _ _ _
    refine .ite (weighs_some (by simp)) ?_
    refine .ite (weighs_readString _ _ (Nat.le_refl _)) (.ite ?_ ?_)
    · intro tokens after left heq
      obtain ⟨⟨value, left'⟩, hnumber, heq⟩ := Option.map_eq_some_iff.mp heq
      cases heq
      obtain ⟨hvalue, hleft⟩ := leaves_readNumber _ _ _ hnumber
      simpa [Lexeme.weight, hvalue] using hleft
    · exact .ite (weighs_readWord (Nat.le_refl _)) (weighs_readSymbol (Nat.le_refl _))

/-- The tokens of a text weigh no more than its characters. -/
theorem weight_readTokens {fuel : Nat} {tokens : List Token}
    (h : readTokens fuel cursor cs = .ok tokens) : weight tokens ≤ cs.length := by
  induction fuel generalizing cursor cs tokens with
  | zero => cases h
  | succ fuel ih =>
      rw [readTokens] at h
      split at h
      · cases h
        exact Nat.zero_le _
      have hstep : Weighs cs.length
          (if cursor.atStart then openLine cursor cs else readInLine cursor cs) :=
        .ite (weighs_openLine cursor cs) (weighs_readInLine cursor cs)
      split at h
      · cases h
      · rename_i found after rest hfound
        have hfirst := hstep _ _ _ hfound
        cases hlater : readTokens fuel after rest with
        | error line => simp [hlater, bind, Except.bind] at h
        | ok later =>
            simp only [hlater, bind, Except.bind, pure, Except.pure, Except.ok.injEq] at h
            subst h
            have := ih hlater
            rw [weight_append]
            omega

end Weighs

/-- The tokens of a text weigh no more than it has characters. -/
theorem weight_tokenize {cs : List Char} {tokens : List Token} (h : tokenize cs = .ok tokens) :
    weight tokens ≤ cs.length :=
  weight_readTokens h

end AikenForge.Source
