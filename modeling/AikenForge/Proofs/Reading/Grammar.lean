/-
# Texts are shorter than what they are read from

Every rule of the grammar reads from tokens that weigh so much, leaves tokens that weigh no more,
and gives an expression whose texts are shorter by the two quotes of a literal. The rules that read
what is nested are given, so the fact climbs the tower of grammars level by level; the expressions
inside a formatted literal are read from a text of their own, which is shorter than the literal.
-/

import AikenForge.Proofs.Reading.Literal
import AikenForge.Proofs.Reading.Tokens
import AikenForge.Source.Reader
import Mathlib.Data.Option.Basic

namespace AikenForge.Source

open Rule

/-! ## What a rule keeps -/

/-- The text in a token that is a number. -/
def Token.terms (token : Token) : List Expr :=
  match token.lexeme with
  | .number value => [.constant value]
  | _ => []

section Keeps

variable {α β : Type} {n : Nat} {terms : α → List Expr} {terms' : β → List Expr}

/-- From tokens of weight at most `n + 2` a rule gives texts of at most `n` characters, and leaves
no more weight than that. -/
def Keeps (n : Nat) (terms : α → List Expr) (rule : Rule α) : Prop :=
  ∀ tokens value rest, weight tokens ≤ n + 2 → rule tokens = some (value, rest) →
    weight rest ≤ n + 2 ∧ Within n (terms value)

/-- A value without expressions. -/
abbrev bare : α → List Expr :=
  fun _ => []

/-- A value that is given back without reading keeps what it keeps. -/
theorem Keeps.pure {value : α} (h : Within n (terms value)) : Keeps n terms (pure value) := by
  intro tokens value' rest hweight hrun
  cases hrun
  exact ⟨hweight, h⟩

theorem keeps_failure : Keeps n terms (failure : Rule α) :=
  fun _ _ _ _ hrun => nomatch hrun

/-- Reading one thing after another: what is read second may use that what was read first lies
within the weight. -/
theorem Keeps.bind {rule : Rule α} {next : α → Rule β} (h : Keeps n terms rule)
    (hnext : ∀ value, Within n (terms value) → Keeps n terms' (next value)) :
    Keeps n terms' (rule >>= next) := by
  intro tokens value rest hweight hrun
  obtain ⟨⟨first, between⟩, hfirst, hrun⟩ := Option.bind_eq_some_iff.mp hrun
  obtain ⟨hbetween, hwithin⟩ := h tokens first between hweight hfirst
  exact hnext first hwithin between value rest hbetween hrun

/-- A value put together from what was read keeps whatever follows from what was kept. -/
theorem Keeps.map {rule : Rule α} (h : Keeps n terms rule) {f : α → β}
    (hf : ∀ value, Within n (terms value) → Within n (terms' (f value))) :
    Keeps n terms' (f <$> rule) := by
  rw [map_eq_pure_bind]
  exact h.bind fun value hvalue => .pure (hf value hvalue)

theorem Keeps.then {rule : Rule α} {next : Rule β} (h : Keeps n terms rule)
    (hnext : Keeps n terms' next) : Keeps n terms' (rule *> next) := by
  rw [seqRight_eq_bind]
  exact h.bind fun _ _ => hnext

/-- A choice keeps what both of its rules keep. -/
theorem Keeps.ite {p : Prop} [Decidable p] {yes no : Rule α} (hyes : Keeps n terms yes)
    (hno : Keeps n terms no) : Keeps n terms (if p then yes else no) := by
  split
  · exact hyes
  · exact hno

/-- An alternative is tried on the same tokens, so it may use the same weight. -/
theorem Keeps.orElse {first second : Rule α} (h : Keeps n terms first)
    (hsecond : Keeps n terms second) :
    Keeps n terms (first <|> second) := by
  intro tokens value rest hweight hrun
  have hcases : (first tokens <|> second tokens) = some (value, rest) := hrun
  cases hfirst : first tokens with
  | none =>
      rw [hfirst] at hcases
      exact hsecond tokens value rest hweight hcases
  | some result =>
      rw [hfirst] at hcases
      cases hcases
      exact h tokens value rest hweight hfirst

/-- Looking at the tokens ahead: nothing is read, so all of their weight is left. -/
theorem keeps_get {next : List Token → Rule α}
    (h : ∀ tokens, weight tokens ≤ n + 2 → Keeps n terms (next tokens)) :
    Keeps n terms (get >>= next) :=
  fun tokens value rest hweight hrun => h tokens hweight tokens value rest hweight hrun

/-- Going on with other tokens is fine as long as they weigh no more. -/
theorem keeps_set {tokens : List Token} (h : weight tokens ≤ n + 2) :
    Keeps n bare (set tokens : Rule PUnit) := by
  intro before value rest _ hrun
  cases hrun
  exact ⟨h, within_nil⟩

theorem keeps_guard (p : Prop) [Decidable p] : Keeps n bare (guard p : Rule Unit) := by
  unfold guard
  exact .ite (.pure within_nil) keeps_failure

theorem keeps_lift {result : Option α} (h : ∀ value, result = some value → Within n (terms value)) :
    Keeps n terms (StateT.lift result : Rule α) := by
  intro tokens value rest hweight hrun
  obtain ⟨found, hfound, hrun⟩ := Option.bind_eq_some_iff.mp hrun
  cases hrun
  exact ⟨hweight, h _ hfound⟩

/-! ## Single tokens -/

theorem keeps_peek? : Keeps n bare peek? :=
  keeps_get fun _ _ => .pure within_nil

/-- Any token may be taken; what it carries is within the weight that it had. -/
theorem keeps_take : Keeps n Token.terms take := by
  refine keeps_get fun tokens hweight => ?_
  split
  · rename_i token rest
    rw [weight_cons] at hweight
    refine (keeps_set (by omega)).bind fun _ _ => .pure ?_
    unfold Token.terms
    split
    · rename_i value hvalue
      rw [hvalue, Lexeme.weight] at hweight
      have := textLength_le_weight value
      simp
      omega
    · exact within_nil
  · exact keeps_failure

theorem keeps_atSymbol (text : String) : Keeps n bare (atSymbol text) := by
  refine keeps_peek?.bind fun _ _ => ?_
  split <;> exact .pure within_nil

theorem keeps_atWord (text : String) : Keeps n bare (atWord text) := by
  refine keeps_peek?.bind fun _ _ => ?_
  split <;> exact .pure within_nil

/-- What is read and thrown away leaves nothing to keep. -/
theorem Keeps.discard {rule : Rule α} (h : Keeps n terms rule) : Keeps n bare (discard rule) :=
  h.map fun _ _ => within_nil

theorem keeps_discard_take : Keeps n bare (discard take) :=
  keeps_take.discard

/-- A symbol is read without anything being kept. -/
theorem keeps_symbol (text : String) : Keeps n bare (symbol text) :=
  (keeps_atSymbol text).bind fun _ _ => (keeps_guard _).bind fun _ _ => keeps_discard_take

theorem keeps_word (text : String) : Keeps n bare (word text) :=
  (keeps_atWord text).bind fun _ _ => (keeps_guard _).bind fun _ _ => keeps_discard_take

theorem keeps_symbol? (text : String) : Keeps n bare (symbol? text) :=
  (keeps_atSymbol text).bind fun _ _ =>
    .ite (keeps_discard_take.bind fun _ _ => .pure within_nil) (.pure within_nil)

theorem keeps_word? (text : String) : Keeps n bare (word? text) :=
  (keeps_atWord text).bind fun _ _ =>
    .ite (keeps_discard_take.bind fun _ _ => .pure within_nil) (.pure within_nil)

/-- A name that is read carries no expression. -/
theorem keeps_name : Keeps n bare name := by
  refine keeps_take.bind fun _ _ => ?_
  split
  · exact (keeps_guard _).bind fun _ _ => .pure within_nil
  · exact keeps_failure

/-! ## Repetition -/

/-- The expressions of an optional value. -/
abbrev optionTerms (terms : α → List Expr) (value : Option α) : List Expr :=
  value.elim [] terms

theorem within_flatMap {items : List α} :
    Within n (items.flatMap terms) ↔ ∀ item ∈ items, Within n (terms item) := by
  induction items with
  | nil => simp
  | cons item rest ih => simp [ih]

/-- An optional part keeps what it keeps where it is there. -/
theorem Keeps.attempt? {rule : Rule α} (h : Keeps n terms rule) :
    Keeps n (optionTerms terms) (attempt? rule) := by
  have hsome : Keeps n (optionTerms terms) (some <$> rule) := h.map fun _ hvalue => hvalue
  exact hsome.orElse (.pure within_nil)

/-- Repetition by induction on the bound: each round starts from tokens that weigh no more. -/
theorem Keeps.manyWithin {rule : Rule α} (h : Keeps n terms rule) (bound : List Token) :
    Keeps n (List.flatMap terms) (manyWithin rule bound) := by
  induction bound with
  | nil => exact .pure within_nil
  | cons _ bound ih =>
      refine h.attempt?.bind fun found hfound => ?_
      cases found with
      | none => exact .pure within_nil
      | some first =>
          exact ih.bind fun others hothers => .pure (within_append.mpr ⟨hfound, hothers⟩)

theorem Keeps.many {rule : Rule α} (h : Keeps n terms rule) :
    Keeps n (List.flatMap terms) (many rule) :=
  keeps_get fun tokens _ => h.manyWithin tokens

/-- A repetition with a first item. -/
theorem Keeps.many1 {rule : Rule α} (h : Keeps n terms rule) :
    Keeps n (List.flatMap terms) (many1 rule) :=
  h.bind fun _ hfirst => h.many.bind fun _ hothers => .pure (within_append.mpr ⟨hfirst, hothers⟩)

/-- A list with commas keeps what each of its items keeps. -/
theorem Keeps.commaList {rule : Rule α} (h : Keeps n terms rule) :
    Keeps n (fun result => result.1.flatMap terms) (commaList rule) :=
  h.bind fun _ hfirst => ((keeps_symbol ",").then h).many.bind fun _ hothers =>
    (keeps_symbol? ",").bind fun _ _ => .pure (within_append.mpr ⟨hfirst, hothers⟩)

/-- A test of what was read only lets fewer values through. -/
theorem Keeps.ensure {rule : Rule α} (h : Keeps n terms rule) (test : α → Bool) :
    Keeps n terms (rule >>= ensure test) :=
  h.bind fun _ hvalue => (keeps_guard _).bind fun _ _ => .pure hvalue

end Keeps

/-! ## Walks over lists -/

section Lists

variable {n : Nat}

theorem within_flatMap_subterms {items : List Expr} :
    Within n (items.flatMap Expr.subterms) ↔ Within n (Expr.all items) := by
  rw [within_flatMap, within_all]

theorem within_optional {e : Option Expr} :
    Within n (optionTerms Expr.subterms e) ↔ Within n (Expr.optional e) := by
  cases e <;> simp [Expr.optional]

theorem within_ofEntries {entries : List Entry} :
    Within n (entries.flatMap fun entry => Expr.ofEntries [entry]) ↔
      Within n (Expr.ofEntries entries) := by
  induction entries with
  | nil => simp [Expr.ofEntries]
  | cons entry rest ih => cases entry <;> simp [Expr.ofEntries, ih]

theorem within_ofLinks {links : List Link} :
    Within n (links.flatMap fun link => Expr.ofLinks [link]) ↔ Within n (Expr.ofLinks links) := by
  induction links with
  | nil => simp [Expr.ofLinks]
  | cons link rest ih => cases link; simp [Expr.ofLinks, ih]

theorem within_ofKeywords {keywords : List Keyword} :
    Within n (keywords.flatMap fun keyword => Expr.ofKeywords [keyword]) ↔
      Within n (Expr.ofKeywords keywords) := by
  induction keywords with
  | nil => simp [Expr.ofKeywords]
  | cons keyword rest ih => cases keyword <;> simp [Expr.ofKeywords, ih]

theorem within_ofClauses {clauses : List Clause} :
    Within n (clauses.flatMap fun clause => Expr.ofClauses [clause]) ↔
      Within n (Expr.ofClauses clauses) := by
  induction clauses with
  | nil => simp [Expr.ofClauses]
  | cons clause rest ih => cases clause; simp [Expr.ofClauses, ih]

theorem within_ofParameterList {parameters : List Parameter} :
    Within n (Expr.ofParameterList parameters) ↔
      ∀ parameter ∈ parameters, Within n (Expr.ofParameter parameter) := by
  induction parameters with
  | nil => simp [Expr.ofParameterList]
  | cons parameter rest ih => simp [Expr.ofParameterList, ih]

theorem within_reverse {parameters : List Parameter} :
    Within n (Expr.ofParameterList parameters.reverse) ↔
      Within n (Expr.ofParameterList parameters) := by
  simp [within_ofParameterList]

end Lists

namespace Grammar

/-! ## Rules that need no nested rules -/

section Plain

variable {n : Nat} {factor expression primary operand item : Rule Expr}

/-- Operators of one level that associate to the left, over operands that are kept. -/
theorem keeps_chainLeft (ops : List (String × BinaryOp)) (h : Keeps n Expr.subterms operand) :
    Keeps n Expr.subterms (chainLeft ops operand) := by
  refine h.bind fun first hfirst => ?_
  refine Keeps.bind (Keeps.many (?_ : Keeps n (fun link : BinaryOp × Expr => link.2.subterms) _))
    fun links hlinks => .pure ?_
  · refine keeps_peek?.bind fun _ _ => ?_
    split
    · split
      · exact keeps_discard_take.bind fun _ _ => h.bind fun _ hright => .pure hright
      · exact keeps_failure
    · exact keeps_failure
  rw [within_flatMap] at hlinks
  induction links generalizing first with
  | nil => exact hfirst
  | cons link rest ih =>
      refine ih _ ?_ fun other hother => hlinks other (List.mem_cons_of_mem _ hother)
      simpa [Expr.subterms, Expr.textLength] using ⟨hfirst, hlinks link List.mem_cons_self⟩

/-- All levels of binary operators, one after the other, over factors that are kept. -/
theorem keeps_binaryOver (h : Keeps n Expr.subterms factor) :
    Keeps n Expr.subterms (binaryOver factor) := by
  unfold binaryOver
  induction binaryLevels with
  | nil => exact h
  | cons level rest ih => exact keeps_chainLeft level ih

/-- One item stands for itself, and several for a tuple of them. -/
theorem keeps_tupleOf (h : Keeps n Expr.subterms item) : Keeps n Expr.subterms (tupleOf item) := by
  refine h.commaList.bind fun result hresult => ?_
  split
  · exact .pure (by simpa using hresult)
  · rw [within_flatMap_subterms] at hresult
    exact .pure (by simpa [Expr.subterms, Expr.textLength] using hresult)

theorem keeps_compareOp : Keeps n bare compareOp := by
  refine keeps_take.bind fun _ _ => ?_
  split
  case h_8 => exact (keeps_word "in").bind fun _ _ => .pure within_nil
  case h_9 => exact (keeps_word? "not").bind fun _ _ => .ite (.pure within_nil) (.pure within_nil)
  case h_10 => exact keeps_failure
  all_goals exact .pure within_nil

/-- A comparison chain keeps its first operand and those of its links. -/
theorem keeps_comparisonOver (h : Keeps n Expr.subterms operand) :
    Keeps n Expr.subterms (comparisonOver operand) := by
  refine h.bind fun first hfirst => ?_
  have hlink : Keeps n (fun link => Expr.ofLinks [link])
      (do let op ← compareOp; return Link.mk op (← operand)) :=
    keeps_compareOp.bind fun _ _ => h.bind fun _ hright =>
      .pure (by simpa [Expr.ofLinks] using hright)
  refine hlink.many.bind fun links hlinks => ?_
  split
  · exact .pure hfirst
  · rw [within_ofLinks] at hlinks
    exact .pure (by simpa [Expr.subterms, Expr.textLength] using ⟨hfirst, hlinks⟩)

theorem keeps_connectedBy (text : String) (op : BoolOp) (h : Keeps n Expr.subterms operand) :
    Keeps n Expr.subterms (connectedBy text op operand) := by
  refine h.bind fun first hfirst => ((keeps_word text).then h).many.bind fun others hothers => ?_
  split
  · exact .pure hfirst
  · rw [within_flatMap_subterms] at hothers
    exact .pure (by simpa [Expr.subterms, Expr.all, Expr.textLength] using ⟨hfirst, hothers⟩)

/-- The levels of negation and of the connectives over comparisons. -/
theorem keeps_disjunctionOver (h : Keeps n Expr.subterms factor) :
    Keeps n Expr.subterms (disjunctionOver factor) := by
  refine keeps_connectedBy _ _ (keeps_connectedBy _ _ ?_)
  refine (keeps_word "not").many.bind fun nots hnots => ?_
  clear hnots
  refine (keeps_comparisonOver (keeps_binaryOver h)).bind fun value hvalue => .pure ?_
  induction nots generalizing value with
  | nil => exact hvalue
  | cons _ nots ih => exact ih _ (by simpa [Expr.subterms, Expr.textLength] using hvalue)

theorem keeps_starOr (hfactor : Keeps n Expr.subterms factor)
    (hexpression : Keeps n Expr.subterms expression) :
    Keeps n Expr.subterms (starOr factor expression) := by
  refine (keeps_symbol? "*").bind fun _ _ => .ite ?_ hexpression
  exact (keeps_binaryOver hfactor).bind fun _ hvalue =>
    .pure (by simpa [Expr.subterms, Expr.textLength] using hvalue)

/-- Starred items or expressions, alone or in a tuple. -/
theorem keeps_starExpressionsOver (hfactor : Keeps n Expr.subterms factor)
    (hexpression : Keeps n Expr.subterms expression) :
    Keeps n Expr.subterms (starExpressionsOver factor expression) :=
  keeps_tupleOf (keeps_starOr hfactor hexpression)

/-- What may be yielded keeps what the expressions keep. -/
theorem keeps_yieldOver (hfactor : Keeps n Expr.subterms factor)
    (hexpression : Keeps n Expr.subterms expression) :
    Keeps n Expr.subterms (yieldOver factor expression) := by
  refine (keeps_word? "from").bind fun _ _ => .ite ?_ ?_
  · exact hexpression.bind fun _ hvalue =>
      .pure (by simpa [Expr.subterms, Expr.textLength] using hvalue)
  · refine (keeps_starExpressionsOver hfactor hexpression).attempt?.bind fun _ hvalue => .pure ?_
    rw [within_optional] at hvalue
    simpa [Expr.subterms, Expr.textLength] using hvalue

/-- The targets of a loop or a comprehension. -/
theorem keeps_targetsOver (h : Keeps n Expr.subterms primary) :
    Keeps n Expr.subterms (targetsOver primary) := by
  have hstarred : Keeps n Expr.subterms (Expr.starred <$> primary) :=
    h.map fun _ hvalue => by simpa [Expr.subterms, Expr.textLength] using hvalue
  refine keeps_tupleOf ((keeps_symbol? "*").bind fun _ _ => ?_)
  exact .ite (hstarred.ensure _) (h.ensure _)

/-- The clauses of a comprehension: a target, what is gone through, and the conditions. -/
theorem keeps_clausesOver (hprimary : Keeps n Expr.subterms primary)
    (hfactor : Keeps n Expr.subterms factor) :
    Keeps n Expr.ofClauses (clausesOver primary factor) := by
  have hdisjunction := keeps_disjunctionOver hfactor
  have hclause : Keeps n (fun clause => Expr.ofClauses [clause]) (do
      let isAsync ← word? "async"
      word "for"
      let target ← targetsOver primary
      word "in"
      let iterable ← disjunctionOver factor
      return Clause.mk target iterable (← many (word "if" *> disjunctionOver factor)) isAsync) := by
    refine (keeps_word? "async").bind fun _ _ => (keeps_word "for").bind fun _ _ => ?_
    refine (keeps_targetsOver hprimary).bind fun target htarget => ?_
    refine (keeps_word "in").bind fun _ _ => hdisjunction.bind fun iterable hiterable => ?_
    refine ((keeps_word "if").then hdisjunction).many.bind fun conditions hconditions => .pure ?_
    rw [within_flatMap_subterms] at hconditions
    simpa [Expr.ofClauses] using And.intro htarget (And.intro hiterable hconditions)
  intro tokens clauses rest hweight hrun
  obtain ⟨hrest, hclauses⟩ := hclause.many1 tokens clauses rest hweight hrun
  exact ⟨hrest, within_ofClauses.mp hclauses⟩

end Plain

/-! ## Rules over nested rules -/

/-- The nested rules of a grammar give texts shorter than what they are read from. -/
structure Kept (inner : Grammar) : Prop where
  expression : ∀ n, Keeps n Expr.subterms inner.expression
  factor : ∀ n, Keeps n Expr.subterms inner.factor

/-- The expressions of an item of a parameter list. -/
def ParameterItem.terms : ParameterItem → List Expr
  | .plain parameter _ => Expr.ofParameter parameter
  | .slash => []
  | .star parameter => Expr.ofOptionalParameter parameter
  | .doubleStar parameter => Expr.ofParameter parameter

/-- The expressions of an argument. -/
def Argument.terms : Argument → List Expr
  | .positional value | .starred value => value.subterms
  | .keyword labelled => Expr.ofKeywords [labelled]

/-- The expressions of a trailer. -/
def Trailer.terms : Trailer → List Expr
  | .attribute _ => []
  | .call args keywords => Expr.all args ++ Expr.ofKeywords keywords
  | .subscript index => index.subterms

section Sorting

variable {n : Nat}

/-- Sorting out the keyword-only parameters loses and invents none. -/
theorem within_keywordParameters {items : List ParameterItem} {only : List Parameter}
    {keywords : Option Parameter} (hitems : Within n (items.flatMap ParameterItem.terms))
    (h : keywordParameters items = some (only, keywords)) :
    Within n (Expr.ofParameterList only) ∧ Within n (Expr.ofOptionalParameter keywords) := by
  fun_induction keywordParameters items generalizing only keywords with
  | case1 =>
      cases h
      simp [Expr.ofParameterList, Expr.ofOptionalParameter]
  | case2 parameter =>
      cases h
      simpa [Expr.ofParameterList, Expr.ofOptionalParameter, ParameterItem.terms] using hitems
  | case3 parameter _ rest ih =>
      obtain ⟨⟨only', keywords'⟩, hrest, h⟩ := Option.map_eq_some_iff.mp h
      cases h
      rw [List.flatMap_cons, within_append] at hitems
      obtain ⟨honly, hkeywords⟩ := ih hitems.2 hrest
      rw [Expr.ofParameterList, within_append]
      exact ⟨⟨hitems.1, honly⟩, hkeywords⟩
  | case4 => cases h

/-- The parameters before and after the star, put together. -/
theorem within_parameters {before regular only : List Parameter}
    {variadic keywords : Option Parameter}
    (hbefore : Within n (Expr.ofParameterList before))
    (hregular : Within n (Expr.ofParameterList regular))
    (hvariadic : Within n (Expr.ofOptionalParameter variadic))
    (honly : Within n (Expr.ofParameterList only))
    (hkeywords : Within n (Expr.ofOptionalParameter keywords)) :
    Within n (Expr.ofParameters (.mk before.reverse regular.reverse variadic only keywords)) := by
  simp only [Expr.ofParameters, within_append, within_reverse]
  exact ⟨⟨⟨⟨hbefore, hregular⟩, hvariadic⟩, honly⟩, hkeywords⟩

/-- The parameters in their kinds are those that were read, so they keep what the items kept. -/
theorem within_sortParameters {before : Option (List Parameter)} {regular : List Parameter}
    {needFallback : Bool} {items : List ParameterItem} {parameters : Parameters}
    (hbefore : Within n (Expr.ofParameterList (before.getD [])))
    (hregular : Within n (Expr.ofParameterList regular))
    (hitems : Within n (items.flatMap ParameterItem.terms))
    (h : sortParameters before regular needFallback items = some parameters) :
    Within n (Expr.ofParameters parameters) := by
  have hnone : Within n (Expr.ofOptionalParameter none) := by simp [Expr.ofOptionalParameter]
  have hempty : Within n (Expr.ofParameterList []) := by simp [Expr.ofParameterList]
  fun_induction sortParameters before regular needFallback items generalizing parameters with
  | case1 =>
      cases h
      exact within_parameters hbefore hregular hnone hempty hnone
  | case2 | case4 | case7 | case10 => cases h
  | case3 before regular _ parameter _ rest _ ih =>
      rw [List.flatMap_cons, within_append] at hitems
      refine ih hbefore ?_ hitems.2 h
      rw [Expr.ofParameterList, within_append]
      exact ⟨hitems.1, hregular⟩
  | case5 before regular _ rest _ ih =>
      rw [List.flatMap_cons, within_append] at hitems
      exact ih hregular hempty hitems.2 h
  | case6 =>
      obtain ⟨⟨only, keywords⟩, hrest, h⟩ := Option.map_eq_some_iff.mp h
      cases h
      rw [List.flatMap_cons, within_append] at hitems
      obtain ⟨honly, hkeywords⟩ := within_keywordParameters hitems.2 hrest
      exact within_parameters hbefore hregular hnone honly hkeywords
  | case8 =>
      obtain ⟨⟨only, keywords⟩, hrest, h⟩ := Option.map_eq_some_iff.mp h
      cases h
      rw [List.flatMap_cons, within_append] at hitems
      obtain ⟨honly, hkeywords⟩ := within_keywordParameters hitems.2 hrest
      exact within_parameters hbefore hregular hitems.1 honly hkeywords
  | case9 =>
      cases h
      rw [List.flatMap_cons, within_append] at hitems
      exact within_parameters hbefore hregular hnone hempty hitems.1

end Sorting

section Nested

variable {inner : Grammar} {n : Nat}

/-- A starred expression is kept with its expression. -/
theorem Kept.starred (h : inner.Kept) :
    Keeps n Expr.subterms (do return .starred (← inner.expression)) :=
  (h.expression n).bind fun _ hvalue =>
    .pure (by simpa [Expr.subterms, Expr.textLength] using hvalue)

theorem keeps_atBinding : Keeps n bare atBinding := by
  refine keeps_get fun _ _ => ?_
  split <;> exact .pure within_nil

theorem keeps_atClause : Keeps n bare atClause := by
  refine keeps_get fun _ _ => ?_
  split <;> exact .pure within_nil

/-- An expression with or without a name that is bound to it. -/
theorem keeps_namedExpression (h : inner.Kept) : Keeps n Expr.subterms (namedExpression inner) := by
  refine keeps_get fun tokens hweight => ?_
  split
  · simp only [weight_cons] at hweight
    refine (keeps_guard _).bind fun _ _ => (keeps_set (by omega)).bind fun _ _ => ?_
    exact (h.expression n).bind fun _ hvalue =>
      .pure (by simpa [Expr.subterms, Expr.textLength] using hvalue)
  · exact (h.expression n).bind fun _ hvalue => (keeps_atSymbol _).bind fun _ _ =>
      (keeps_guard _).bind fun _ _ => .pure hvalue

/-- The annotation of a parameter, where one is allowed. -/
theorem keeps_hint (h : inner.Kept) (allowed : Bool) :
    Keeps n Expr.optional (hint inner allowed) := by
  have hnone : Within n (Expr.optional none) := within_nil
  refine .ite ((keeps_symbol? ":").bind fun _ _ => .ite ?_ (.pure hnone)) (.pure hnone)
  exact (h.expression n).bind fun _ hvalue => .pure hvalue

/-- One item of a parameter list: a marker, a variadic parameter, or a plain one with its
fallback. -/
theorem keeps_parameterItem (h : inner.Kept) (annotated : Bool) :
    Keeps n ParameterItem.terms (parameterItem inner annotated) := by
  have hparameter (name : String) {hint fallback : Option Expr} (hhint :
      Within n (Expr.optional hint))
      (hfallback : Within n (Expr.optional fallback)) :
      Within n (Expr.ofParameter (.mk name hint fallback)) := by
    rw [Expr.ofParameter, within_append]
    exact ⟨hhint, hfallback⟩
  have hnone : Within n (Expr.optional none) := within_nil
  refine (keeps_symbol? "/").bind fun _ _ => .ite (.pure within_nil) ?_
  refine (keeps_symbol? "**").bind fun _ _ => .ite ?_ ?_
  · exact keeps_name.bind fun name _ => (keeps_hint h annotated).bind fun _ hhint =>
      .pure (hparameter name hhint hnone)
  refine (keeps_symbol? "*").bind fun _ _ => .ite ?_ ?_
  · refine (keeps_atSymbol ",").bind fun _ _ => .ite (.pure within_nil) ?_
    refine keeps_name.bind fun name _ => (keeps_atSymbol ":").bind fun _ _ => ?_
    refine .ite ?_ (.pure (hparameter name hnone hnone))
    refine (keeps_symbol ":").bind fun _ _ => (keeps_symbol? "*").bind fun _ _ => .ite ?_ ?_
    · refine (h.expression n).bind fun _ hvalue => .pure (hparameter name ?_ hnone)
      simpa [Expr.optional, Expr.subterms, Expr.textLength] using hvalue
    · exact (h.expression n).bind fun _ hvalue => .pure (hparameter name hvalue hnone)
  · refine keeps_name.bind fun name _ => (keeps_hint h annotated).bind fun _ hhint => ?_
    refine (keeps_symbol? "=").bind fun _ _ => .ite ?_ (.pure (hparameter name hhint hnone))
    exact (h.expression n).bind fun _ hvalue => .pure (hparameter name hhint hvalue)

/-- A whole parameter list up to its closing symbol. -/
theorem keeps_parameters (h : inner.Kept) (annotated : Bool) (closing : String) :
    Keeps n Expr.ofParameters (parameters inner annotated closing) := by
  refine (keeps_atSymbol closing).bind fun _ _ => .ite (.pure ?_) ?_
  · simp [Parameters.empty, Expr.ofParameters, Expr.ofParameterList, Expr.ofOptionalParameter]
  · refine (keeps_parameterItem h annotated).commaList.bind fun result hresult => ?_
    refine keeps_lift fun parameters hparameters => ?_
    exact within_sortParameters within_nil within_nil hresult hparameters

theorem keeps_lambda (h : inner.Kept) : Keeps n Expr.subterms (lambda inner) := by
  refine (keeps_parameters h false ":").bind fun _ hparameters =>
    (keeps_symbol ":").bind fun _ _ => ?_
  refine (h.expression n).bind fun _ hbody => .pure ?_
  simpa [Expr.subterms, Expr.textLength] using ⟨hparameters, hbody⟩

/-- An argument by position or keyword, or a spread. -/
theorem keeps_argument (h : inner.Kept) : Keeps n Argument.terms (argument inner) := by
  have hkeyword {label : String} {value : Expr} (hvalue : Within n value.subterms) :
      Within n (Argument.keyword (.labelled label value)).terms := by
    simpa [Argument.terms, Expr.ofKeywords] using hvalue
  refine (keeps_symbol? "**").bind fun _ _ => .ite ?_ ((keeps_symbol? "*").bind fun _ _ =>
    .ite ?_ ?_)
  · exact (h.expression n).bind fun _ hvalue =>
      .pure (by simpa [Argument.terms, Expr.ofKeywords] using hvalue)
  · exact (h.expression n).bind fun _ hvalue => .pure hvalue
  · refine keeps_get fun tokens hweight => ?_
    split
    · simp only [weight_cons] at hweight
      refine (keeps_guard _).bind fun _ _ => (keeps_set (by omega)).bind fun _ _ => ?_
      exact (h.expression n).bind fun _ hvalue => .pure (hkeyword hvalue)
    · exact (keeps_namedExpression h).bind fun _ hvalue => .pure hvalue

/-- A bound of a slice, which a symbol that ends the slice leaves out. -/
theorem keeps_bound (h : inner.Kept) (stops : List String) : Keeps n Expr.optional (do
    match ← peek? with
    | some (.symbol text) =>
      if stops.contains text then return none else return some (← inner.expression)
    | _ => return some (← inner.expression)) := by
  have hvalue : Keeps n Expr.optional (do return some (← inner.expression)) :=
    (h.expression n).bind fun _ hvalue => .pure hvalue
  refine keeps_peek?.bind fun _ _ => ?_
  split
  · exact .ite (.pure within_nil) hvalue
  · exact hvalue

/-- A slice from a lower bound on. -/
theorem Keeps.sliceFrom {lower : Option Expr} {upper step : Rule (Option Expr)}
    (hlower : Within n (Expr.optional lower)) (hupper : Keeps n Expr.optional upper)
    (hstep : Keeps n Expr.optional step) : Keeps n Expr.subterms (do
      let upper ← upper
      if ← symbol? ":" then return .slice lower upper (← step)
      else return .slice lower upper none) := by
  have hslice {upper step : Option Expr} (hupper : Within n (Expr.optional upper))
      (hstep : Within n (Expr.optional step)) :
        Within n (Expr.slice lower upper step).subterms := by
    simpa [Expr.subterms, Expr.textLength] using And.intro hlower (And.intro hupper hstep)
  refine hupper.bind fun _ hupper => (keeps_symbol? ":").bind fun _ _ => .ite ?_ ?_
  · exact hstep.bind fun _ hstep => .pure (hslice hupper hstep)
  · exact .pure (hslice hupper within_nil)

theorem keeps_sliceItem (h : inner.Kept) : Keeps n Expr.subterms (sliceItem inner) := by
  have hbounds {lower : Option Expr} (hlower : Within n (Expr.optional lower)) :=
    Keeps.sliceFrom hlower (keeps_bound h [",", "]", ":"]) (keeps_bound h [",", "]"])
  refine (keeps_symbol? ":").bind fun _ _ => .ite (hbounds within_nil) ?_
  refine keeps_atBinding.bind fun _ _ => (keeps_namedExpression h).bind fun _ hvalue => ?_
  refine .ite (.pure hvalue) ((keeps_symbol? ":").bind fun _ _ => .ite ?_ (.pure hvalue))
  exact hbounds hvalue

/-- What stands in a subscript: an expression, a slice, or a tuple of these. -/
theorem keeps_subscriptIndex (h : inner.Kept) : Keeps n Expr.subterms (subscriptIndex inner) := by
  have hitem : Keeps n Expr.subterms (do
      if ← symbol? "*" then return .starred (← inner.expression) else sliceItem inner) :=
    (keeps_symbol? "*").bind fun _ _ => .ite h.starred (keeps_sliceItem h)
  refine hitem.commaList.bind fun result hresult => ?_
  split
  · exact .pure (by simpa [Expr.subterms, Expr.all, Expr.textLength] using hresult)
  · exact .pure (by simpa using hresult)
  · rw [within_flatMap_subterms] at hresult
    exact .pure (by simpa [Expr.subterms, Expr.textLength] using hresult)

/-- Signs and powers over primaries that are kept. -/
theorem keeps_factorOver (h : inner.Kept) {primary : Rule Expr}
    (hprimary : Keeps n Expr.subterms primary) :
    Keeps n Expr.subterms (factorOver inner primary) := by
  have hunary (op : UnaryOp) : Keeps n Expr.subterms (do return .unary op (← inner.factor)) :=
    (h.factor n).bind fun _ hvalue => .pure (by simpa [Expr.subterms, Expr.textLength] using hvalue)
  have hpower {value : Expr} (hvalue : Within n value.subterms) : Keeps n Expr.subterms (do
      if ← symbol? "**" then return .binary .pow value (← inner.factor) else return value) := by
    refine (keeps_symbol? "**").bind fun _ _ => .ite ?_ (.pure hvalue)
    refine (h.factor n).bind fun _ hright => .pure ?_
    simpa [Expr.subterms, Expr.textLength] using And.intro hvalue hright
  have hawait : Keeps n Expr.subterms (Expr.await <$> primary) :=
    hprimary.map fun _ hvalue => by simpa [Expr.subterms, Expr.textLength] using hvalue
  refine (keeps_symbol? "+").bind fun _ _ => .ite (hunary _) ?_
  refine (keeps_symbol? "-").bind fun _ _ => .ite (hunary _) ?_
  refine (keeps_symbol? "~").bind fun _ _ => .ite (hunary _) ?_
  refine (keeps_word? "await").bind fun _ _ => .ite ?_ ?_
  · exact hawait.bind fun _ hvalue => hpower hvalue
  · exact hprimary.bind fun _ hvalue => hpower hvalue

theorem keeps_displayItem (h : inner.Kept) : Keeps n Expr.subterms (displayItem inner) := by
  refine (keeps_symbol? "*").bind fun _ _ => .ite ?_ (keeps_namedExpression h)
  exact (keeps_binaryOver (h.factor n)).bind fun _ hvalue =>
    .pure (by simpa [Expr.subterms, Expr.textLength] using hvalue)

theorem keeps_clauses (h : inner.Kept) : Keeps n Expr.ofClauses (clauses inner) :=
  keeps_clausesOver (h.factor n) (h.factor n)

/-- A comprehension up to its closing symbol. -/
theorem keeps_comprehension (h : inner.Kept) (kind : ComprehensionKind) (closing : String)
    {first : Expr}
    (hfirst : Within n first.subterms) : Keeps n Expr.subterms (do
      let clauses ← clauses inner
      symbol closing
      return .comprehension kind first clauses) := by
  refine (keeps_clauses h).bind fun _ hclauses => (keeps_symbol closing).bind fun _ _ => .pure ?_
  simpa [Expr.subterms, Expr.textLength] using And.intro hfirst hclauses

/-- What a round bracket opens: an empty tuple, a tuple, a generator, or an expression in
brackets. -/
theorem keeps_roundBracket (h : inner.Kept) : Keeps n Expr.subterms (roundBracket inner) := by
  refine (keeps_symbol? ")").bind fun _ _ => .ite (.pure ?_) ?_
  · simp [Expr.subterms, Expr.all, Expr.textLength]
  refine (keeps_word? "yield").bind fun _ _ => .ite ?_ ?_
  · exact (keeps_yieldOver (h.factor n) (h.expression n)).bind fun _ hvalue =>
      (keeps_symbol ")").bind fun _ _ => .pure hvalue
  refine (keeps_displayItem h).bind fun first hfirst => keeps_atClause.bind fun _ _ => ?_
  refine .ite (keeps_comprehension h _ _ hfirst) ?_
  refine (keeps_symbol? ",").bind fun _ _ =>
    .ite ((keeps_symbol? ")").bind fun _ _ => .ite ?_ ?_) ?_
  · exact .pure (by simpa [Expr.subterms, Expr.all, Expr.textLength] using hfirst)
  · refine (keeps_displayItem h).commaList.bind fun result hresult => ?_
    rw [within_flatMap_subterms] at hresult
    refine (keeps_symbol ")").bind fun _ _ => .pure ?_
    simpa [Expr.subterms, Expr.all, Expr.textLength] using And.intro hfirst hresult
  · exact (keeps_guard _).bind fun _ _ => (keeps_symbol ")").bind fun _ _ => .pure hfirst

/-- Further items between commas up to a closing symbol. -/
theorem keeps_others {α β : Type} {terms : α → List Expr} {terms' : β → List Expr} {rule : Rule α}
    (hrule : Keeps n terms rule) (closing : String) {finish : List α → β}
    (hfinish : ∀ others, Within n (others.flatMap terms) → Within n (terms' (finish others))) :
    Keeps n terms' (do
      let others ← many (symbol "," *> rule)
      discard (symbol? ",")
      symbol closing
      return finish others) :=
  ((keeps_symbol ",").then hrule).many.bind fun others hothers =>
    (keeps_symbol? ",").discard.bind fun _ _ =>
      (keeps_symbol closing).bind fun _ _ => .pure (hfinish others hothers)

/-- What a square bracket opens: a list, or a comprehension. -/
theorem keeps_squareBracket (h : inner.Kept) : Keeps n Expr.subterms (squareBracket inner) := by
  refine (keeps_symbol? "]").bind fun _ _ => .ite (.pure ?_) ?_
  · simp [Expr.subterms, Expr.all, Expr.textLength]
  refine (keeps_displayItem h).bind fun first hfirst => keeps_atClause.bind fun _ _ => ?_
  refine .ite (keeps_comprehension h _ _ hfirst) (keeps_others (keeps_displayItem h) "]" ?_)
  intro others hothers
  rw [within_flatMap_subterms] at hothers
  simpa [Expr.subterms, Expr.all, Expr.textLength] using And.intro hfirst hothers

theorem keeps_entry (h : inner.Kept) :
    Keeps n (fun entry => Expr.ofEntries [entry]) (entry inner) := by
  refine (keeps_symbol? "**").bind fun _ _ => .ite ?_ ?_
  · exact (keeps_binaryOver (h.factor n)).bind fun _ hvalue =>
      .pure (by simpa [Expr.ofEntries] using hvalue)
  · refine (h.expression n).bind fun _ hkey => (keeps_symbol ":").bind fun _ _ => ?_
    refine (h.expression n).bind fun _ hvalue => .pure ?_
    simpa [Expr.ofEntries] using And.intro hkey hvalue

theorem keeps_dictAfter (h : inner.Kept) {first : Entry}
    (hfirst : Within n (Expr.ofEntries [first])) :
    Keeps n Expr.subterms (dictAfter inner first) := by
  refine keeps_others (keeps_entry h) "\x7d" fun others hothers => ?_
  have hall : Within n (Expr.ofEntries (first :: others)) :=
    within_ofEntries.mp (within_append.mpr ⟨hfirst, hothers⟩)
  simpa [Expr.subterms, Expr.textLength] using hall

theorem keeps_setAfter (h : inner.Kept) {first : Expr} (hfirst : Within n first.subterms) :
    Keeps n Expr.subterms (setAfter inner first) := by
  refine keeps_others (keeps_displayItem h) "\x7d" fun others hothers => ?_
  rw [within_flatMap_subterms] at hothers
  simpa [Expr.subterms, Expr.all, Expr.textLength] using And.intro hfirst hothers

/-- What a curly bracket opens: a dict or a set, by items or as a comprehension. -/
theorem keeps_curlyBracket (h : inner.Kept) : Keeps n Expr.subterms (curlyBracket inner) := by
  refine (keeps_symbol? "\x7d").bind fun _ _ => .ite (.pure ?_) ?_
  · simp [Expr.subterms, Expr.ofEntries, Expr.textLength]
  refine (keeps_atSymbol "**").bind fun _ _ => .ite ?_ ?_
  · exact (keeps_entry h).bind fun _ hfirst => keeps_dictAfter h hfirst
  refine keeps_atBinding.bind fun _ _ => (keeps_displayItem h).bind fun first hfirst => ?_
  refine (keeps_atSymbol ":").bind fun _ _ => .ite ?_ ?_
  · refine (keeps_symbol ":").bind fun _ _ => (h.expression n).bind fun value hvalue => ?_
    refine keeps_atClause.bind fun _ _ => .ite ?_ (keeps_dictAfter h ?_)
    · refine (keeps_clauses h).bind fun _ hclauses => (keeps_symbol "\x7d").bind fun _ _ => .pure ?_
      simpa [Expr.subterms, Expr.textLength] using And.intro hfirst (And.intro hvalue hclauses)
    · simpa [Expr.ofEntries] using And.intro hfirst hvalue
  · exact keeps_atClause.bind fun _ _ =>
      .ite (keeps_comprehension h _ _ hfirst) (keeps_setAfter h hfirst)

/-! ## Literals -/

/-- An expression inside a formatted literal is read from a text of its own. -/
theorem embeds_embeddedExpression (h : inner.Kept) :
    Formatted.Embeds (embeddedExpression (starExpressionsOver inner.factor inner.expression)) := by
  intro text value hvalue
  unfold embeddedExpression at hvalue
  split at hvalue
  · rename_i tokens htokens
    have hweight : weight tokens ≤ text.length + 2 := by
      simpa using weight_tokenize htokens
    have hkeeps := keeps_starExpressionsOver (h.factor text.length) (h.expression text.length)
    split at hvalue
    · rename_i hread
      cases hvalue
      exact (hkeeps tokens value [] hweight hread).2
    · cases hvalue
  · cases hvalue

/-- What a rule reads from literals is taken from the weight of the tokens, with `quotes`
besides. -/
def Spends {α : Type} (cost : α → Nat) (quotes : Nat) (rule : Rule α) : Prop :=
  ∀ tokens value rest, rule tokens = some (value, rest) →
    cost value + quotes + weight rest ≤ weight tokens

/-- The token that is taken was the first one. -/
theorem take_eq_some {tokens rest : List Token} {token : Token}
    (h : take tokens = some (token, rest)) : tokens = token :: rest := by
  cases tokens with
  | nil => cases h
  | cons first others =>
      cases h
      rfl

/-- An attempt that succeeds is the rule itself; one that fails leaves the tokens. -/
theorem attempt?_eq_some {α : Type} {rule : Rule α} {tokens rest : List Token} {found : Option α}
    (h : attempt? rule tokens = some (found, rest)) :
    (∃ value, found = some value ∧ rule tokens = some (value, rest)) ∨ found = none ∧
    rest = tokens := by
  have hrun : ((some <$> rule) tokens <|> some (none, tokens)) = some (found, rest) := h
  rw [map_eq_pure_bind] at hrun
  cases hrule : (rule >>= fun value => Pure.pure (some value)) tokens with
  | none =>
      rw [hrule] at hrun
      cases hrun
      exact .inr ⟨rfl, rfl⟩
  | some result =>
      rw [hrule] at hrun
      cases hrun
      obtain ⟨⟨value, after⟩, hvalue, hpure⟩ := Option.bind_eq_some_iff.mp hrule
      cases hpure
      exact .inl ⟨value, rfl, hvalue⟩

/-- String literals in a row: the bodies of all of them together are paid for by the tokens that
were read. -/
theorem Spends.manyWithin {rule : Rule StringLiteral}
    (h : Spends (fun literal => literal.body.length) 2 rule) (bound : List Token) :
    Spends bodySum 0 (manyWithin rule bound) := by
  induction bound with
  | nil =>
      intro tokens found rest hrun
      cases hrun
      simp [bodySum]
  | cons _ bound ih =>
      intro tokens found rest hrun
      obtain ⟨⟨first?, between⟩, hattempt, hrun⟩ := Option.bind_eq_some_iff.mp hrun
      obtain ⟨first, rfl, hfirst⟩ | ⟨rfl, hbetween⟩ := attempt?_eq_some hattempt
      · obtain ⟨⟨others, after⟩, hothers, hrun⟩ := Option.bind_eq_some_iff.mp hrun
        cases hrun
        have hspent := h _ _ _ hfirst
        have hrest := ih _ _ _ hothers
        simp only [bodySum, List.map_cons, List.sum_cons] at hspent hrest ⊢
        omega
      · cases hrun
        simp [bodySum, hbetween]

/-- At least one string literal is read, so at least one token's surplus is left over. -/
theorem Spends.many1 {rule : Rule StringLiteral}
    (h : Spends (fun literal => literal.body.length) 2 rule) : Spends bodySum 2 (many1 rule) := by
  intro tokens found rest hrun
  obtain ⟨⟨first, between⟩, hfirst, hrun⟩ := Option.bind_eq_some_iff.mp hrun
  obtain ⟨⟨others, after⟩, hothers, hrun⟩ := Option.bind_eq_some_iff.mp hrun
  cases hrun
  have hspent := h _ _ _ hfirst
  have hrest := h.manyWithin _ _ _ _ hothers
  simp only [bodySum, List.map_cons, List.sum_cons] at hspent hrest ⊢
  omega

/-- Each of the literals that follow each other has two quotes. -/
theorem spends_literals : Spends bodySum 2 literals := by
  refine Spends.many1 fun tokens literal rest hrun => ?_
  obtain ⟨⟨token, after⟩, htake, hrun⟩ := Option.bind_eq_some_iff.mp hrun
  rw [take_eq_some htake, weight_cons]
  cases hlexeme : token.lexeme with
  | string found =>
      simp only [hlexeme] at hrun
      cases hrun
      exact Nat.le_refl _
  | _ =>
      simp only [hlexeme] at hrun
      cases hrun

/-- String literals in a row, with the expressions embedded in them: their texts weigh less than the
tokens. -/
theorem keeps_literals (h : inner.Kept) : Keeps n Expr.subterms (do
    let literals ← literals
    match joinLiterals inner.names
        (embeddedExpression (starExpressionsOver inner.factor inner.expression)) literals with
    | some value => return value
    | none => failure) := by
  intro tokens value rest hweight hrun
  obtain ⟨⟨found, between⟩, hfound, hrun⟩ := Option.bind_eq_some_iff.mp hrun
  have hbody := spends_literals _ _ _ hfound
  cases hjoined : joinLiterals inner.names
      (embeddedExpression (starExpressionsOver inner.factor inner.expression)) found with
  | none =>
      simp only [hjoined] at hrun
      cases hrun
  | some joined =>
      simp only [hjoined] at hrun
      cases hrun
      have hwithin := within_joinLiterals (embeds_embeddedExpression h) hjoined
      exact ⟨by omega, hwithin.mono (by omega)⟩

/-- A constant without text weighs nothing. -/
theorem within_constant {value : Constant} (h : (Expr.constant value).textLength = 0) :
    Within n (Expr.constant value).subterms := by
  simp [Expr.subterms, h]

theorem keeps_wordAtom (text : String) : Keeps n Expr.subterms (do
    match text with
    | "True" => return .constant (.bool true)
    | "False" => return .constant (.bool false)
    | "None" => return .constant .none
    | _ =>
      guard !(reservedWords.contains text)
      return .name (.ofList (Text.compatibilityForm text.toList)) : Rule Expr) := by
  have hname {name : String} : Within n (Expr.name name).subterms := by
    simp [Expr.subterms, Expr.textLength]
  -- The branches mention the word, so its cases are told apart by hand.
  by_cases htrue : text = "True"
  · exact htrue ▸ Keeps.pure (within_constant rfl)
  by_cases hfalse : text = "False"
  · exact hfalse ▸ Keeps.pure (within_constant rfl)
  by_cases hnone : text = "None"
  · exact hnone ▸ Keeps.pure (within_constant rfl)
  simp only []
  exact (keeps_guard _).bind fun _ _ => .pure hname

/-- The atoms: literals, names, and what brackets open. -/
theorem keeps_atom (h : inner.Kept) : Keeps n Expr.subterms (atom inner) := by
  refine keeps_peek?.bind fun _ _ => ?_
  split
  · exact keeps_literals h
  refine keeps_take.bind fun token htoken => ?_
  split
  · exact keeps_wordAtom _
  · rename_i hlexeme
    rw [Token.terms, hlexeme] at htoken
    exact .pure (by simpa [Expr.subterms] using htoken)
  · exact keeps_roundBracket h
  · exact keeps_squareBracket h
  · exact keeps_curlyBracket h
  · exact .pure (within_constant rfl)
  · exact keeps_failure

/-! ## Values with trailers -/

/-- Sorted by kind the arguments are still those that were read. -/
theorem within_sortedArguments {items : List Argument}
    (h : Within n (items.flatMap Argument.terms)) :
    Within n (Expr.all (positionalValues items) ++ Expr.ofKeywords (keywordValues items)) := by
  induction items with
  | nil => exact within_nil
  | cons item rest ih =>
      rw [List.flatMap_cons, within_append] at h
      obtain ⟨hitem, hrest⟩ := h
      obtain ⟨hpositional, hkeywords⟩ := within_append.mp (ih hrest)
      rw [within_append]
      cases item with
      | positional value => exact ⟨within_append.mpr ⟨hitem, hpositional⟩, hkeywords⟩
      | starred value =>
          have hvalue : Within n value.subterms := hitem
          have hstarred : Within n (Expr.starred value).subterms := by
            simpa [Expr.subterms, Expr.textLength] using hvalue
          exact ⟨within_append.mpr ⟨hstarred, hpositional⟩, hkeywords⟩
      | keyword labelled =>
          refine ⟨hpositional, within_ofKeywords.mp ?_⟩
          exact within_append.mpr ⟨hitem, within_ofKeywords.mpr hkeywords⟩

theorem keeps_arguments (h : inner.Kept) (generatorAllowed : Bool) :
    Keeps n (fun result => Expr.all result.1 ++ Expr.ofKeywords result.2)
      (arguments inner generatorAllowed) := by
  refine (keeps_symbol? ")").bind fun _ _ => .ite (.pure within_nil) ?_
  refine (keeps_argument h).bind fun first hfirst => keeps_atClause.bind fun _ _ => ?_
  split
  · refine (keeps_clauses h).bind fun _ hclauses => (keeps_symbol ")").bind fun _ _ => .pure ?_
    simpa [Expr.all, Expr.ofKeywords, Expr.subterms, Expr.textLength, Argument.terms] using
      And.intro hfirst hclauses
  · refine ((keeps_symbol ",").then (keeps_argument h)).many.bind fun others hothers => ?_
    refine (keeps_symbol? ",").discard.bind fun _ _ => (keeps_guard _).bind fun _ _ => ?_
    refine (keeps_symbol ")").bind fun _ _ => .pure ?_
    exact within_sortedArguments (within_append.mpr ⟨hfirst, hothers⟩)

/-- A trailer is an attribute, a subscript or a list of arguments. -/
theorem keeps_trailer (h : inner.Kept) : Keeps n Trailer.terms (trailer inner) := by
  refine keeps_take.bind fun _ _ => ?_
  split
  · exact keeps_name.bind fun _ _ => .pure within_nil
  · exact (keeps_arguments h true).bind fun _ hresult => .pure hresult
  · exact (keeps_subscriptIndex h).bind fun _ hindex => (keeps_symbol "]").bind fun _ _ =>
      .pure hindex
  · exact keeps_failure

/-- A trailer keeps what it is applied to, and what it carries itself. -/
theorem within_apply {value : Expr} {trailer : Trailer} (hvalue : Within n value.subterms)
    (htrailer : Within n trailer.terms) : Within n (trailer.apply value).subterms := by
  cases trailer with
  | «attribute» label => simpa [Trailer.apply, Expr.subterms, Expr.textLength] using hvalue
  | call args keywords =>
      simpa [Trailer.apply, Trailer.terms, Expr.subterms, Expr.textLength] using
        And.intro hvalue (within_append.mp htrailer)
  | subscript index =>
      have hindex : Within n index.subterms := htrailer
      simpa [Trailer.apply, Expr.subterms, Expr.textLength] using And.intro hvalue hindex

/-- An atom with its trailers, which are applied one after the other. -/
theorem keeps_primary (h : inner.Kept) : Keeps n Expr.subterms (primary inner) := by
  refine (keeps_atom h).bind fun first hfirst =>
    (keeps_trailer h).many.bind fun trailers htrailers => ?_
  rw [within_flatMap] at htrailers
  refine .pure ?_
  induction trailers generalizing first with
  | nil => exact hfirst
  | cons trailer rest ih =>
      exact ih _ (within_apply hfirst (htrailers trailer List.mem_cons_self))
        fun other hother => htrailers other (List.mem_cons_of_mem _ hother)

/-! ## The tower of grammars -/

theorem keeps_disjunction (h : inner.Kept) : Keeps n Expr.subterms (disjunction inner) :=
  keeps_disjunctionOver (keeps_factorOver h (keeps_primary h))

/-- A whole expression, given that the expressions inside brackets are kept. -/
theorem keeps_expressionRule (h : inner.Kept) : Keeps n Expr.subterms (expressionRule inner) := by
  refine (keeps_word? "lambda").bind fun _ _ => .ite (keeps_lambda h) ?_
  refine (keeps_disjunction h).bind fun body hbody => ?_
  have hconditional : Keeps n Expr.subterms (do
      word "if"
      let test ← disjunction inner
      word "else"
      return .conditional test body (← inner.expression)) := by
    refine (keeps_word "if").bind fun _ _ => (keeps_disjunction h).bind fun test htest => ?_
    refine (keeps_word "else").bind fun _ _ => (h.expression n).bind fun _ horelse => .pure ?_
    simpa [Expr.subterms, Expr.textLength] using And.intro htest (And.intro hbody horelse)
  exact hconditional.orElse (.pure hbody)

/-- One more level of brackets. -/
theorem Kept.above (h : inner.Kept) : inner.above.Kept where
  expression _ := keeps_expressionRule h
  factor _ := keeps_factorOver h (keeps_primary h)

end Nested

/-- Every depth of brackets keeps what it reads, by induction on the depth. -/
theorem kept_ofDepth (names : CharacterNames) (depth : Nat) : (ofDepth names depth).Kept := by
  induction depth with
  | zero => exact ⟨fun _ => keeps_failure, fun _ => keeps_failure⟩
  | succ depth ih => exact ih.above

end Grammar

/-- Unified line breaks are no longer than those that were written. -/
theorem length_unifyBreaks (cs : List Char) : (unifyBreaks cs).length ≤ cs.length := by
  fun_induction unifyBreaks cs <;> simp only [List.length_cons, List.length_nil] <;> omega

/-- A text that can be read at all is read with its line breaks unified. -/
theorem sourceChars_eq_ok {text : String} {cs : List Char} (h : sourceChars text = .ok cs) :
    cs = unifyBreaks text.toList := by
  unfold sourceChars at h
  dsimp only at h
  split at h <;> cases h
  rfl

/-- An expression is read from the tokens of its text by the rules of a grammar. -/
theorem readExpression_eq_ok {names : CharacterNames} {text : String} {e : Expr}
    (h : readExpression names text = .ok e) :
    ∃ depth tokens rest, tokenize (unifyBreaks text.toList) = .ok tokens ∧
      (Grammar.ofDepth names depth).expressions tokens = some (e, rest) := by
  rw [readExpression] at h
  cases hchars : sourceChars text with
  | error reason =>
      rw [hchars] at h
      cases h
  | ok cs =>
      rw [hchars] at h
      dsimp only [bind, Except.bind] at h
      cases htokens : tokenize cs with
      | error line =>
          rw [htokens] at h
          cases h
      | ok tokens =>
          rw [htokens] at h
          dsimp only [Except.mapError] at h
          refine ⟨cs.length + 1, tokens, ?_⟩
          rw [← sourceChars_eq_ok hchars]
          split at h
          · rename_i hread
            split at h <;> cases h
            exact ⟨_, htokens, hread⟩
          · cases h

/-- Every text in an expression is shorter than the text that the expression is read from. -/
theorem textLength_lt_of_readExpression {names : CharacterNames} {text : String} {e : Expr}
    (h : readExpression names text = .ok e) :
    ∀ x ∈ e.subterms, x.textLength < text.length := by
  obtain ⟨depth, tokens, rest, htokens, hread⟩ := readExpression_eq_ok h
  have hpositive : text.length ≠ 0 := by
    intro hempty
    rw [String.length_eq_zero_iff.mp hempty] at h
    exact nomatch (show Except.error (ReadError.malformed 1) = .ok e from h)
  have hweight : weight tokens ≤ text.length :=
    Nat.le_trans (weight_tokenize htokens) (length_unifyBreaks _)
  have hkeeps := Grammar.keeps_tupleOf ((Grammar.kept_ofDepth names depth).expression
    (text.length - 2))
  have hwithin := (hkeeps tokens e rest (by omega) hread).2
  intro x hx
  have := hwithin x hx
  omega

end AikenForge.Source
