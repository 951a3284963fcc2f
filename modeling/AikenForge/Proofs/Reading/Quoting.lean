/-
# Annotations in quotes

An annotation may be written as a text, in quotes of any kind, and that text in quotes again.
However often it is quoted, it resolves to what it resolves to without quotes: a quoted text is read
as the text, and a text resolves to what it is read as.
-/

import AikenForge.Proofs.Defect
import AikenForge.Proofs.Reading.Resolution
import Mathlib.Data.Option.Basic

namespace AikenForge

open AikenForge.Source AikenForge.Text

/-! ## Reading a quoted text -/

namespace Source

/-- The ways in which a character is written between quotes. -/
inductive Writes : List Char → Char → Prop
  | plain {c : Char} (hquote : c ≠ '"') (hslash : c ≠ '\\') (hcode : 32 ≤ c.toNat) : Writes [c] c
  | letter {d c : Char} (hescape : simpleEscape? d = some c) : Writes ['\\', d] c
  | code {c : Char} (hcode : c.toNat < 32) : Writes (unitEscape c.toNat) c

/-- Every character is written as itself, by an escape of one letter, or by its code. -/
theorem writes_escapeChar (c : Char) : Writes (escapeChar .unicode c) c := by
  have hletter {d : Char} (hc : (c == d) = true) {e : Char} (h : simpleEscape? e = some d) :
      Writes ['\\', e] c := by
    rw [eq_of_beq hc]
    exact .letter h
  unfold escapeChar
  split
  · exact hletter ‹_› rfl
  split
  · exact hletter ‹_› rfl
  split
  · exact hletter ‹_› rfl
  split
  · exact hletter ‹_› rfl
  split
  · exact hletter ‹_› rfl
  split
  · exact hletter ‹_› rfl
  split
  · exact hletter ‹_› rfl
  split
  · exact .code ‹_›
  rename_i hquote hslash _ _ _ _ _ hcode
  rw [if_neg (by simp)]
  exact .plain (by simpa using hquote) (by simpa using hslash) (Nat.le_of_not_lt hcode)

theorem mem_hexDigits {width n : Nat} {c : Char} (h : c ∈ hexDigits width n) :
    ∃ d < 16, c = hexDigit d := by
  induction width generalizing n with
  | zero => cases h
  | succ width ih =>
      rw [hexDigits, List.mem_append, List.mem_singleton] at h
      exact h.elim ih fun hlast => ⟨n % 16, Nat.mod_lt n (by decide), hlast⟩

/-- Four hexadecimal digits are read as the code that they write. -/
theorem hexCode?_hexDigits {n : Nat} (h : n < 32) (rest : List Char) :
    hexCode? 4 (hexDigits 4 n ++ rest) = some (n, rest) := by
  have hdigits : ∀ n < 32, (hexDigits 4 n).length = 4 ∧
      (hexDigits 4 n).all (fun c => (hexValue? c).isSome) = true ∧
        hexNumber (hexDigits 4 n) = n := by
    decide
  obtain ⟨hlength, hall, hnumber⟩ := hdigits n h
  have htake : (hexDigits 4 n ++ rest).take 4 = hexDigits 4 n := by
    rw [← hlength]; exact List.take_left' rfl
  have hdrop : (hexDigits 4 n ++ rest).drop 4 = rest := by
    rw [← hlength]; exact List.drop_left' rfl
  unfold hexCode?
  simp [htake, hdrop, hlength, hall, hnumber]

section Decoding

variable (names : CharacterNames)

/-- An escape of one letter is read as the character that it stands for. -/
theorem readEscape_letter {d c : Char} (h : simpleEscape? d = some c) (rest : List Char) :
    readEscape names false (d :: rest) = some ([c.toNat], rest) := by
  unfold readEscape
  split
  · contradiction
  · rename_i heq
    cases heq
    cases h
  · rename_i heq
    cases heq
    rw [h]

/-- An escape by a code is read as the character of that code. -/
theorem readEscape_code {c : Char} (h : c.toNat < 32) (rest : List Char) :
    readEscape names false ('u' :: (hexDigits 4 c.toNat ++ rest)) = some ([c.toNat], rest) := by
  unfold readEscape
  simp [simpleEscape?, isOctalDigit, hexCode?_hexDigits h]

/-- Decoding goes on behind an escape that was read. -/
theorem decodeEscapes_escape {c : Char} {cs rest : List Char}
    (h : readEscape names false cs = some ([c.toNat], rest)) (fuel : Nat) :
    decodeEscapes names false (fuel + 1) ('\\' :: cs) =
      (decodeEscapes names false fuel rest).map (c.toNat :: ·) := by
  rw [decodeEscapes, h, Option.bind_eq_bind, Option.bind_some]
  dsimp only
  cases decodeEscapes names false fuel rest <;> rfl

/-- A written character takes one step to decode. -/
theorem decodeEscapes_written {written : List Char} {c : Char} (h : Writes written c) (fuel : Nat)
    (rest : List Char) : decodeEscapes names false (fuel + 1) (written ++ rest) =
      (decodeEscapes names false fuel rest).map (c.toNat :: ·) := by
  cases h with
  | plain hquote hslash hcode =>
      rw [List.singleton_append, decodeEscapes]
      exact hslash
  | letter hescape => exact decodeEscapes_escape names (readEscape_letter names hescape rest) fuel
  | code hcode => exact decodeEscapes_escape names (readEscape_code names hcode rest) fuel

/-- What is written character by character is decoded to the same characters. -/
theorem decodeEscapes_quoted {cs : List Char} {fuel : Nat} (h : cs.length ≤ fuel) :
    decodeEscapes names false fuel (cs.flatMap (escapeChar .unicode)) =
      some (cs.map Char.toNat) := by
  induction cs generalizing fuel with
  | nil => cases fuel <;> rfl
  | cons c rest ih =>
      obtain ⟨fuel, rfl⟩ := Nat.exists_eq_succ_of_ne_zero (Nat.ne_zero_of_lt h)
      rw [List.flatMap_cons, decodeEscapes_written names (writes_escapeChar c),
        ih (Nat.le_of_succ_le_succ h)]
      rfl

end Decoding

/-- A plain character belongs to the body. -/
theorem shortBody_cons {c : Char} (hquote : c ≠ '"') (hslash : c ≠ '\\') (hbreak : c ≠ '\n')
    (rest : List Char) :
    shortBody '"' (c :: rest) = (shortBody '"' rest).map fun (body, rest) => (c :: body, rest) := by
  rw [shortBody]
  · simp [hquote]
  · exact hbreak
  · exact fun _ _ heq => absurd heq hslash

/-- So do several of them. -/
theorem shortBody_append {cs : List Char} (h : ∀ c ∈ cs, c ≠ '"' ∧ c ≠ '\\' ∧ c ≠ '\n')
    (rest : List Char) :
    shortBody '"' (cs ++ rest) = (shortBody '"' rest).map fun (body, rest) =>
    (cs ++ body, rest) := by
  induction cs with
  | nil => simp
  | cons c cs ih =>
      obtain ⟨hquote, hslash, hbreak⟩ := h c List.mem_cons_self
      rw [List.cons_append, shortBody_cons hquote hslash hbreak,
        ih fun d hd => h d (List.mem_cons_of_mem _ hd), Option.map_map]
      rfl

/-- The scanner passes over a written character. -/
theorem shortBody_written {written : List Char} {c : Char} (h : Writes written c)
    (rest : List Char) :
    shortBody '"' (written ++ rest) =
      (shortBody '"' rest).map fun (body, rest) => (written ++ body, rest) := by
  cases h with
  | plain hquote hslash hcode =>
      refine shortBody_cons hquote hslash ?_ rest
      rintro rfl
      exact absurd hcode (by decide)
  | @letter d _ hescape =>
      show shortBody '"' ('\\' :: d :: rest) = _
      rw [shortBody]
      rfl
  | code hcode =>
      have hdigit : ∀ d < 16, hexDigit d ≠ '"' ∧ hexDigit d ≠ '\\' ∧ hexDigit d ≠ '\n' := by decide
      have hdigits : ∀ d ∈ hexDigits 4 c.toNat, d ≠ '"' ∧ d ≠ '\\' ∧ d ≠ '\n' := by
        intro d hd
        obtain ⟨value, hvalue, rfl⟩ := mem_hexDigits hd
        exact hdigit value hvalue
      show shortBody '"' ('\\' :: 'u' :: (hexDigits 4 c.toNat ++ rest)) = _
      rw [shortBody, shortBody_append hdigits, Option.map_map]
      rfl

/-- The body of a quoted text ends at the closing quote, as the quotes in it are escaped. -/
theorem shortBody_quoted (cs : List Char) :
    shortBody '"' (cs.flatMap (escapeChar .unicode) ++ ['"']) =
      some (cs.flatMap (escapeChar .unicode), []) := by
  induction cs with
  | nil => rfl
  | cons c rest ih =>
      rw [List.flatMap_cons, List.append_assoc, shortBody_written (writes_escapeChar c), ih]
      rfl

/-- No control character stands between the quotes. -/
theorem Writes.printable {written : List Char} {c : Char} (h : Writes written c) :
    ∀ d ∈ written, 32 ≤ d.toNat := by
  cases h with
  | plain _ _ hcode => simpa using hcode
  | @letter d _ hescape =>
      have hletter : 32 ≤ d.toNat := by
        unfold simpleEscape? at hescape
        split at hescape
        case h_11 => cases hescape
        all_goals decide
      simpa using hletter
  | code hcode =>
      have hdigit : ∀ d < 16, 32 ≤ (hexDigit d).toNat := by decide
      rw [unitEscape, List.forall_mem_cons, List.forall_mem_cons]
      refine ⟨by decide, by decide, fun d hd => ?_⟩
      obtain ⟨value, hvalue, rfl⟩ := mem_hexDigits hd
      exact hdigit value hvalue

/-- A quoted text has no control characters, and so no line breaks. -/
theorem printable_quoteChars (cs : List Char) : ∀ d ∈ quoteChars .unicode cs, 32 ≤ d.toNat := by
  intro d hd
  rw [quoteChars, List.cons_append, List.mem_cons, List.mem_append, List.mem_singleton] at hd
  rcases hd with rfl | hd | rfl
  · decide
  · obtain ⟨c, -, hd⟩ := List.mem_flatMap.mp hd
    exact (writes_escapeChar c).printable d hd
  · decide

/-- What follows the opening quote is no quote unless the text is empty. -/
theorem Writes.exists_cons {written : List Char} {c : Char} (h : Writes written c) :
    ∃ first others, written = first :: others ∧ first ≠ '"' := by
  cases h with
  | plain hquote => exact ⟨_, _, rfl, hquote⟩
  | letter => exact ⟨_, _, rfl, by decide⟩
  | code => exact ⟨_, _, rfl, by decide⟩

theorem length_le_quoted (cs : List Char) :
    cs.length ≤ (cs.flatMap (escapeChar .unicode)).length := by
  induction cs with
  | nil => exact Nat.le_refl _
  | cons c rest ih =>
      obtain ⟨first, others, hwritten, -⟩ := (writes_escapeChar c).exists_cons
      rw [List.flatMap_cons, hwritten]
      simp only [List.length_cons, List.length_append]
      omega

/-- A quoted text is a string on one line. -/
theorem stringBody_quoted (cs : List Char) :
    stringBody '"' (quoteChars .unicode cs) = some (cs.flatMap (escapeChar .unicode), []) := by
  have hshort : ¬ ((quoteChars .unicode cs).take 3 == ['"', '"', '"']) = true := by
    cases cs with
    | nil => decide
    | cons c rest =>
        obtain ⟨first, others, hwritten, hfirst⟩ := (writes_escapeChar c).exists_cons
        simp [quoteChars, hwritten, hfirst]
  rw [stringBody, if_neg hshort]
  exact shortBody_quoted cs

/-- A quoted text is read as one string token with its body. -/
theorem readString_quoted (cursor : Cursor) (cs : List Char) :
    ∃ endLine, readString cursor [] '"' (quoteChars .unicode cs) =
      some ([⟨.string ⟨false, false, false, false, cs.flatMap (escapeChar .unicode)⟩, cursor.line,
        endLine⟩], { cursor with line := endLine }, []) := by
  rw [readString, stringBody_quoted]
  exact ⟨_, rfl⟩

/-- A quoted text is one token. -/
theorem tokenize_quoted (cs : List Char) : ∃ line endLine,
    tokenize (quoteChars .unicode cs) =
      .ok [⟨.string ⟨false, false, false, false, cs.flatMap (escapeChar .unicode)⟩, line,
        endLine⟩] := by
  obtain ⟨endLine, hstring⟩ := readString_quoted ⟨1, false, [], []⟩ cs
  refine ⟨1, endLine, ?_⟩
  have hopen : openLine .initial (quoteChars .unicode cs) =
      some ([], ⟨1, false, [], []⟩, quoteChars .unicode cs) := rfl
  have hline : readInLine ⟨1, false, [], []⟩ (quoteChars .unicode cs) =
      readString ⟨1, false, [], []⟩ [] '"' (quoteChars .unicode cs) := rfl
  have hinside (fuel : Nat) : readTokens (fuel + 2) ⟨1, false, [], []⟩ (quoteChars .unicode cs) =
      .ok [⟨.string ⟨false, false, false, false, cs.flatMap (escapeChar .unicode)⟩, 1,
        endLine⟩] := by
    rw [readTokens, if_neg (by simp [quoteChars])]
    simp only [hline, hstring]
    rfl
  have hstart (fuel : Nat) : readTokens (fuel + 3) .initial (quoteChars .unicode cs) =
      .ok [⟨.string ⟨false, false, false, false, cs.flatMap (escapeChar .unicode)⟩, 1,
        endLine⟩] := by
    rw [readTokens, if_neg (by simp [quoteChars])]
    simp only [Cursor.initial, if_true] at hopen ⊢
    simp only [hopen, hinside]
    rfl
  exact hstart (2 * (quoteChars .unicode cs).length + 1)

theorem unifyBreaks_of_notMem {cs : List Char} (h : '\r' ∉ cs) : unifyBreaks cs = cs := by
  fun_induction unifyBreaks cs with
  | case1 => rfl
  | case2 => simp at h
  | case3 => simp at h
  | case4 c rest _ _ ih => rw [ih (fun hmem => h (List.mem_cons_of_mem _ hmem))]

/-! ## The rules on one literal -/

section Rules

open Rule Grammar

/-- A rule that reads something goes on with what follows it. -/
theorem run_bind {α β : Type} {rule : Rule α} {next : α → Rule β} {tokens rest : List Token}
    {value : α}
    (h : rule tokens = some (value, rest)) : (rule >>= next) tokens = next value rest := by
  show Option.bind (rule tokens) _ = _
  rw [h]
  rfl

/-- The value of one literal without marks. -/
theorem joinLiterals_plain {names : CharacterNames} {embedded : List Char → Option Expr}
    {body : List Char} {points : CodePoints} (h : decodeBody names false false body = some points) :
    joinLiterals names embedded [⟨false, false, false, false, body⟩] =
      some (.constant (.text points false)) := by
  have hmerged : Formatted.mergeTexts [.constant (.text points false)] =
      if points.isEmpty then [] else [.constant (.text points false)] := rfl
  by_cases hempty : points = []
  · subst hempty
    simp [joinLiterals, h, hmerged]
  · simp [joinLiterals, h, hmerged, hempty]

variable {inner : Grammar} {operand : Rule Expr} {token : Token} {value : Expr}

/-- With one token there is no operator to go on with. -/
theorem chainLeft_only (ops : List (String × BinaryOp)) (h : operand [token] = some (value, [])) :
    chainLeft ops operand [token] = some (value, []) :=
  (run_bind h).trans rfl

/-- A single operand is itself at every level of binary operators. -/
theorem binaryOver_only (h : operand [token] = some (value, [])) :
    binaryOver operand [token] = some (value, []) := by
  unfold binaryOver
  induction binaryLevels with
  | nil => exact h
  | cons level rest ih => exact chainLeft_only level ih

/-- A single operand is no comparison. -/
theorem comparisonOver_only (h : operand [token] = some (value, [])) :
    comparisonOver operand [token] = some (value, []) :=
  (run_bind h).trans rfl

/-- A single operand is connected to nothing. -/
theorem connectedBy_only (text : String) (op : BoolOp) (h : operand [token] = some (value, [])) :
    connectedBy text op operand [token] = some (value, []) :=
  (run_bind h).trans rfl

/-- A single item is no tuple. -/
theorem tupleOf_only (h : operand [token] = some (value, [])) :
    tupleOf operand [token] = some (value, []) := by
  have hlist : commaList operand [token] = some (([value], false), []) := (run_bind h).trans rfl
  exact (run_bind hlist).trans rfl

variable {names : CharacterNames} {literal : StringLiteral} {line endLine : Nat}

/-- A string token is an atom by its joined literals. -/
theorem atom_literal : atom inner [⟨.string literal, line, endLine⟩] =
    (match joinLiterals inner.names
      (embeddedExpression (starExpressionsOver inner.factor inner.expression)) [literal] with
      | some value => (pure value : Rule Expr)
      | none => failure) [] :=
  rfl

/-- A string token has no trailers. -/
theorem primary_literal (h : joinLiterals inner.names
    (embeddedExpression (starExpressionsOver inner.factor inner.expression))
    [literal] = some value) :
    primary inner [⟨.string literal, line, endLine⟩] = some (value, []) := by
  have hatom : atom inner [⟨.string literal, line, endLine⟩] = some (value, []) := by
    rw [atom_literal, h]
    rfl
  exact (run_bind hatom).trans rfl

/-- A string token has no sign, and is raised to no power. -/
theorem factorOver_literal {primary : Rule Expr}
    (h : primary [⟨.string literal, line, endLine⟩] = some (value, [])) :
    factorOver inner primary [⟨.string literal, line, endLine⟩] = some (value, []) := by
  have hskip (text : String) : symbol? text [⟨.string literal, line, endLine⟩] =
      some (false, [⟨.string literal, line, endLine⟩]) := rfl
  have hawait : word? "await" [⟨.string literal, line, endLine⟩] =
      some (false, [⟨.string literal, line, endLine⟩]) := rfl
  refine (run_bind (hskip "+")).trans
    ((run_bind (hskip "-")).trans ((run_bind (hskip "~")).trans ?_))
  exact (run_bind hawait).trans ((run_bind h).trans rfl)

/-- A string token is an expression at every level of connectives. -/
theorem disjunctionOver_literal {factor : Rule Expr}
    (h : factor [⟨.string literal, line, endLine⟩] = some (value, [])) :
    disjunctionOver factor [⟨.string literal, line, endLine⟩] = some (value, []) := by
  refine connectedBy_only _ _ (connectedBy_only _ _ ?_)
  exact (run_bind (comparisonOver_only (binaryOver_only h))).trans rfl

theorem names_ofDepth (depth : Nat) : (ofDepth names depth).names = names := by
  induction depth with
  | zero => rfl
  | succ depth ih => exact ih

/-- A string token alone is read as the constant that its body decodes to. -/
theorem expressions_literal (depth : Nat) {body : List Char} {points : CodePoints}
    (h : decodeBody names false false body = some points) :
    (ofDepth names (depth + 1)).expressions
        [⟨.string ⟨false, false, false, false, body⟩, line, endLine⟩] =
      some (.constant (.text points false), []) := by
  have hprimary : primary (ofDepth names depth)
      [⟨.string ⟨false, false, false, false, body⟩, line, endLine⟩] =
        some (.constant (.text points false), []) := by
    refine primary_literal (joinLiterals_plain ?_)
    rw [names_ofDepth]
    exact h
  have hlambda : word? "lambda" [⟨.string ⟨false, false, false, false, body⟩, line, endLine⟩] =
      some (false, [⟨.string ⟨false, false, false, false, body⟩, line, endLine⟩]) := rfl
  refine tupleOf_only ((run_bind hlambda).trans ?_)
  exact (run_bind (disjunctionOver_literal (factorOver_literal hprimary))).trans rfl

end Rules

/-- A text in quotes is read as the text. -/
theorem readExpression_quote (names : CharacterNames) (s : String) :
    readExpression names (quote .unicode s) = .ok (.constant (.text (codePoints s) false)) := by
  have hprintable {d : Char} (hd : d.toNat < 32) : d ∉ (quote .unicode s).toList := by
    intro hmem
    have := printable_quoteChars s.toList d (by simpa [quote] using hmem)
    omega
  have hchars : sourceChars (quote .unicode s) = .ok (quoteChars .unicode s.toList) := by
    have hbreaks : unifyBreaks (quote .unicode s).toList = quoteChars .unicode s.toList := by
      rw [unifyBreaks_of_notMem (hprintable (by decide)), quote, String.toList_ofList]
    rw [sourceChars_of_not_nul (hprintable (by decide)), hbreaks]
  obtain ⟨line, endLine, htokens⟩ := tokenize_quoted s.toList
  have hbody : decodeBody names false false (s.toList.flatMap (escapeChar .unicode)) =
      some (codePoints s) :=
    decodeEscapes_quoted names (length_le_quoted s.toList)
  rw [readExpression, hchars]
  dsimp only [bind, Except.bind]
  rw [htokens]
  dsimp only [Except.mapError]
  rw [expressions_literal _ hbody]
  rfl

end Source

namespace Hint

variable {names : CharacterNames}

/-- A text that is another one in quotes, so many times. -/
inductive Quotes (names : CharacterNames) : Nat → String → String → Prop
  | zero {s : String} : Quotes names 0 s s
  | succ {count : Nat} {s inner outer : String} {marked : Bool} (h : Quotes names count s inner)
      (hread : readExpression names outer = .ok (.constant (.text (codePoints inner) marked))) :
      Quotes names (count + 1) s outer

/-- An annotation that is a text is resolved as the expression that the text is read as. -/
theorem resolve_text {s : String} {e : Expr} (h : readExpression names s = .ok e) (marked : Bool) :
    resolve names (.constant (.text (codePoints s) marked)) = resolve names e := by
  rw [← typeStep_resolver]
  show textBy names (resolve names) (codePoints s) = resolve names e
  rw [textBy, string?_codePoints]
  simp only [h]

/-- However often a text is quoted, it resolves to the same. -/
theorem Quotes.resolve {count : Nat} {s outer : String} (h : Quotes names count s outer) {e : Expr}
    (hread : readExpression names s = .ok e) :
    ∃ e', readExpression names outer = .ok e' ∧ Hint.resolve names e' = Hint.resolve names e := by
  induction h with
  | zero => exact ⟨e, hread, rfl⟩
  | succ h houter ih =>
      obtain ⟨e', hinner, heq⟩ := ih hread
      exact ⟨_, houter, (resolve_text hinner _).trans heq⟩

/-- A text may be quoted any number of times over. -/
theorem quotes_iterate (count : Nat) (s : String) :
    Quotes names count s ((quote .unicode)^[count] s) := by
  induction count with
  | zero => exact .zero
  | succ count ih =>
      rw [Function.iterate_succ_apply']
      exact .succ ih (readExpression_quote names _)

/-- Resolving annotations ends, whatever texts are in them. The calls of its functions descend, one
step of a function depends on its callees only, and so the answers that agree with their own step
are those of resolving and no others. No reading of texts to a depth is cut off, because a text is
longer than every text in what it is read as. And an annotation in quotes resolves like the
annotation. -/
theorem resolving_ends (names : CharacterNames) :
    WellFounded (Enters names) ∧
    (∀ (first second : Resolver) (call : Call),
      (∀ callee, Enters names callee call → first.Agrees second callee) →
        (first.step names).Agrees (second.step names) call) ∧
    (∀ answers : Resolver, answers.step names = answers ↔ answers = resolver names) ∧
    (∀ (depth : Nat) (e : Expr), e.longestText < depth →
      resolveUpTo names depth e = resolve names e) ∧
    (∀ (s : String) (e : Expr), readExpression names s = .ok e →
      (∀ x ∈ e.subterms, x.textLength < s.length) ∧
      ∀ count, Quotes names count s ((quote .unicode)^[count] s) ∧
        ∀ outer, Quotes names count s outer →
          ∃ e', readExpression names outer = .ok e' ∧
            Hint.resolve names e' = Hint.resolve names e) := by
  refine ⟨wellFounded_enters names, fun _ _ _ h => Resolver.Agrees.step h,
    fun answers => ⟨fun h => ?_, ?_⟩, fun depth e h => resolveUpTo_eq h (Nat.lt_succ_self _),
    fun s e hread => ⟨?_, fun count => ?_⟩⟩
  · exact Resolver.eq_of_agrees (Resolver.agrees_of_step h step_resolver)
  · rintro rfl
    exact step_resolver
  · exact textLength_lt_of_readExpression hread
  · exact ⟨quotes_iterate count s, fun outer houter => houter.resolve hread⟩

/-- A type in quotes in quotes. -/
theorem resolving_ends_quoted_twice :
    ∃ e, readExpression (fun _ => none) "\"\\\"int\\\"\"" = .ok e ∧
      Hint.resolve (fun _ => none) e = Hint.resolve (fun _ => none) (.name "int") := by
  obtain ⟨-, -, -, -, hquotes⟩ := resolving_ends fun _ => none
  obtain ⟨-, hcount⟩ := hquotes "int" (.name "int") rfl
  have hquoted : (quote .unicode)^[2] "int" = "\"\\\"int\\\"\"" := by decide
  obtain ⟨hquotes, hsame⟩ := hcount 2
  rw [hquoted] at hquotes
  exact hsame _ hquotes

end Hint

end AikenForge
