/-
# Texts that spell tokens

A text spells tokens if scanning it gives exactly these, whatever stands after it, as long as that
does not begin inside a word. Spellings compose: texts side by side spell the tokens side by side.
The module goes through the words, the literals and the symbols of target text one by one, and then
through what lowering builds from them: brackets, operators between operands, and texts between
separators.
-/

import AikenForge.Proofs.Literals
import AikenForge.Proofs.Readback.Unambiguous

namespace AikenForge.Readback

open AikenForge.Source AikenForge.Number AikenForge.Text

/-- No word goes on with this rest. -/
def Ends (rest : List Char) : Prop :=
  ∀ c ∈ rest.head?, isWordChar c = false

/-- A text spells tokens: scanning gives them before every rest that does not continue a word. -/
def Spells (text : String) (tokens : List Token) : Prop :=
  ∀ rest, Ends rest → Scans (text.toList ++ rest) tokens rest

theorem ends_nil : Ends [] := by
  simp [Ends]

/-- A word ends before any character that is not of a word. -/
theorem ends_cons {c : Char} {cs : List Char} (h : isWordChar c = false) : Ends (c :: cs) := by
  simpa [Ends] using h

theorem isWordChar_of_isDigit {c : Char} (h : c.isDigit = true) : isWordChar c = true := by
  simp [isWordChar, Char.isAlphanum, h]

/-- The longest run of characters of one kind before a rest that begins with another kind. -/
theorem takeWhile_append_of_head {p : Char → Bool} {cs rest : List Char}
    (hall : ∀ c ∈ cs, p c = true) (hrest : ∀ c ∈ rest.head?, p c = false) :
    (cs ++ rest).takeWhile p = cs ∧ (cs ++ rest).dropWhile p = rest := by
  rw [List.takeWhile_append_of_pos hall, List.dropWhile_append_of_pos hall]
  cases rest with
  | nil => simp
  | cons c rest => simp [hrest c rfl]

/-! ## Words and literals -/

/-- A text that is one word: characters of words, the first of which is no digit. -/
def IsWord (text : String) : Prop :=
  ∃ c cs, text.toList = c :: cs ∧ c.isDigit = false ∧ ∀ d ∈ c :: cs, isWordChar d = true

instance (text : String) : Decidable (IsWord text) :=
  match h : text.toList with
  | [] => isFalse (by rintro ⟨c, cs, heq, -⟩; rw [h] at heq; cases heq)
  | c :: cs =>
    decidable_of_iff (c.isDigit = false ∧ (c :: cs).all isWordChar = true) ⟨
      fun ⟨hdigit, hall⟩ => ⟨c, cs, h, hdigit, List.all_eq_true.mp hall⟩, by
        rintro ⟨c', cs', heq, hdigit, hall⟩
        rw [h] at heq
        cases heq
        exact ⟨hdigit, List.all_eq_true.mpr hall⟩⟩

/-- Characters of words open no quoted text and no byte string. -/
theorem readToken_of_isWordChar {c : Char} {cs : List Char} (hc : isWordChar c = true) :
    readToken (c :: cs) =
      if c.isDigit then
        some (.number (ofDigits ((c :: cs).takeWhile Char.isDigit)),
          (c :: cs).dropWhile Char.isDigit)
      else
        some (.word (.ofList ((c :: cs).takeWhile isWordChar)),
          (c :: cs).dropWhile isWordChar) := by
  unfold readToken
  split
  · contradiction
  · rename_i heq
    cases heq
    exact absurd hc (by decide)
  · rename_i heq
    cases heq
    exact absurd hc (by decide)
  · rename_i heq
    cases heq
    rw [if_pos hc]

/-- A word is read as a whole before a rest that does not continue it. -/
theorem readToken_word {c : Char} {cs rest : List Char} (hdigit : c.isDigit = false)
    (hall : ∀ d ∈ c :: cs, isWordChar d = true) (hrest : Ends rest) :
    readToken (c :: (cs ++ rest)) = some (.word (.ofList (c :: cs)), rest) := by
  obtain ⟨htake, hdrop⟩ := takeWhile_append_of_head hall hrest
  rw [List.cons_append] at htake hdrop
  rw [readToken_of_isWordChar (hall c List.mem_cons_self), htake, hdrop, if_neg (by simp [hdigit])]

/-- A word is spelled as one token. -/
theorem spells_word {text : String} (h : IsWord text) : Spells text [.word text] := by
  obtain ⟨c, cs, htext, hdigit, hall⟩ := h
  intro rest hrest
  have hword : String.ofList (c :: cs) = text := by rw [← htext, String.ofList_toList]
  have hread := readToken_word hdigit hall hrest
  rw [hword] at hread
  rw [htext]
  exact .token hread (.done rest)

/-- A number is read as a whole before a rest that does not continue a word. -/
theorem readToken_number {c : Char} {cs rest : List Char} (hall : ∀ d ∈ c :: cs, d.isDigit = true)
    (hrest : Ends rest) :
    readToken (c :: (cs ++ rest)) = some (.number (ofDigits (c :: cs)), rest) := by
  have hc : c.isDigit = true := hall c List.mem_cons_self
  have hhead : ∀ d ∈ rest.head?, d.isDigit = false := by
    intro d hd
    cases hdigit : d.isDigit with
    | false => rfl
    | true => exact absurd (isWordChar_of_isDigit hdigit) (by simp [hrest d hd])
  obtain ⟨htake, hdrop⟩ := takeWhile_append_of_head hall hhead
  rw [List.cons_append] at htake hdrop
  rw [readToken_of_isWordChar (isWordChar_of_isDigit hc), htake, hdrop, if_pos hc]

/-- A number is spelled as one token. -/
theorem spells_number (n : Nat) : Spells (.ofList (Nat.toDigits 10 n)) [.number n] := by
  intro rest hrest
  have hall : ∀ d ∈ Nat.toDigits 10 n, d.isDigit = true := by
    intro d hd
    exact Nat.isDigit_of_mem_toDigits (by omega) (by omega) hd
  have hvalue := ofDigits_toDigits n
  rw [String.toList_ofList]
  cases hdigits : Nat.toDigits 10 n with
  | nil => exact absurd hdigits Nat.toDigits_ne_nil
  | cons c cs =>
      rw [hdigits] at hall hvalue
      have hread := readToken_number hall hrest
      rw [hvalue] at hread
      exact .token hread (.done rest)

/-- The escape of a unit is read as that unit. -/
theorem readText_unitEscape {n : Nat} (h : n < 65536) (more : List Char) :
    readText (unitEscape n ++ more) =
      (readText more).map fun (points, rest) => (n :: points, rest) := by
  have hunit := JsonReader.hexUnit?_hexDigits h
  have hescape : unitEscape n ++ more =
      '\\' :: 'u' :: hexDigit (n / 16 / 16 / 16 % 16) :: hexDigit (n / 16 / 16 % 16) ::
        hexDigit (n / 16 % 16) :: hexDigit (n % 16) :: more := by
    simp [unitEscape, hexDigits]
  have hdigits : hexDigits 4 n = [hexDigit (n / 16 / 16 / 16 % 16), hexDigit (n / 16 / 16 % 16),
      hexDigit (n / 16 % 16), hexDigit (n % 16)] := by
    simp [hexDigits]
  rw [hdigits] at hunit
  rw [hescape, readText, hunit]
  cases readText more <;> rfl

/-- A character is read as its code point. -/
theorem readText_escapeChar (c : Char) (more : List Char) :
    readText (escapeChar .unicode c ++ more) =
      (readText more).map fun (points, rest) => (c.toNat :: points, rest) := by
  rcases JsonReader.escapeChar_cases .unicode c with
    ⟨letter, hu, hletter, hchars⟩ | ⟨hcontrol | hascii, hchars⟩ | ⟨⟨hquote, hslash, hcontrol⟩,
      hchars⟩
  · rw [hchars, List.cons_append, List.cons_append, List.nil_append]
    rw [readText]
    · rw [hletter]
      cases readText more <;> rfl
    · intro a b c d rest
      exact fun hletter _ => hu hletter
  · rw [hchars, codeEscape, if_pos (by omega)]
    exact readText_unitEscape (by omega) more
  · exact absurd hascii.1 (by decide)
  · rw [hchars, List.cons_append, List.nil_append]
    rw [readText, if_neg hcontrol]
    · exact hquote
    · exact fun _ _ _ _ _ h _ => hslash h
    · exact fun _ _ h _ => hslash h

/-- A code point is read as itself. -/
theorem readText_writtenPoint {n : Nat} (hbound : n < 0x110000) (more : List Char) :
    readText (writtenPoint .unicode n ++ more) =
      (readText more).map fun (points, rest) => (n :: points, rest) := by
  unfold writtenPoint
  split
  · rename_i hsurrogate
    have hbounds := isSurrogate_iff.mp hsurrogate
    exact readText_unitEscape (by omega) more
  · rename_i hsurrogate
    rw [readText_escapeChar, toNat_ofNat_of_not_isSurrogate hbound (by simpa using hsurrogate)]

/-- The inside of a quoted text is read as its code points. -/
theorem readText_flatMap_writtenPoint {points : CodePoints} (h : ∀ n ∈ points, n < 0x110000)
    (rest : List Char) :
    readText (points.flatMap (writtenPoint .unicode) ++ '"' :: rest) = some (points, rest) := by
  induction points with
  | nil => rfl
  | cons n points ih =>
      rw [List.flatMap_cons, List.append_assoc, readText_writtenPoint (h n List.mem_cons_self),
        ih fun m hm => h m (List.mem_cons_of_mem n hm)]
      rfl

/-- A quoted text is read as its code points. -/
theorem spells_quotePoints {points : CodePoints} (h : ∀ n ∈ points, n < 0x110000) :
    Spells (quotePoints .unicode points) [.text points] := by
  intro rest _
  refine .token ?_ (.done rest)
  rw [quotePoints, String.toList_ofList, List.append_assoc, List.cons_append, List.singleton_append,
    readToken, readText_flatMap_writtenPoint h]
  rfl

/-- Pairs of hexadecimal digits are read as the bytes they write. -/
theorem bytesOfHex?_flatMap (content : List UInt8) :
    bytesOfHex? (content.flatMap fun b => hexDigits 2 b.toNat) = some content := by
  induction content with
  | nil => rfl
  | cons b content ih =>
      have hb : b.toNat < 256 := b.toNat_lt
      have hhigh : hexValue? (hexDigit (b.toNat / 16 % 16)) = some (b.toNat / 16 % 16) :=
        hexValue?_hexDigit (by omega)
      have hlow : hexValue? (hexDigit (b.toNat % 16)) = some (b.toNat % 16) :=
        hexValue?_hexDigit (by omega)
      have hbyte : UInt8.ofNat (16 * (b.toNat / 16 % 16) + b.toNat % 16) = b := by
        have hvalue : 16 * (b.toNat / 16 % 16) + b.toNat % 16 = b.toNat := by omega
        rw [hvalue, UInt8.ofNat_toNat]
      have hpair : hexDigits 2 b.toNat =
          [hexDigit (b.toNat / 16 % 16), hexDigit (b.toNat % 16)] := rfl
      rw [List.flatMap_cons, hpair]
      simp only [List.nil_append, List.cons_append, bytesOfHex?, hhigh, hlow, ih,
        Option.bind_eq_bind, Option.bind_some, hbyte]
      rfl

/-- No hexadecimal digit is a quote. -/
theorem hexDigit_ne_quote (n : Nat) : hexDigit (n % 16) ≠ '"' := by
  have hall : ∀ d < 16, hexDigit d ≠ '"' := by decide
  exact hall _ (Nat.mod_lt _ (by omega))

/-- Bytes in hexadecimal between a mark and a quote are read as these bytes. -/
theorem spells_bytes (content : List UInt8) :
    Spells ("#\"" ++ hexText content ++ "\"") [.bytes content] := by
  intro rest _
  have hall : ∀ c ∈ content.flatMap fun b => hexDigits 2 b.toNat, (c != '"') = true := by
    intro c hc
    obtain ⟨b, -, hc⟩ := List.mem_flatMap.mp hc
    simp only [hexDigits, List.nil_append, List.mem_append, List.mem_singleton] at hc
    rw [bne_iff_ne]
    rcases hc with rfl | rfl
    · exact hexDigit_ne_quote _
    · exact hexDigit_ne_quote _
  have hclosing : ∀ c ∈ ('"' :: rest).head?, (c != '"') = false := by simp
  obtain ⟨htake, hdrop⟩ := takeWhile_append_of_head hall hclosing
  have htext : ("#\"" ++ hexText content ++ "\"").toList ++ rest =
      '#' :: '"' :: ((content.flatMap fun b => hexDigits 2 b.toNat) ++ '"' :: rest) := by
    simp [String.toList_append, hexText]
  have hread : readBytes ((content.flatMap fun b => hexDigits 2 b.toNat) ++ '"' :: rest) =
      some (.bytes content, rest) := by
    simp only [readBytes, htake, hdrop, bytesOfHex?_flatMap]
    rfl
  rw [htext]
  exact .token hread (.done rest)

/-! ## Composed texts -/

theorem spells_empty : Spells "" [] :=
  fun rest _ => .done rest

/-- A text that stands between operands: it ends the word before it and spells one symbol. -/
def Divides (divider : String) (symbol : Symbol) : Prop :=
  ∀ cs, Ends (divider.toList ++ cs) ∧ Scans (divider.toList ++ cs) [.symbol symbol] cs

theorem divides_comma : Divides ", " .comma :=
  fun cs => ⟨ends_cons rfl, .token rfl (.blank (.done cs))⟩

/-- A symbol between blanks. -/
theorem divides_of_readToken {operator : String} {symbol : Symbol}
    (h : ∀ cs, readToken (operator.toList ++ ' ' :: cs) = some (.symbol symbol, ' ' :: cs)) :
    Divides (" " ++ operator ++ " ") symbol := by
  intro cs
  have htext : (" " ++ operator ++ " ").toList ++ cs = ' ' :: (operator.toList ++ ' ' :: cs) := by
    simp [String.toList_append]
  rw [htext]
  exact ⟨ends_cons rfl, .blank (.token (h cs) (.blank (.done cs)))⟩

/-- An operator is spelled between its operands. -/
theorem spells_between {divider left right : String} {symbol : Symbol} {ls rs : List Token}
    (hdivider : Divides divider symbol) (hl : Spells left ls) (hr : Spells right rs) :
    Spells (left ++ divider ++ right) (ls ++ .symbol symbol :: rs) := by
  intro rest hrest
  obtain ⟨hends, hscans⟩ := hdivider (right.toList ++ rest)
  rw [String.toList_append, String.toList_append, List.append_assoc, List.append_assoc]
  exact (hl _ hends).append (hscans.append (hr rest hrest))

/-- A minus is spelled before its operand. -/
theorem spells_negative {text : String} {tokens : List Token} (h : Spells text tokens) :
    Spells ("-" ++ text) (.symbol (.arithmetic .sub) :: tokens) := by
  intro rest hrest
  rw [String.toList_append, List.append_assoc]
  exact .token rfl (h rest hrest)

/-- An equality sign opens the token of equality only. -/
theorem readToken_equals {cs after : List Char} {token : Token}
    (h : readToken ('=' :: cs) = some (token, after)) : token = .symbol (.comparison .eq) := by
  cases cs with
  | nil => cases h
  | cons c cs =>
      by_cases hc : c = '='
      · subst hc
        cases h
        rfl
      · have hnone : readSymbol ('=' :: c :: cs) = none := by
          unfold readSymbol
          split <;> rename_i heq
          all_goals try cases heq
          · exact absurd rfl hc
          · rfl
        have hread : readToken ('=' :: c :: cs) =
            (readSymbol ('=' :: c :: cs)).map fun read => (.symbol read.1, read.2) := rfl
        rw [hread, hnone] at h
        cases h

/-- An exclamation mark is a token of its own unless an equality sign follows. -/
theorem readToken_bang {c : Char} {cs : List Char} (hc : c ≠ '=') :
    readToken ('!' :: c :: cs) = some (.symbol .bang, c :: cs) := by
  have hbang : readSymbol ('!' :: c :: cs) = some (.bang, c :: cs) := by
    unfold readSymbol
    split <;> rename_i heq
    all_goals try cases heq
    · exact absurd rfl hc
    · rfl
    · exact absurd rfl (‹∀ rest, '!' :: c :: cs = '!' :: rest → False› _)
  have hread : readToken ('!' :: c :: cs) =
      (readSymbol ('!' :: c :: cs)).map fun read => (.symbol read.1, read.2) := rfl
  rw [hread, hbang]
  rfl

/-- The text of an expression does not begin with an equality sign. -/
theorem Spells.head_ne {text : String} {tokens : List Token} {place : Precedence}
    (h : Spells text tokens) (hstarts : Starts place tokens) :
    ∃ c cs, text.toList = c :: cs ∧ c ≠ '=' := by
  obtain ⟨token, others, rfl, hopens⟩ := hstarts
  have hscans := h [] ends_nil
  rw [List.append_nil] at hscans
  cases htext : text.toList with
  | nil =>
      rw [htext] at hscans
      cases hscans with
      | token htoken _ => cases htoken
  | cons c cs =>
      refine ⟨c, cs, rfl, ?_⟩
      rintro rfl
      rw [htext] at hscans
      cases hscans with
      | token htoken _ =>
          rw [readToken_equals htoken] at hopens
          cases hopens

/-- A negation is spelled before its operand, which starts with no equals sign. -/
theorem spells_not {text : String} {tokens : List Token} {place : Precedence}
    (h : Spells text tokens) (hstarts : Starts place tokens) :
    Spells ("!" ++ text) (.symbol .bang :: tokens) := by
  obtain ⟨c, cs, htext, hc⟩ := h.head_ne hstarts
  intro rest hrest
  have hscans := h rest hrest
  rw [String.toList_append, List.append_assoc]
  rw [htext] at hscans ⊢
  exact .token (readToken_bang hc) hscans

/-- A field is spelled after a dot. -/
theorem spells_field {text label : String} {tokens : List Token} (h : Spells text tokens)
    (hlabel : IsWord label) :
    Spells (text ++ "." ++ label) (tokens ++ [.symbol .dot, .word label]) := by
  intro rest hrest
  rw [String.toList_append, String.toList_append, List.append_assoc, List.append_assoc]
  exact (h _ (ends_cons rfl)).append (.token rfl (spells_word hlabel rest hrest))

/-- Round brackets are scanned with what they hold, whatever follows. -/
theorem scans_round {text : String} {tokens : List Token} (h : Spells text tokens)
    (rest : List Char) :
    Scans ('(' :: (text.toList ++ ')' :: rest)) (bracketed .round tokens) rest :=
  .token rfl ((h _ (ends_cons rfl)).append (.token rfl (.done rest)))

/-- So are square brackets. -/
theorem scans_square {text : String} {tokens : List Token} (h : Spells text tokens)
    (rest : List Char) :
    Scans ('[' :: (text.toList ++ ']' :: rest)) (bracketed .square tokens) rest :=
  .token rfl ((h _ (ends_cons rfl)).append (.token rfl (.done rest)))

/-- Braces stand apart from what is between them. -/
theorem scans_brace {text : String} {tokens : List Token} (h : Spells text tokens)
    (rest : List Char) :
    Scans ('\x7b' :: ' ' :: (text.toList ++ ' ' :: '\x7d' :: rest))
      (bracketed .brace tokens) rest :=
  .token rfl (.blank ((h _ (ends_cons rfl)).append (.blank (.token rfl (.done rest)))))

theorem spells_round {text : String} {tokens : List Token} (h : Spells text tokens) :
    Spells ("(" ++ text ++ ")") (bracketed .round tokens) := by
  intro rest _
  rw [String.toList_append, String.toList_append, List.append_assoc, List.append_assoc]
  exact scans_round h rest

theorem spells_square {text : String} {tokens : List Token} (h : Spells text tokens) :
    Spells ("[" ++ text ++ "]") (bracketed .square tokens) := by
  intro rest _
  rw [String.toList_append, String.toList_append, List.append_assoc, List.append_assoc]
  exact scans_square h rest

/-- Arguments are spelled in brackets after what they are applied to. -/
theorem spells_apply {text inside : String} {tokens args : List Token} (h : Spells text tokens)
    (hinside : Spells inside args) :
    Spells (text ++ "(" ++ inside ++ ")") (tokens ++ bracketed .round args) := by
  intro rest _
  simp only [String.toList_append, List.append_assoc]
  exact (h _ (ends_cons rfl)).append (scans_round hinside rest)

/-- An index is spelled in brackets after what it is taken of. -/
theorem spells_index {text inside : String} {tokens position : List Token} (h : Spells text tokens)
    (hinside : Spells inside position) :
    Spells (text ++ "[" ++ inside ++ "]") (tokens ++ bracketed .square position) := by
  intro rest _
  simp only [String.toList_append, List.append_assoc]
  exact (h _ (ends_cons rfl)).append (scans_square hinside rest)

/-- A conditional is spelled with its keywords and braces. -/
theorem spells_conditional {test body orelse : String} {cs as bs : List Token}
    (hc : Spells test cs) (ha : Spells body as) (hb : Spells orelse bs) :
    Spells ("if " ++ test ++ " \x7b " ++ body ++ " \x7d else \x7b " ++ orelse ++ " \x7d")
      (.word "if" :: cs ++ bracketed .brace as ++ .word "else" :: bracketed .brace bs) := by
  intro rest _
  have hword (cs : List Char) :
      readToken ('e' :: 'l' :: 's' :: 'e' :: ' ' :: cs) = some (.word "else", ' ' :: cs) := rfl
  have horelse := Scans.token (hword _) (.blank (scans_brace hb rest))
  have hbody := (scans_brace ha _).append (.blank horelse)
  have htest := (hc _ (ends_cons rfl)).append (.blank hbody)
  simp only [String.toList_append, List.append_assoc]
  exact .token rfl (.blank htest)

/-- A function is spelled with its keyword, its parameters and its body. -/
theorem spells_function {inside body : String} {params ts : List Token}
    (hparams : Spells inside params) (hbody : Spells body ts) :
    Spells ("fn(" ++ inside ++ ") \x7b " ++ body ++ " \x7d")
      (.word "fn" :: bracketed .round params ++ bracketed .brace ts) := by
  intro rest _
  simp only [String.toList_append, List.append_assoc]
  exact .token rfl ((scans_round hparams _).append (.blank (scans_brace hbody rest)))

/-- Parameters are spelled with commas between. -/
theorem spells_parameters {names : List String} (h : ∀ name ∈ names, IsWord name) :
    Spells (", ".intercalate names) (parameterTokens names) := by
  induction names with
  | nil => exact spells_empty
  | cons name names ih =>
      have hname := spells_word (h name List.mem_cons_self)
      cases names with
      | nil =>
          rw [String.intercalate_singleton]
          exact hname
      | cons next names =>
          have hrest := ih fun name hname => h name (List.mem_cons_of_mem _ hname)
          rw [String.intercalate_cons_cons]
          exact spells_between divides_comma hname hrest

end AikenForge.Readback
