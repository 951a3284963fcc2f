/-
# Quoted text under indentation

Indentation puts blanks before every line of a block that is not blank. Its lines end at more
characters than line feeds, and some of these stand as they are inside a quoted text. So a quoted
text that is part of a block is not carried over as it is: blanks go behind each break in it. This
module says what becomes of a piece of text in a block that is indented any number of times, and
when nothing does.
-/

import Mathlib.Data.List.TakeWhile
import Mathlib.Logic.Function.Iterate
import AikenForge.Text.CodePoints
import AikenForge.Text.Lines

namespace AikenForge.Text

/-! ## Indentation as a pass over the characters -/

/-- The blanks that go before a line: none if it is blank. -/
def lead (width : Nat) (cs : List Char) : List Char :=
  if isBlankText (cs.takeWhile fun c => !isLineBreak c) then [] else List.replicate width ' '

/-- What indentation does from the middle of a line on: blanks go behind every break. -/
def shift (width : Nat) : List Char → List Char
  | [] => []
  | '\r' :: '\n' :: rest => '\r' :: '\n' :: (lead width rest ++ shift width rest)
  | c :: rest =>
    if isLineBreak c then c :: (lead width rest ++ shift width rest) else c :: shift width rest

/-- A character that breaks no line is passed on. -/
theorem shift_cons_of_not_break {width : Nat} {c : Char} (h : isLineBreak c = false)
    (rest : List Char) : shift width (c :: rest) = c :: shift width rest := by
  have hreturn : c ≠ '\r' := by
    rintro rfl
    simp [isLineBreak] at h
  rw [shift]
  · simp [h]
  · exact fun _ hc => absurd hc hreturn

/-- The line read so far ends at the next break. -/
theorem takeWhile_append_break {current : List Char} (h : ∀ c ∈ current, isLineBreak c = false)
    {c : Char} (hc : isLineBreak c = true) (rest : List Char) :
    (current ++ c :: rest).takeWhile (fun c => !isLineBreak c) = current := by
  rw [List.takeWhile_append_of_pos (by simpa using h)]
  simp [hc]

/-- A line is indented by the blanks that go before the text it opens. -/
theorem indent_eq_lead {width : Nat} {line : Line} {cs : List Char}
    (h : cs.takeWhile (fun c => !isLineBreak c) = line.content) :
    line.indent width = lead width cs ++ line.toList := by
  rw [Line.indent, lead, h]
  split <;> simp

/-- The indented lines of a text, the first of which is begun already. -/
theorem flatMap_indent_linesFrom (width : Nat) (current cs : List Char)
    (h : ∀ c ∈ current, isLineBreak c = false) :
    (linesFrom current cs).flatMap (Line.indent width) =
      lead width (current.reverse ++ cs) ++ (current.reverse ++ shift width cs) := by
  fun_induction linesFrom current cs with
  | case1 current hempty =>
      rw [List.isEmpty_iff] at hempty
      simp [hempty, lead, shift, isBlankText]
  | case2 current hsome =>
      have hline : (current.reverse ++ []).takeWhile (fun c => !isLineBreak c) =
          current.reverse := by
        rw [List.takeWhile_append_of_pos (by simpa using h)]
        simp
      rw [List.flatMap_singleton, indent_eq_lead hline]
      simp [Line.toList, shift]
  | case3 current rest ih =>
      have hline := takeWhile_append_break (by simpa using h : ∀ c ∈ current.reverse, _)
        (by decide : isLineBreak '\r' = true) ('\n' :: rest)
      rw [List.flatMap_cons, ih (by simp), shift, indent_eq_lead hline]
      simp [Line.toList]
  | case4 current c rest hpair hbreak ih =>
      have hline := takeWhile_append_break (by simpa using h : ∀ c ∈ current.reverse, _) hbreak rest
      rw [List.flatMap_cons, ih (by simp), shift, if_pos hbreak, indent_eq_lead hline]
      · simp [Line.toList]
      · exact hpair
  | case5 current c rest hpair hbreak ih =>
      have hc : isLineBreak c = false := by simpa using hbreak
      rw [ih (by simpa [hc] using h), shift_cons_of_not_break hc]
      simp

/-- Indenting a text puts blanks in front, if its first line has content, and shifts the rest. -/
theorem toList_indentBlock (width : Int) (s : String) :
    (indentBlock width s).toList =
      lead width.toNat s.toList ++ shift width.toNat s.toList := by
  have h := flatMap_indent_linesFrom width.toNat [] s.toList (by simp)
  simpa [indentBlock, linesOf] using h

/-! ## Pieces of a text -/

/-- A piece of text whose ends no indentation changes: it does not start with a line feed and does
not end with a blank. -/
structure IsPiece (cs : List Char) : Prop where
  head : cs.head? ≠ some '\n'
  last : ∃ c, cs.getLast? = some c ∧ isBlank c = false

/-- A break is a blank. -/
theorem isBlank_of_isLineBreak {c : Char} (h : isLineBreak c = true) : isBlank c = true := by
  simp only [isLineBreak, isBlank, Bool.or_eq_true, Bool.and_eq_true, decide_eq_true_eq,
    beq_iff_eq] at h ⊢
  omega

/-- Text that ends with a character that is not blank has a last line that is not blank. -/
theorem lead_append {width : Nat} {cs : List Char}
    (h : ∃ c, cs.getLast? = some c ∧ isBlank c = false) (rest : List Char) :
    lead width (cs ++ rest) = lead width cs := by
  obtain ⟨last, hlast, hblank⟩ := h
  have hmem : last ∈ cs := List.mem_of_getLast? hlast
  by_cases hbreak : ∃ c ∈ cs, isLineBreak c = true
  · -- The first line ends inside the text.
    have hline : (cs ++ rest).takeWhile (fun c => !isLineBreak c) =
        cs.takeWhile fun c => !isLineBreak c := by
      obtain ⟨c, hc, hcbreak⟩ := hbreak
      rw [List.takeWhile_append, if_neg]
      intro hlength
      have hall := List.takeWhile_eq_self_iff.mp (List.takeWhile_prefix _ |>.eq_of_length hlength)
      simpa [hcbreak] using hall c hc
    rw [lead, lead, hline]
  · have hall : ∀ c ∈ cs, (!isLineBreak c) = true := by simpa using hbreak
    have hfirst : isBlankText (cs ++ rest.takeWhile fun c => !isLineBreak c) = false := by
      simp only [isBlankText, List.all_append, Bool.and_eq_false_iff, List.all_eq_false]
      exact .inl ⟨last, hmem, by simp [hblank]⟩
    have hsecond : isBlankText cs = false := by
      simp only [isBlankText, List.all_eq_false]
      exact ⟨last, hmem, by simp [hblank]⟩
    rw [lead, lead, List.takeWhile_append_of_pos hall, List.takeWhile_eq_self_iff.mpr hall, hfirst,
      hsecond]

/-- A text that ends in no blank still does so without a first blank. -/
theorem last_of_cons {c : Char} {rest : List Char}
    (h : ∃ last, (c :: rest).getLast? = some last ∧ isBlank last = false)
    (hc : isBlank c = true) : ∃ last, rest.getLast? = some last ∧ isBlank last = false := by
  obtain ⟨last, hlast, hblank⟩ := h
  cases rest with
  | nil =>
      obtain rfl : c = last := by simpa using hlast
      rw [hc] at hblank
      cases hblank
  | cons d rest => exact ⟨last, by simpa using hlast, hblank⟩

/-- Text that ends with a character that is not blank is shifted as it would be by itself. -/
theorem shift_append {width : Nat} {cs : List Char}
    (h : ∃ c, cs.getLast? = some c ∧ isBlank c = false) (rest : List Char) :
    shift width (cs ++ rest) = shift width cs ++ shift width rest := by
  fun_induction shift width cs with
  | case1 => simp at h
  | case2 cs ih =>
      have hcs := last_of_cons (last_of_cons h (by decide)) (by decide)
      have hwhole : shift width ('\r' :: '\n' :: cs ++ rest) =
          '\r' :: '\n' :: (lead width (cs ++ rest) ++ shift width (cs ++ rest)) := by
        rw [List.cons_append, List.cons_append, shift]
      rw [hwhole, lead_append hcs, ih hcs]
      simp
  | case3 c cs hpair hbreak ih =>
      have hcs := last_of_cons h (isBlank_of_isLineBreak hbreak)
      have hwhole : shift width (c :: cs ++ rest) =
          c :: (lead width (cs ++ rest) ++ shift width (cs ++ rest)) := by
        rw [List.cons_append, shift, if_pos hbreak]
        rintro others rfl hothers
        obtain ⟨d, cs, rfl⟩ : ∃ d others, cs = d :: others := by
          cases cs with
          | nil => simp at hcs
          | cons d cs => exact ⟨d, cs, rfl⟩
        exact hpair cs rfl (by simp_all)
      rw [hwhole, lead_append hcs, ih hcs]
      simp
  | case4 c cs hpair hbreak ih =>
      have hc : isLineBreak c = false := by simpa using hbreak
      rw [List.cons_append, shift_cons_of_not_break hc]
      cases cs with
      | nil => simp [shift]
      | cons d cs => rw [ih (by simpa using h), List.cons_append]

/-- Before a piece of a text, indentation ends as it would there. -/
theorem exists_shift_append (width : Nat) (first : List Char) {rest : List Char}
    (h : rest.head? ≠ some '\n') :
    ∃ before, shift width (first ++ rest) = before ++ shift width rest := by
  fun_induction shift width first with
  | case1 => exact ⟨[], rfl⟩
  | case2 cs ih =>
      obtain ⟨before, hbefore⟩ := ih
      refine ⟨'\r' :: '\n' :: (lead width (cs ++ rest) ++ before), ?_⟩
      rw [List.cons_append, List.cons_append, shift, hbefore]
      simp
  | case3 c cs hpair hbreak ih =>
      obtain ⟨before, hbefore⟩ := ih
      refine ⟨c :: (lead width (cs ++ rest) ++ before), ?_⟩
      rw [List.cons_append, shift, if_pos hbreak, hbefore]
      · simp
      · rintro others rfl hothers
        cases cs with
        | nil => exact h (by simp_all)
        | cons d cs => exact hpair cs rfl (by simp_all)
  | case4 c cs hpair hbreak ih =>
      obtain ⟨before, hbefore⟩ := ih
      have hc : isLineBreak c = false := by simpa using hbreak
      exact ⟨c :: before, by rw [List.cons_append, shift_cons_of_not_break hc, hbefore]; rfl⟩

/-- A shift leaves the first character. -/
theorem head?_shift (width : Nat) (cs : List Char) : (shift width cs).head? = cs.head? := by
  fun_cases shift width cs <;> rfl

/-- A shifted piece is a piece. -/
theorem IsPiece.shift {cs : List Char} (h : IsPiece cs) (width : Nat) :
    IsPiece (Text.shift width cs) := by
  obtain ⟨last, hlast, hblank⟩ := h.last
  obtain ⟨start, rfl⟩ := List.getLast?_eq_some_iff.mp hlast
  have hbreak : isLineBreak last = false := by
    by_contra hbreak
    rw [isBlank_of_isLineBreak (by simpa using hbreak)] at hblank
    cases hblank
  have hfeed : ([last] : List Char).head? ≠ some '\n' := by
    rintro ⟨⟩
    simp [isBlank] at hblank
  obtain ⟨before, hbefore⟩ := exists_shift_append width start hfeed
  constructor
  · rw [head?_shift]
    exact h.head
  · rw [hbefore, shift_cons_of_not_break hbreak]
    exact ⟨last, by simp [Text.shift], hblank⟩

/-- A piece stays one however often it is shifted. -/
theorem IsPiece.iterate {cs : List Char} (h : IsPiece cs) (width k : Nat) :
    IsPiece ((Text.shift width)^[k] cs) := by
  induction k with
  | zero => exact h
  | succ k ih =>
      rw [Function.iterate_succ_apply']
      exact ih.shift width

/-- A piece of a block is shifted where it stands when the block is indented. -/
theorem shift_infix_indentBlock {piece : List Char} (hpiece : IsPiece piece) (width : Int)
    {s : String} (h : piece <:+: s.toList) :
    shift width.toNat piece <:+: (indentBlock width s).toList := by
  obtain ⟨first, rest, hwhole⟩ := h
  have hhead : (piece ++ rest).head? ≠ some '\n' := by
    obtain ⟨last, hlast, -⟩ := hpiece.last
    have hhead := hpiece.head
    cases piece with
    | nil => simp at hlast
    | cons c piece => exact hhead
  rw [List.append_assoc] at hwhole
  obtain ⟨before, hbefore⟩ := exists_shift_append width.toNat first hhead
  rw [toList_indentBlock, ← hwhole, hbefore, shift_append hpiece.last]
  exact ⟨lead width.toNat (first ++ (piece ++ rest)) ++ before, shift width.toNat rest, by simp⟩

/-! ## When nothing changes -/

theorem lead_zero (cs : List Char) : lead 0 cs = [] := by
  rw [lead]
  split <;> rfl

/-- Indenting by nothing changes nothing. -/
theorem shift_zero (cs : List Char) : shift 0 cs = cs := by
  fun_induction shift 0 cs with
  | case1 => rfl
  | case2 cs ih => rw [lead_zero, ih, List.nil_append]
  | case3 c cs hpair hbreak ih => rw [lead_zero, ih, List.nil_append]
  | case4 c cs hpair hbreak ih => rw [ih]

/-- A text on one line is not shifted. -/
theorem shift_of_no_break (width : Nat) {cs : List Char} (h : ∀ c ∈ cs, isLineBreak c = false) :
    shift width cs = cs := by
  induction cs with
  | nil => rfl
  | cons c cs ih =>
      rw [shift_cons_of_not_break (h c List.mem_cons_self),
        ih fun d hd => h d (List.mem_cons_of_mem _ hd)]

/-- The code points of the breaks that stand as they are in a quoted text. -/
def quotedBreaks : List Nat :=
  [0x85, 0x2028, 0x2029]

/-- A quoted string is its written points between two quotes. -/
theorem toList_quotePoints (alphabet : Alphabet) (points : CodePoints) :
    (quotePoints alphabet points).toList = '"' :: points.flatMap
    (writtenPoint alphabet) ++ ['"'] := by
  rw [quotePoints, String.toList_ofList]

/-- A quoted string starts and ends with a quote, so it is a piece. -/
theorem isPiece_quotePoints (alphabet : Alphabet) (points : CodePoints) :
    IsPiece (quotePoints alphabet points).toList := by
  rw [toList_quotePoints]
  constructor
  · simp
  · exact ⟨'"', by rw [List.getLast?_concat], by decide⟩

/-- Hexadecimal digits break no line. -/
theorem not_break_of_mem_hexDigits {c : Char} {width n : Nat} (h : c ∈ hexDigits width n) :
    isLineBreak c = false := by
  induction width generalizing n with
  | zero => simp [hexDigits] at h
  | succ width ih =>
      rcases List.mem_append.mp h with h | h
      · exact ih h
      · have hdigit : ∀ d < 16, isLineBreak (hexDigit d) = false := by decide
        rw [List.mem_singleton.mp h]
        exact hdigit (n % 16) (Nat.mod_lt _ (by omega))

theorem not_break_of_mem_unitEscape {c : Char} {n : Nat} (h : c ∈ unitEscape n) :
    isLineBreak c = false := by
  rcases List.mem_cons.mp h with rfl | h
  · decide
  rcases List.mem_cons.mp h with rfl | h
  · decide
  · exact not_break_of_mem_hexDigits h

/-- An escape breaks no line. -/
theorem not_break_of_mem_codeEscape {c : Char} {n : Nat} (h : c ∈ codeEscape n) :
    isLineBreak c = false := by
  rw [codeEscape] at h
  split at h
  · exact not_break_of_mem_unitEscape h
  · rcases List.mem_append.mp h with h | h
    · exact not_break_of_mem_unitEscape h
    · exact not_break_of_mem_unitEscape h

/-- What stands for a character inside quotes has no break, unless the character is one of those
that stand as they are. -/
theorem not_break_of_mem_escapeChar {alphabet : Alphabet} {c d : Char}
    (hc : alphabet = .ascii ∨ c.toNat ∉ quotedBreaks) (h : d ∈ escapeChar alphabet c) :
    isLineBreak d = false := by
  have hletter (letter : Char) (hbreak : isLineBreak letter = false)
      (h : d ∈ ['\\', letter]) : isLineBreak d = false := by
    rcases List.mem_cons.mp h with rfl | h
    · decide
    · rw [List.mem_singleton.mp h]
      exact hbreak
  unfold escapeChar at h
  -- The seven escapes of one letter come first.
  iterate 7
    split at h
    · exact hletter _ (by decide) h
  split at h
  · rename_i hcontrol
    have hcode : d ∈ codeEscape c.toNat := by rwa [codeEscape, if_pos (by omega)]
    exact not_break_of_mem_codeEscape hcode
  split at h
  · exact not_break_of_mem_codeEscape h
  · rename_i hcontrol hbeyond
    obtain rfl := List.mem_singleton.mp h
    have hquoted : d.toNat ≠ 0x85 ∧ d.toNat ≠ 0x2028 ∧ d.toNat ≠ 0x2029 := by
      rcases hc with rfl | hc
      · have : ¬ 127 ≤ d.toNat := fun hle => hbeyond ⟨rfl, hle⟩
        omega
      · simpa [quotedBreaks] using hc
    simp only [isLineBreak, Bool.or_eq_false_iff, Bool.and_eq_false_iff, decide_eq_false_iff_not,
      beq_eq_false_iff_ne]
    omega

/-- A code point that is none of those breaks is written without one. -/
theorem not_break_of_mem_writtenPoint {alphabet : Alphabet} {n : Nat} {d : Char}
    (hn : alphabet = .ascii ∨ n ∉ quotedBreaks) (h : d ∈ writtenPoint alphabet n) :
    isLineBreak d = false := by
  unfold writtenPoint at h
  split at h
  · exact not_break_of_mem_unitEscape h
  · rename_i hsurrogate
    refine not_break_of_mem_escapeChar (hn.imp_right fun hn hbreak => hn ?_) h
    -- A number beyond the code points stands for another character, which is no break.
    by_cases hbound : n < 0x110000
    · rwa [toNat_ofNat_of_not_isSurrogate hbound (by simpa using hsurrogate)] at hbreak
    · have hinvalid : ¬ n.isValidChar := by
        unfold Nat.isValidChar
        omega
      rw [Char.ofNat, dif_neg hinvalid] at hbreak
      exact absurd hbreak (by decide)

/-- A quoted text without one of those code points has no break. -/
theorem not_break_of_mem_quotePoints {alphabet : Alphabet} {points : CodePoints}
    (h : alphabet = .ascii ∨ ∀ n ∈ points, n ∉ quotedBreaks) :
    ∀ d ∈ (quotePoints alphabet points).toList, isLineBreak d = false := by
  intro d hd
  simp only [toList_quotePoints, List.cons_append, List.mem_cons, List.mem_append, List.mem_flatMap,
    List.not_mem_nil, or_false] at hd
  rcases hd with rfl | ⟨n, hn, hd⟩ | rfl
  · decide
  · exact not_break_of_mem_writtenPoint (h.imp_right fun h => h n hn) hd
  · decide

/-! ## Texts that hold quoted texts -/

/-- A text holds the quoted text of a string, shifted by some number of indentations. -/
def Carries (width : Nat) (s : CodePoints) (text : String) : Prop :=
  ∃ k, (shift width)^[k] (quotePoints .unicode s).toList <:+: text.toList

/-- A text holds the quoted texts of all strings of a list. -/
def Bears (width : Nat) (strings : List CodePoints) (text : String) : Prop :=
  ∀ s ∈ strings, Carries width s text

variable {width : Nat} {s : CodePoints} {strings others : List CodePoints} {text : String}

/-- A quoted string carries itself, before it is shifted at all. -/
theorem carries_quotePoints (width : Nat) (s : CodePoints) :
    Carries width s (quotePoints .unicode s) :=
  ⟨0, List.infix_refl _⟩

/-- A larger text carries what a part of it carries. -/
theorem Carries.trans {larger : String} (h : Carries width s text)
    (hpart : text.toList <:+: larger.toList) : Carries width s larger := by
  obtain ⟨k, hk⟩ := h
  exact ⟨k, hk.trans hpart⟩

theorem Carries.ne_empty (h : Carries width s text) : text ≠ "" := by
  rintro rfl
  obtain ⟨k, hk⟩ := h
  obtain ⟨last, hlast, -⟩ := ((isPiece_quotePoints .unicode s).iterate width k).last
  rw [List.eq_nil_of_infix_nil hk] at hlast
  cases hlast

/-- One more level of blocks is one more shift. -/
theorem Carries.indentBlock {indent : Int} (h : Carries indent.toNat s text) :
    Carries indent.toNat s (Text.indentBlock indent text) := by
  obtain ⟨k, hk⟩ := h
  have hpiece := (isPiece_quotePoints .unicode s).iterate indent.toNat k
  refine ⟨k + 1, ?_⟩
  rw [Function.iterate_succ_apply']
  exact shift_infix_indentBlock hpiece indent hk

/-- Without blanks to put in, or without a break to put them behind, the quoted text stands as it
is. -/
theorem Carries.quotePoints_infix (h : Carries width s text)
    (hwhole : width = 0 ∨ ∀ n ∈ s, n ∉ quotedBreaks) :
    (quotePoints .unicode s).toList <:+: text.toList := by
  have hfixed : shift width (quotePoints .unicode s).toList = (quotePoints .unicode s).toList := by
    rcases hwhole with rfl | hwhole
    · exact shift_zero _
    · exact shift_of_no_break width (not_break_of_mem_quotePoints (.inr hwhole))
  obtain ⟨k, hk⟩ := h
  rwa [Function.iterate_fixed hfixed] at hk

theorem bears_nil (width : Nat) (text : String) : Bears width [] text := by
  simp [Bears]

/-- Strings are borne one by one. -/
@[simp]
theorem bears_append :
    Bears width (strings ++ others) text ↔ Bears width strings text ∧ Bears width others text := by
  simp only [Bears, List.mem_append]
  exact ⟨fun h => ⟨fun s hs => h s (.inl hs), fun s hs => h s (.inr hs)⟩,
    fun h s hs => hs.elim (h.1 s) (h.2 s)⟩

/-- A larger text bears what a part of it bears. -/
theorem Bears.trans {larger : String} (h : Bears width strings text)
    (hpart : text.toList <:+: larger.toList) : Bears width strings larger :=
  fun s hs => (h s hs).trans hpart

theorem infix_append_left (text rest : String) : text.toList <:+: (text ++ rest).toList := by
  rw [String.toList_append]
  exact (List.prefix_append _ _).isInfix

theorem infix_append_right (first text : String) : text.toList <:+: (first ++ text).toList := by
  rw [String.toList_append]
  exact (List.suffix_append _ _).isInfix

/-- More text may stand behind. -/
theorem Bears.before (h : Bears width strings text) (rest : String) :
    Bears width strings (text ++ rest) :=
  h.trans (infix_append_left text rest)

/-- More text may stand in front. -/
theorem Bears.after (h : Bears width strings text) (first : String) :
    Bears width strings (first ++ text) :=
  h.trans (infix_append_right first text)

/-- More text may stand on both sides. -/
theorem Bears.inside (h : Bears width strings text) (first rest : String) :
    Bears width strings (first ++ text ++ rest) :=
  (h.after first).before rest

/-- Each of several texts is part of the text that they are joined to. -/
theorem infix_intercalate {texts : List String} (h : text ∈ texts) (separator : String) :
    text.toList <:+: (separator.intercalate texts).toList := by
  induction texts with
  | nil => simp at h
  | cons first rest ih =>
      cases rest with
      | nil =>
          obtain rfl := List.mem_singleton.mp h
          simp only [String.intercalate_singleton, List.infix_refl]
      | cons second rest =>
          rw [String.intercalate_cons_cons]
          simp only [String.toList_append]
          rcases List.mem_cons.mp h with rfl | h
          · rw [List.append_assoc]
            exact (List.prefix_append _ _).isInfix
          · exact (ih h).trans (List.suffix_append _ _).isInfix

/-- Texts that are wrapped one around the other hold the innermost one. -/
theorem infix_foldl {τ : Type} {wrap : String → τ → String}
    (hwrap : ∀ text item, text.toList <:+: (wrap text item).toList) (items : List τ)
    (start : String) :
    start.toList <:+: (items.foldl wrap start).toList := by
  induction items generalizing start with
  | nil => exact List.infix_refl _
  | cons item items ih => exact (hwrap start item).trans (ih _)

/-- Each item is wrapped at some point of a fold, and what follows keeps it. -/
theorem exists_infix_foldl {τ : Type} {wrap : String → τ → String}
    (hwrap : ∀ text item, text.toList <:+: (wrap text item).toList) {items : List τ} {item : τ}
    (h : item ∈ items) (start : String) :
    ∃ reached, (wrap reached item).toList <:+: (items.foldl wrap start).toList := by
  obtain ⟨before, after, rfl⟩ := List.append_of_mem h
  rw [List.foldl_append, List.foldl_cons]
  exact ⟨_, infix_foldl hwrap after _⟩

/-- Some text of a list holds each quoted text. -/
def BearsAmong (width : Nat) (strings : List CodePoints) (texts : List String) : Prop :=
  ∀ s ∈ strings, ∃ text ∈ texts, Carries width s text

section Lists

variable {texts more : List String}

theorem bearsAmong_nil (width : Nat) (texts : List String) : BearsAmong width [] texts := by
  simp [BearsAmong]

/-- Strings are borne among texts one by one. -/
@[simp]
theorem bearsAmong_append : BearsAmong width (strings ++ others) texts ↔
    BearsAmong width strings texts ∧ BearsAmong width others texts := by
  simp only [BearsAmong, List.mem_append]
  exact ⟨fun h => ⟨fun s hs => h s (.inl hs), fun s hs => h s (.inr hs)⟩,
    fun h s hs => hs.elim (h.1 s) (h.2 s)⟩

/-- Without texts there is nothing to hold. -/
theorem BearsAmong.eq_nil (h : BearsAmong width strings texts) (hnone : texts = []) :
    strings = [] := by
  apply List.eq_nil_iff_forall_not_mem.mpr
  intro s hs
  obtain ⟨text, htext, -⟩ := h s hs
  rw [hnone] at htext
  cases htext

/-- Texts in two lists bear the strings of both. -/
theorem BearsAmong.append (h : BearsAmong width strings texts)
    (hmore : BearsAmong width others more) :
    BearsAmong width (strings ++ others) (texts ++ more) := by
  intro s hs
  rcases List.mem_append.mp hs with hs | hs
  · obtain ⟨text, htext, hcarries⟩ := h s hs
    exact ⟨text, List.mem_append_left _ htext, hcarries⟩
  · obtain ⟨text, htext, hcarries⟩ := hmore s hs
    exact ⟨text, List.mem_append_right _ htext, hcarries⟩

theorem Bears.among (h : Bears width strings text) : BearsAmong width strings [text] :=
  fun s hs => ⟨text, List.mem_singleton_self text, h s hs⟩

theorem Bears.cons (h : Bears width strings text) (hmore : BearsAmong width others more) :
    BearsAmong width (strings ++ others) (text :: more) :=
  h.among.append hmore

/-- Texts that hold something are not empty, so leaving out empty ones loses nothing. -/
theorem BearsAmong.filter (h : BearsAmong width strings texts) :
    BearsAmong width strings (texts.filter fun text => !text.isEmpty) := by
  intro s hs
  obtain ⟨text, htext, hcarries⟩ := h s hs
  exact ⟨text, by simp [htext, hcarries.ne_empty], hcarries⟩

/-- Joined texts bear what any of them bears. -/
theorem BearsAmong.intercalate (h : BearsAmong width strings texts) (separator : String) :
    Bears width strings (separator.intercalate texts) := by
  intro s hs
  obtain ⟨text, htext, hcarries⟩ := h s hs
  exact hcarries.trans (infix_intercalate htext separator)

/-- Lines bear what any of them bears. -/
theorem BearsAmong.joinLines (h : BearsAmong width strings texts) :
    Bears width strings (Text.joinLines texts) :=
  h.intercalate "\n"

end Lists

/-- A block bears what its text bears, one shift further in. -/
theorem Bears.indentBlock {indent : Int} (h : Bears indent.toNat strings text) :
    Bears indent.toNat strings (Text.indentBlock indent text) :=
  fun s hs => (h s hs).indentBlock

end AikenForge.Text
