/-
# Outlines of target text

The outline of a target text is what stands in it outside quotes and brackets. Quotes keep nothing
between them, and brackets, whatever they hold, keep one name, so that an outline is a text of the
same grammar in which every pair of brackets is as good as any other. What an operator takes for its
operands is decided in the outline alone.

A text is closed if all quotes and brackets that it opens are closed in it. The outlines of closed
texts side by side are the outlines side by side.
-/

import AikenForge.Proofs.Readback.Spelling

namespace AikenForge.Outline

open AikenForge.Source AikenForge.Number AikenForge.Text AikenForge.Readback

/-- Where a character of a text stands: at a depth of brackets, or in quotes at that depth, there
perhaps after a backslash. -/
inductive Spot
  | plain (depth : Nat)
  | quoted (depth : Nat)
  | escaped (depth : Nat)

def isOpening (c : Char) : Bool :=
  c == '(' || c == '[' || c == '\x7b'

def isClosing (c : Char) : Bool :=
  c == ')' || c == ']' || c == '\x7d'

/-- Where the character after one stands. -/
def Spot.next : Spot → Char → Spot
  | .plain depth, c =>
    if c == '"' then .quoted depth
    else if isOpening c then .plain (depth + 1)
    else if isClosing c then .plain (depth - 1)
    else .plain depth
  | .quoted depth, c =>
    if c == '"' then .plain depth else if c == '\\' then .escaped depth else .quoted depth
  | .escaped depth, _ => .quoted depth

/-- What an outline shows of a character: the outermost brackets, with a name after the opening one,
and the quotes outside them. Braces are shown as round brackets, since they hold the parts of a call
or of a value. -/
def Spot.shown : Spot → Char → List Char
  | .plain 0, c => if c == '[' then ['[', '_'] else if isOpening c then ['(', '_'] else [c]
  | .plain 1, c => if c == ']' then [']'] else if isClosing c then [')'] else []
  | .quoted 0, c => if c == '"' then ['"'] else []
  | _, _ => []

/-- What an outline shows of characters from a spot on. -/
def outlineFrom : Spot → List Char → List Char
  | _, [] => []
  | spot, c :: cs => spot.shown c ++ outlineFrom (spot.next c) cs

/-- The outline of a text. -/
def outline (text : String) : String :=
  .ofList (outlineFrom (.plain 0) text.toList)

/-- An outline is made in one pass, so it goes on where it stopped. -/
theorem outlineFrom_append (spot : Spot) (cs ds : List Char) :
    outlineFrom spot (cs ++ ds) =
      outlineFrom spot cs ++ outlineFrom (cs.foldl Spot.next spot) ds := by
  induction cs generalizing spot with
  | nil => rfl
  | cons c cs ih => simp [outlineFrom, ih]

/-- A text that closes what it opens, with its outline. Inside brackets it shows nothing. -/
structure Outlines (text shown : String) : Prop where
  returns (depth : Nat) : text.toList.foldl Spot.next (.plain depth) = .plain depth
  hidden (depth : Nat) : outlineFrom (.plain (depth + 1)) text.toList = []
  outline_eq : outline text = shown

/-- A text that closes what it opens. -/
def Closed (text : String) : Prop :=
  Outlines text (outline text)

/-- A text that has an outline ends outside of brackets and strings. -/
theorem Outlines.closed {text shown : String} (h : Outlines text shown) : Closed text :=
  ⟨h.returns, h.hidden, rfl⟩

/-- Outlines one after the other. -/
theorem Outlines.append {s t a b : String} (hs : Outlines s a) (ht : Outlines t b) :
    Outlines (s ++ t) (a ++ b) := by
  refine ⟨fun depth => ?_, fun depth => ?_, ?_⟩
  · rw [String.toList_append, List.foldl_append, hs.returns, ht.returns]
  · rw [String.toList_append, outlineFrom_append, hs.hidden, hs.returns, ht.hidden, List.nil_append]
  · rw [← hs.outline_eq, ← ht.outline_eq, outline, String.toList_append, outlineFrom_append,
      hs.returns, String.ofList_append]
    rfl

/-- Closed texts one after the other. -/
theorem Closed.append {s t : String} (hs : Closed s) (ht : Closed t) : Closed (s ++ t) :=
  (Outlines.append hs ht).closed

theorem outlines_empty : Outlines "" "" :=
  ⟨fun _ => rfl, fun _ => rfl, rfl⟩

/-! ## Brackets -/

/-- Inside brackets a closed text shows nothing, and the brackets are shown with a name in them. -/
theorem outlines_bracketed {text : String} (h : Closed text) {opening closing : Char}
    {first last : Char} (hopening : isOpening opening = true) (hclosing : isClosing closing = true)
    (hfirst : Spot.shown (.plain 0) opening = [first, '_'])
    (hlast : Spot.shown (.plain 1) closing = [last]) :
    Outlines (.singleton opening ++ text ++ .singleton closing) (.ofList [first, '_', last]) := by
  have hopens (depth : Nat) : Spot.next (.plain depth) opening = .plain (depth + 1) := by
    have hquote : (opening == '"') = false := by
      rw [beq_eq_false_iff_ne]
      rintro rfl
      exact absurd hopening (by decide)
    simp [Spot.next, hquote, hopening]
  have hcloses (depth : Nat) : Spot.next (.plain (depth + 1)) closing = .plain depth := by
    have hquote : (closing == '"') = false := by
      rw [beq_eq_false_iff_ne]
      rintro rfl
      exact absurd hclosing (by decide)
    have hnot : isOpening closing = false := by
      simp only [isClosing, Bool.or_eq_true, beq_iff_eq] at hclosing
      rcases hclosing with (rfl | rfl) | rfl <;> rfl
    simp [Spot.next, hquote, hnot, hclosing]
  have htext : (String.singleton opening ++ text ++ .singleton closing).toList =
      opening :: (text.toList ++ [closing]) := by
    simp [String.toList_append]
  refine ⟨fun depth => ?_, fun depth => ?_, ?_⟩
  · rw [htext, List.foldl_cons, List.foldl_append, hopens, h.returns]
    exact hcloses depth
  · rw [htext, outlineFrom, outlineFrom_append, hopens, h.hidden, h.returns]
    have hshown : Spot.shown (.plain (depth + 1)) opening = [] := by
      cases depth with
      | zero =>
          simp only [isOpening, Bool.or_eq_true, beq_iff_eq] at hopening
          rcases hopening with (rfl | rfl) | rfl <;> rfl
      | succ => rfl
    rw [hshown]
    rfl
  · rw [outline, htext, outlineFrom, outlineFrom_append, hopens, h.hidden, h.returns, hfirst]
    change String.ofList ([first, '_'] ++ ([] ++ (Spot.shown (.plain 1) closing ++ []))) = _
    rw [hlast]
    rfl

/-- Round brackets hide what they hold. -/
theorem outlines_round {text : String} (h : Closed text) : Outlines ("(" ++ text ++ ")") "(_)" :=
  @outlines_bracketed text h '(' ')' '(' ')' rfl rfl rfl rfl

/-- Square brackets hide what they hold. -/
theorem outlines_square {text : String} (h : Closed text) : Outlines ("[" ++ text ++ "]") "[_]" :=
  @outlines_bracketed text h '[' ']' '[' ']' rfl rfl rfl rfl

/-- Braces hide what they hold, and are shown as round brackets. -/
theorem outlines_brace {text : String} (h : Closed text) :
    Outlines ("\x7b" ++ text ++ "\x7d") "(_)" :=
  @outlines_bracketed text h '\x7b' '\x7d' '(' ')' rfl rfl rfl rfl

/-! ## Words and literals -/

/-- Characters that do not move the spot leave it where it is. -/
theorem foldl_next_of_keeps {spot : Spot} {cs : List Char} (h : ∀ c ∈ cs, spot.next c = spot) :
    cs.foldl Spot.next spot = spot := by
  induction cs with
  | nil => rfl
  | cons c cs ih =>
      rw [List.foldl_cons, h c List.mem_cons_self]
      exact ih fun d hd => h d (List.mem_cons_of_mem c hd)

theorem outlineFrom_of_keeps {spot : Spot} {cs : List Char} (h : ∀ c ∈ cs, spot.next c = spot) :
    outlineFrom spot cs = cs.flatMap spot.shown := by
  induction cs with
  | nil => rfl
  | cons c cs ih =>
      rw [outlineFrom, h c List.mem_cons_self, List.flatMap_cons]
      exact congrArg _ (ih fun d hd => h d (List.mem_cons_of_mem c hd))

/-- A character that neither opens nor closes anything. -/
def isBare (c : Char) : Bool :=
  !(c == '"' || isOpening c || isClosing c)

/-- Texts that neither open nor close anything are their own outlines. -/
theorem outlines_bare {text : String} (h : text.toList.all isBare = true) : Outlines text text := by
  have hbare {c : Char} (hc : c ∈ text.toList) :
      (c == '"') = false ∧ isOpening c = false ∧ isClosing c = false := by
    have hc := List.all_eq_true.mp h c hc
    simp only [isBare, Bool.not_eq_true', Bool.or_eq_false_iff] at hc
    exact ⟨hc.1.1, hc.1.2, hc.2⟩
  have hnext (depth : Nat) : ∀ c ∈ text.toList, Spot.next (.plain depth) c = .plain depth := by
    intro c hc
    simp [Spot.next, hbare hc]
  refine ⟨fun depth => foldl_next_of_keeps (hnext depth), fun depth => ?_, ?_⟩
  · rw [outlineFrom_of_keeps (hnext _), List.flatMap_eq_nil_iff]
    intro c hc
    obtain ⟨-, -, hclosing⟩ := hbare hc
    have hsquare : (c == ']') = false := by
      simp only [isClosing, Bool.or_eq_false_iff] at hclosing
      exact hclosing.1.2
    cases depth <;> simp [Spot.shown, hsquare, hclosing]
  · rw [outline, outlineFrom_of_keeps (hnext _)]
    have hshown : ∀ c ∈ text.toList, Spot.shown (.plain 0) c = [c] := by
      intro c hc
      obtain ⟨-, hopening, -⟩ := hbare hc
      have hsquare : (c == '[') = false := by
        simp only [isOpening, Bool.or_eq_false_iff] at hopening
        exact hopening.1.2
      simp [Spot.shown, hsquare, hopening]
    rw [List.flatMap_def, List.map_congr_left hshown, ← List.flatMap_def, List.flatMap_singleton',
      String.ofList_toList]

theorem isBare_of_isWordChar {c : Char} (h : isWordChar c = true) : isBare c = true := by
  by_contra hbare
  simp only [isBare, isOpening, isClosing, Bool.not_eq_true, Bool.not_eq_false', Bool.or_eq_true,
    beq_iff_eq] at hbare
  rcases hbare with (rfl | (rfl | rfl) | rfl) | (rfl | rfl) | rfl
  all_goals exact absurd h (by decide)

/-- A word is its own outline. -/
theorem outlines_word {text : String} (h : IsWord text) : Outlines text text := by
  obtain ⟨c, cs, htext, -, hall⟩ := h
  refine outlines_bare (List.all_eq_true.mpr fun d hd => ?_)
  exact isBare_of_isWordChar (hall d (htext ▸ hd))

/-- Characters in quotes that stay in them and are not shown. -/
def Inside (cs : List Char) : Prop :=
  ∀ depth, cs.foldl Spot.next (.quoted depth) = .quoted depth ∧ outlineFrom (.quoted depth) cs = []

theorem inside_nil : Inside [] :=
  fun _ => ⟨rfl, rfl⟩

/-- What is inside a string may go on inside it. -/
theorem Inside.append {cs ds : List Char} (hcs : Inside cs) (hds : Inside ds) :
    Inside (cs ++ ds) := by
  intro depth
  rw [List.foldl_append, outlineFrom_append, (hcs depth).1, (hcs depth).2, (hds depth).1,
    (hds depth).2]
  exact ⟨rfl, rfl⟩

theorem inside_flatMap {α : Type} {f : α → List Char} (h : ∀ value, Inside (f value))
    (values : List α) : Inside (values.flatMap f) := by
  induction values with
  | nil => exact inside_nil
  | cons value values ih => exact (h value).append ih

/-- A plain character stays inside a string. -/
theorem inside_singleton {c : Char} (hquote : c ≠ '"') (hslash : c ≠ '\\') : Inside [c] := by
  intro depth
  cases depth <;> simp [Spot.next, Spot.shown, outlineFrom, hquote, hslash]

/-- After a backslash any character stays in the quotes. -/
theorem inside_escape (c : Char) : Inside ['\\', c] := by
  intro depth
  cases depth <;> exact ⟨rfl, rfl⟩

theorem inside_hexDigits (width n : Nat) : Inside (hexDigits width n) := by
  induction width generalizing n with
  | zero => exact inside_nil
  | succ width ih =>
      have hall : ∀ d < 16, hexDigit d ≠ '"' ∧ hexDigit d ≠ '\\' := by decide
      obtain ⟨hquote, hslash⟩ := hall _ (Nat.mod_lt n (by omega : 0 < 16))
      exact (ih _).append (inside_singleton hquote hslash)

theorem inside_unitEscape (n : Nat) : Inside (unitEscape n) :=
  (inside_escape 'u').append (inside_hexDigits 4 n)

/-- A written character stays inside its string, even if it is a quote. -/
theorem inside_escapeChar (alphabet : Alphabet) (c : Char) : Inside (escapeChar alphabet c) := by
  obtain ⟨letter, -, -, hescape⟩ | ⟨-, hescape⟩ | ⟨⟨hquote, hslash, -⟩, hescape⟩ :=
    JsonReader.escapeChar_cases alphabet c
  · rw [hescape]
    exact inside_escape letter
  · rw [hescape, codeEscape]
    split
    · exact inside_unitEscape _
    · exact (inside_unitEscape _).append (inside_unitEscape _)
  · rw [hescape]
    exact inside_singleton hquote hslash

/-- Quotes are shown without what they hold. -/
theorem outlines_quotes {inside : String} (h : Inside inside.toList) :
    Outlines ("\"" ++ inside ++ "\"") "\"\"" := by
  have htext : ("\"" ++ inside ++ "\"").toList = '"' :: (inside.toList ++ ['"']) := by
    simp [String.toList_append]
  refine ⟨fun depth => ?_, fun depth => ?_, ?_⟩
  · rw [htext, List.foldl_cons, List.foldl_append]
    change (inside.toList.foldl Spot.next (.quoted depth)).next '"' = _
    rw [(h depth).1]
    rfl
  · rw [htext, outlineFrom, outlineFrom_append]
    change Spot.shown (.plain (depth + 1)) '"' ++
      (outlineFrom (.quoted (depth + 1)) inside.toList ++
        outlineFrom (inside.toList.foldl Spot.next (.quoted (depth + 1))) ['"']) = []
    rw [(h _).1, (h _).2]
    cases depth <;> rfl
  · rw [outline, htext, outlineFrom, outlineFrom_append]
    change String.ofList (Spot.shown (.plain 0) '"' ++ (outlineFrom (.quoted 0) inside.toList ++
      outlineFrom (inside.toList.foldl Spot.next (.quoted 0)) ['"'])) = _
    rw [(h 0).1, (h 0).2]
    rfl

theorem inside_writtenPoint (alphabet : Alphabet) (n : Nat) : Inside (writtenPoint alphabet n) := by
  unfold writtenPoint
  split
  · exact inside_unitEscape n
  · exact inside_escapeChar alphabet _

/-- A quoted string hides what it holds. -/
theorem outlines_quotePoints (alphabet : Alphabet) (points : CodePoints) :
    Outlines (quotePoints alphabet points) "\"\"" := by
  have hquote : quotePoints alphabet points =
      "\"" ++ .ofList (points.flatMap (writtenPoint alphabet)) ++ "\"" := by
    rw [← String.toList_inj]
    simp [quotePoints, String.toList_append]
  rw [hquote]
  refine outlines_quotes ?_
  rw [String.toList_ofList]
  exact inside_flatMap (inside_writtenPoint alphabet) _

/-- So do bytes. -/
theorem outlines_bytes (content : List UInt8) :
    Outlines ("#\"" ++ hexText content ++ "\"") "#\"\"" := by
  have hmark : "#\"" = "#" ++ "\"" := rfl
  have hinside : Inside (hexText content).toList := by
    rw [hexText, String.toList_ofList]
    exact inside_flatMap (fun b => inside_hexDigits 2 b.toNat) content
  have hquotes := outlines_quotes hinside
  rw [String.append_assoc] at hquotes
  rw [hmark, String.append_assoc, String.append_assoc]
  exact (outlines_bare (by decide) : Outlines "#" "#").append hquotes

/-! ## Rows -/

/-- Closed texts joined by a closed divider are closed. -/
theorem closed_intercalate {divider : String} (hdivider : Closed divider) {texts : List String}
    (h : ∀ text ∈ texts, Closed text) : Closed (divider.intercalate texts) := by
  cases texts with
  | nil => exact outlines_empty.closed
  | cons first rest =>
      refine intercalate_induction (by simp) (fun text other htext hother => ?_) h
      exact (htext.append hdivider).append hother

end AikenForge.Outline
