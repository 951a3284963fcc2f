/-
# Lines of TOML

The part of TOML 1.0 that configurations are written in: lines with a bare key and a basic string,
headers of tables and of array items, comments and blank lines. A basic string has the short escapes
of JSON but for the slash, and escapes of four or eight digits for a scalar value; it may hold no
control character but the tab.

One of the control characters, delete, is none for JSON, which leaves it as it is. So a text quoted
for JSON is a basic string exactly if it has no delete, and then it is read as the text that was
quoted.
-/

import Mathlib.Data.List.Basic
import AikenForge.Project.Scaffold
import AikenForge.Proofs.Literals

namespace AikenForge.Toml

open AikenForge.Text

/-! ## Basic strings -/

/-- The control character that JSON takes for a printable one. -/
def delete : Char := '\x7f'

/-- Whether a text has a delete in it. -/
def hasDelete (s : String) : Bool :=
  s.toList.contains delete

theorem hasDelete_append (s t : String) : hasDelete (s ++ t) = (hasDelete s || hasDelete t) := by
  rw [hasDelete, String.toList_append, List.contains_append, hasDelete, hasDelete]

/-- Whether a character is no control character other than the tab. -/
def isPrintable (c : Char) : Bool :=
  c == '\t' || (32 ≤ c.toNat && c != delete)

/-- The character that an escape of one letter stands for. -/
def shortEscape? : Char → Option Char
  | 'b' => some '\x08'
  | 't' => some '\t'
  | 'n' => some '\n'
  | 'f' => some '\x0c'
  | 'r' => some '\r'
  | '"' => some '"'
  | '\\' => some '\\'
  | _ => none

/-- The character of a scalar value; halves of surrogate pairs are none. -/
def scalar? (n : Nat) : Option Char :=
  if n.isValidChar then some (.ofNat n) else none

/-- Where the reader of a basic string is: in plain text, behind a backslash, or before the last
digits of an escape, with the value of those that it has read. -/
inductive Mode
  | plain
  | escape
  | digits (left value : Nat)

/-- Put a character before a text that was read. -/
def before (c : Char) (read : Option (List Char × List Char)) : Option (List Char × List Char) :=
  read.map fun (text, rest) => (c :: text, rest)

/-- The characters of a basic string up to its closing quote, and what follows the quote. -/
def basicText? : Mode → List Char → Option (List Char × List Char)
  | _, [] => none
  | .plain, c :: cs =>
    if c == '"' then some ([], cs)
    else if c == '\\' then basicText? .escape cs
    else if isPrintable c then before c (basicText? .plain cs)
    else none
  | .escape, c :: cs =>
    if c == 'u' then basicText? (.digits 4 0) cs
    else if c == 'U' then basicText? (.digits 8 0) cs
    else (shortEscape? c).bind fun d => before d (basicText? .plain cs)
  | .digits left value, c :: cs =>
    (hexValue? c).bind fun digit =>
      let value := value * 16 + digit
      if left ≤ 1 then (scalar? value).bind fun d => before d (basicText? .plain cs)
      else basicText? (.digits (left - 1) value) cs

section Reading

variable {c : Char} (rest : List Char)

/-- A plain character is read as itself, if it may stand in a text. -/
theorem basicText?_plain (hquote : c ≠ '"') (hslash : c ≠ '\\') :
    basicText? .plain (c :: rest) =
      if isPrintable c then before c (basicText? .plain rest) else none := by
  simp [basicText?, hquote, hslash]

/-- An escape of one letter is read as what it stands for. -/
theorem basicText?_letter {letter : Char} (h : shortEscape? letter = some c) :
    basicText? .plain ('\\' :: letter :: rest) = before c (basicText? .plain rest) := by
  have hu : letter ≠ 'u' := by
    rintro rfl
    cases h
  have hU : letter ≠ 'U' := by
    rintro rfl
    cases h
  simp [basicText?, hu, hU, h]

/-- An escape of four digits is read as the character of their number. -/
theorem basicText?_unitEscape (h : c.toNat < 0x10000) :
    basicText? .plain (unitEscape c.toNat ++ rest) = before c (basicText? .plain rest) := by
  have hscalar : scalar? c.toNat = some c := by
    have hvalid : c.toNat.isValidChar := c.valid
    rw [scalar?, if_pos hvalid, Char.ofNat_toNat]
  simp [unitEscape, hexDigits, basicText?, hexValue?_hexDigit_mod, weigh_four_digits h, hscalar]

/-- A written character is read as itself unless it is delete. -/
theorem basicText?_escapeChar (c : Char) :
    basicText? .plain (escapeChar .unicode c ++ rest) =
      if c = delete then none else before c (basicText? .plain rest) := by
  have hletter {d letter : Char} (hc : (c == d) = true) (h : shortEscape? letter = some d)
      (hd : d ≠ delete) : basicText? .plain (['\\', letter] ++ rest) =
        if c = delete then none else before c (basicText? .plain rest) := by
    rw [eq_of_beq hc, if_neg hd]
    exact basicText?_letter rest h
  unfold escapeChar
  -- The seven escapes of one letter come first.
  iterate 7
    split
    · exact hletter ‹_› rfl (by decide)
  split
  · rename_i hcode
    have hdelete : c ≠ delete := by
      rintro rfl
      exact absurd hcode (by decide)
    rw [if_neg hdelete]
    exact basicText?_unitEscape rest (by omega)
  · rename_i hquote hslash _ _ htab _ _ hcode
    rw [if_neg (by simp), List.singleton_append,
      basicText?_plain rest (by simpa using hquote) (by simpa using hslash)]
    by_cases hdelete : c = delete
    · simp [isPrintable, hdelete, delete]
    · simp [isPrintable, hdelete, Nat.le_of_not_lt hcode]

/-- A quoted text is read back unless there is a delete in it. -/
theorem basicText?_quoted (cs : List Char) :
    basicText? .plain (cs.flatMap (escapeChar .unicode) ++ '"' :: rest) =
      if delete ∈ cs then none else some (cs, rest) := by
  induction cs with
  | nil => simp [basicText?]
  | cons c cs ih =>
      rw [List.flatMap_cons, List.append_assoc, basicText?_escapeChar, ih]
      by_cases hfirst : c = delete
      · simp [hfirst]
      · by_cases hlater : delete ∈ cs
        · simp [hlater, before]
        · simp [hlater, hfirst, Ne.symm hfirst, before]

end Reading

/-! ## Lines -/

/-- A line: nothing but blanks and a comment, a key with a text, or the header of a table or of an
item in an array of tables. -/
inductive Line
  | blank
  | entry (key value : String)
  | table (name : String)
  | item (name : String)

/-- A line without the blanks that it starts with. -/
def skip (cs : List Char) : List Char :=
  cs.dropWhile fun c => c == ' ' || c == '\t'

/-- Whether nothing but blanks and a comment is left of a line. -/
def isDone (cs : List Char) : Bool :=
  match skip cs with
  | [] => true
  | '#' :: comment => comment.all isPrintable
  | _ => false

/-- Whether a character may stand in a bare key. -/
def isKeyPart (c : Char) : Bool :=
  c.isAlphanum || c == '_' || c == '-'

/-- A bare key and what follows it. -/
def bareKey? (cs : List Char) : Option (String × List Char) :=
  let key := cs.takeWhile isKeyPart
  if key.isEmpty then none else some (.ofList key, cs.dropWhile isKeyPart)

/-- The name in a header, whose opening brackets are passed already. -/
def headerName? (closing cs : List Char) : Option String := do
  let (name, rest) ← bareKey? (skip cs)
  let rest ← (skip rest).dropPrefix? closing
  if isDone rest then some name else none

/-- A key and its text. -/
def pair? (cs : List Char) : Option Line := do
  let (key, rest) ← bareKey? cs
  let rest ← (skip rest).dropPrefix? ['=']
  let rest ← (skip rest).dropPrefix? ['"']
  let (value, rest) ← basicText? .plain rest
  if isDone rest then some (.entry key (.ofList value)) else none

/-- Read a line. -/
def readLine? (line : List Char) : Option Line :=
  if isDone line then some .blank
  else
    match skip line with
    | '[' :: '[' :: cs => Line.item <$> headerName? [']', ']'] cs
    | '[' :: cs => Line.table <$> headerName? [']'] cs
    | cs => pair? cs

/-- How a line is written. -/
def Line.render : Line → String
  | .blank => ""
  | .entry key value => Scaffold.setting key value
  | .table name => "[" ++ name ++ "]"
  | .item name => "[[" ++ name ++ "]]"

/-- Whether a text is a bare key. -/
def isBareKey (key : String) : Bool :=
  !key.isEmpty && key.toList.all isKeyPart

/-- Whether the name or the key that a line has is a bare one. -/
def Line.isBare : Line → Bool
  | .blank => true
  | .entry key _ => isBareKey key
  | .table name | .item name => isBareKey name

/-- Whether a line has a text with a delete in it. -/
def Line.hasDelete : Line → Bool
  | .entry _ value => Toml.hasDelete value
  | _ => false

section Rendering

variable {key : String} (hkey : isBareKey key = true) (rest : List Char)

include hkey

/-- A bare key has the characters of keys only. -/
theorem isKeyPart_of_isBareKey : ∀ c ∈ key.toList, isKeyPart c = true := by
  rw [isBareKey, Bool.and_eq_true, List.all_eq_true] at hkey
  exact hkey.2

/-- A bare key is read up to where it ends. -/
theorem bareKey?_append (hrest : ∀ c ∈ rest.head?, isKeyPart c = false) :
    bareKey? (key.toList ++ rest) = some (key, rest) := by
  have hall := isKeyPart_of_isBareKey hkey
  have htake : (key.toList ++ rest).takeWhile isKeyPart = key.toList := by
    rw [List.takeWhile_append_of_pos hall]
    cases rest with
    | nil => simp
    | cons c rest => rw [List.takeWhile_cons_of_neg (by simp [hrest c rfl]), List.append_nil]
  have hdrop : (key.toList ++ rest).dropWhile isKeyPart = rest := by
    rw [List.dropWhile_append_of_pos hall]
    cases rest with
    | nil => rfl
    | cons c rest => rw [List.dropWhile_cons_of_neg (by simp [hrest c rfl])]
  have hfull : key.toList.isEmpty = false := by
    rw [isBareKey, Bool.and_eq_true] at hkey
    simpa [String.isEmpty_iff] using hkey.1
  rw [bareKey?, htake, hdrop, hfull, String.ofList_toList]
  rfl

/-- A bare key starts with no blank, no comment and no header. -/
theorem exists_cons_of_isBareKey : ∃ c cs, key.toList ++ rest = c :: cs ∧
    c ≠ ' ' ∧ c ≠ '\t' ∧ c ≠ '#' ∧ c ≠ '[' := by
  have hall := isKeyPart_of_isBareKey hkey
  cases hchars : key.toList with
  | nil =>
      rw [isBareKey, Bool.and_eq_true] at hkey
      simp [String.toList_eq_nil_iff.mp hchars] at hkey
  | cons c cs =>
      have hc : isKeyPart c = true := hall c (by simp [hchars])
      refine ⟨c, cs ++ rest, rfl, ?_, ?_, ?_, ?_⟩ <;>
        · rintro rfl
          exact absurd hc (by decide)

theorem skip_append : skip (key.toList ++ rest) = key.toList ++ rest := by
  obtain ⟨c, cs, hchars, hspace, htab, -, -⟩ := exists_cons_of_isBareKey hkey rest
  rw [hchars, skip, List.dropWhile_cons_of_neg (by simp [hspace, htab])]

theorem readLine?_append : readLine? (key.toList ++ rest) = pair? (key.toList ++ rest) := by
  have hskip := skip_append hkey rest
  obtain ⟨c, cs, hchars, -, -, hcomment, hheader⟩ := exists_cons_of_isBareKey hkey rest
  rw [hchars] at hskip ⊢
  have hdone : isDone (c :: cs) = false := by
    rw [isDone, hskip]
    split
    · contradiction
    · rename_i heq
      exact absurd (List.cons.inj heq).1 hcomment
    · rfl
  rw [readLine?, hdone, hskip]
  simp only [Bool.false_eq_true, if_false]
  split
  · rename_i heq
    exact absurd (List.cons.inj heq).1 hheader
  · rename_i heq
    exact absurd (List.cons.inj heq).1 hheader
  · rfl

/-- A setting is read back, unless its value has a character that may not stand in a text. -/
theorem readLine?_setting (value : String) :
    readLine? (Scaffold.setting key value).toList =
      if hasDelete value then none else some (.entry key value) := by
  let quoted := value.toList.flatMap (escapeChar .unicode) ++ ['"']
  have htext : (Scaffold.setting key value).toList =
      key.toList ++ ' ' :: '=' :: ' ' :: '"' :: quoted := by
    simp [Scaffold.setting, quote, quoteChars, quoted]
  have hequals : (skip (' ' :: '=' :: ' ' :: '"' :: quoted)).dropPrefix? ['='] =
      some (' ' :: '"' :: quoted) := by
    simp [skip, List.dropPrefix?]
  have hquote : (skip (' ' :: '"' :: quoted)).dropPrefix? ['"'] = some quoted := by
    simp [skip, List.dropPrefix?]
  rw [htext, readLine?_append hkey, pair?, bareKey?_append hkey _ (by simp [isKeyPart])]
  simp only [Option.bind_eq_bind, Option.bind_some, hequals, hquote, quoted, basicText?_quoted,
    hasDelete, List.contains_iff_mem]
  by_cases hdelete : delete ∈ value.toList
  · simp [hdelete]
  · simp [hdelete, isDone, skip]

theorem headerName?_append {closing : List Char} (h : closing = [']'] ∨ closing = [']', ']']) :
    headerName? closing (key.toList ++ closing) = some key := by
  have hhead : ∀ c ∈ closing.head?, isKeyPart c = false := by
    rcases h with rfl | rfl <;> simp [isKeyPart]
  have hclosing : (skip closing).dropPrefix? closing = some [] := by
    rcases h with rfl | rfl <;> rfl
  have hdone : isDone [] = true := rfl
  rw [headerName?, skip_append hkey, bareKey?_append hkey _ hhead]
  simp [hclosing, hdone]

/-- The header of a table is read back. -/
theorem readLine?_table : readLine? ("[" ++ key ++ "]").toList = some (.table key) := by
  have hname := headerName?_append hkey (.inl rfl)
  obtain ⟨c, cs, hchars, -, -, -, hheader⟩ := exists_cons_of_isBareKey hkey [']']
  have htext : ("[" ++ key ++ "]").toList = '[' :: c :: cs := by
    simpa using hchars
  have hdone : isDone ('[' :: c :: cs) = false := rfl
  have hskip : skip ('[' :: c :: cs) = '[' :: c :: cs := rfl
  rw [hchars] at hname
  rw [htext, readLine?, hdone, hskip]
  simp [hheader, hname]

/-- The header of an item is read back. -/
theorem readLine?_item : readLine? ("[[" ++ key ++ "]]").toList = some (.item key) := by
  have hname := headerName?_append hkey (.inr rfl)
  have htext : ("[[" ++ key ++ "]]").toList = '[' :: '[' :: (key.toList ++ [']', ']']) := by
    simp
  have hdone : isDone ('[' :: '[' :: (key.toList ++ [']', ']'])) = false := rfl
  have hskip : skip ('[' :: '[' :: (key.toList ++ [']', ']'])) =
      '[' :: '[' :: (key.toList ++ [']', ']']) := rfl
  rw [htext, readLine?, hdone, hskip]
  simp [hname]

end Rendering

/-- A written line is read as itself, or not at all if its text has a delete. -/
theorem readLine?_render {line : Line} (h : line.isBare = true) :
    readLine? line.render.toList = if line.hasDelete then none else some line := by
  cases line with
  | blank => rfl
  | entry key value => exact readLine?_setting h value
  | table name => exact readLine?_table h
  | item name => exact readLine?_item h

/-- Lines that are not written by a configuration: blanks, an escape by number and a comment, and a
control character that is not escaped. -/
example : readLine? "\tkey = \"a\\u0042\\t\" # two".toList = some (.entry "key" "aB\t") := rfl

example : readLine? "key = \"\x07\"".toList = none := rfl

end AikenForge.Toml
