/-
# Lines

A text as a list of lines, each with the break that ends it; the layout of an indented block; and
the margin rule for documentation texts.
-/

import AikenForge.Text.Blank

namespace AikenForge.Text

/-- Whether `c` ends a line. A carriage return followed by a line feed ends one line, not two. -/
def isLineBreak (c : Char) : Bool :=
  let n := c.toNat
  (10 ≤ n && n ≤ 13) || (0x1C ≤ n && n ≤ 0x1E) || n == 0x85 || n == 0x2028 || n == 0x2029

/-- A line and the break that ends it, empty for a last line without one. -/
structure Line where
  content : List Char
  ending : List Char

/-- The characters of a line with its break. -/
def Line.toList (line : Line) : List Char :=
  line.content ++ line.ending

/-- Split off lines; `current` holds the characters of the line begun, latest first. -/
def linesFrom (current : List Char) : List Char → List Line
  | [] => if current.isEmpty then [] else [⟨current.reverse, []⟩]
  | '\r' :: '\n' :: rest => ⟨current.reverse, ['\r', '\n']⟩ :: linesFrom [] rest
  | c :: rest =>
    if isLineBreak c then ⟨current.reverse, [c]⟩ :: linesFrom [] rest
    else linesFrom (c :: current) rest

/-- The lines of a text. A break at the end does not open another line. -/
def linesOf (cs : List Char) : List Line :=
  linesFrom [] cs

/-- The contents of the lines of a text. -/
def splitLines (s : String) : List String :=
  (linesOf s.toList).map fun line => .ofList line.content

/-- Indent one line; a blank line stays as it is. -/
def Line.indent (width : Nat) (line : Line) : List Char :=
  if isBlankText line.content then line.toList
  else List.replicate width ' ' ++ line.toList

/-- Indent every line of a block that is not blank. A width below zero does not indent. -/
def indentBlock (width : Int) (s : String) : String :=
  .ofList ((linesOf s.toList).flatMap (Line.indent width.toNat))

/-- Join lines by single line feeds. -/
def joinLines (lines : List String) : String :=
  "\n".intercalate lines

/-- What holds of texts and passes to two of them with the glue between holds of the texts glued
together. -/
theorem intercalate_induction {p : String → Prop} {glue : String} {texts : List String}
    (hne : texts ≠ []) (happend : ∀ first second, p first → p second → p (first ++ glue ++ second))
    (h : ∀ text ∈ texts, p text) : p (glue.intercalate texts) := by
  induction texts with
  | nil => exact absurd rfl hne
  | cons first rest ih =>
      have hfirst := h first List.mem_cons_self
      cases rest with
      | nil => rwa [String.intercalate_singleton]
      | cons second rest =>
          rw [String.intercalate_cons_cons]
          exact happend _ _ hfirst
            (ih (by simp) fun text htext => h text (List.mem_cons_of_mem first htext))

/-- Replace tabs by blanks up to the next multiple of eight columns. -/
def expandTabs (column : Nat) : List Char → List Char
  | [] => []
  | '\t' :: rest =>
    let width := 8 - column % 8
    List.replicate width ' ' ++ expandTabs (column + width) rest
  | c :: rest =>
    c :: expandTabs (if c == '\n' || c == '\r' then 0 else column + 1) rest

/-- Split a list at every occurrence of `separator`. -/
def splitOnChar (separator : Char) (current : List Char) : List Char → List (List Char)
  | [] => [current.reverse]
  | c :: rest =>
    if c == separator then current.reverse :: splitOnChar separator [] rest
    else splitOnChar separator (c :: current) rest

/-- The least indentation of the lines that are not blank. -/
def margin? (lines : List (List Char)) : Option Nat :=
  (lines.filterMap fun line =>
    if isBlankText line then none else some (line.takeWhile isBlank).length).min?

/-- A documentation text with tabs expanded, the first line's indentation and the common margin of
the other lines removed, and no empty lines at either end. -/
def trimDocumentation (s : String) : String :=
  let trimmed := match splitOnChar '\n' [] (expandTabs 0 s.toList) with
    | [] => []
    | first :: others =>
      first.dropWhile isBlank ::
        match margin? others with
        | some margin => others.map (List.drop margin)
        | none => others
  joinLines (((dropWhileEnd List.isEmpty trimmed).dropWhile List.isEmpty).map String.ofList)

end AikenForge.Text
