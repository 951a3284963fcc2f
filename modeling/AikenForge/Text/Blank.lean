/-
# Blanks

The blank characters and the removal of blanks at the ends of a text.
-/

namespace AikenForge.Text

/-- Whether `c` is a blank: a space, a tab, a line break or another separator without a glyph. -/
def isBlank (c : Char) : Bool :=
  let n := c.toNat
  (9 ≤ n && n ≤ 13) || (0x1C ≤ n && n ≤ 0x20) || n == 0x85 || n == 0xA0 || n == 0x1680 ||
    (0x2000 ≤ n && n ≤ 0x200A) || n == 0x2028 || n == 0x2029 || n == 0x202F || n == 0x205F ||
    n == 0x3000

/-- Drop the elements at the end of a list that satisfy `p`. -/
def dropWhileEnd (p : α → Bool) (xs : List α) : List α :=
  (xs.reverse.dropWhile p).reverse

/-- A text without its trailing blanks. -/
def stripEnd (s : String) : String :=
  .ofList (dropWhileEnd isBlank s.toList)

/-- A text without blanks at either end. -/
def strip (s : String) : String :=
  .ofList (dropWhileEnd isBlank (s.toList.dropWhile isBlank))

/-- Whether a text holds nothing but blanks. -/
def isBlankText (cs : List Char) : Bool :=
  cs.all isBlank

end AikenForge.Text
