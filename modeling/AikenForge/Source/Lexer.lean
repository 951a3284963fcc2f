/-
# Scanning tokens

Source text is read line by line: the indentation of each line gives indent and dedent marks, and
inside brackets or after a backslash a line continues the one before. A failure reports the line on
which no token could be read.
-/

import AikenForge.Source.Literal
import AikenForge.Text.Letters

namespace AikenForge.Source

open AikenForge.Text

/-- Every line break of source text becomes a line feed. -/
def unifyBreaks : List Char → List Char
  | [] => []
  | '\r' :: '\n' :: rest => '\n' :: unifyBreaks rest
  | '\r' :: rest => '\n' :: unifyBreaks rest
  | c :: rest => c :: unifyBreaks rest

/-- An indentation measured twice, with tabs to multiples of eight columns and with tabs as one
column; two lines are comparable only if both measures agree. -/
structure Margin where
  wide : Nat
  narrow : Nat

/-- Where the scanner stands: the line, whether a line is about to start, the open brackets and the
enclosing indentations, innermost first. -/
structure Cursor where
  line : Nat
  atStart : Bool
  brackets : List Char
  margins : List Margin

/-- The cursor at the start of a text. -/
def Cursor.initial : Cursor :=
  ⟨1, true, [], []⟩

/-- The deepest nesting of brackets. -/
def bracketLimit : Nat := 200

/-- The deepest nesting of indentation. -/
def marginLimit : Nat := 99

/-- The indentation of a line: its measures, the column at which a backslash fixed it, the lines
passed and the text after it. Refused when a backslash does not end its line. -/
def measureMargin (margin : Margin) (fixed : Option Nat) (lines : Nat) :
    List Char → Option (Margin × Option Nat × Nat × List Char)
  | ' ' :: rest => measureMargin ⟨margin.wide + 1, margin.narrow + 1⟩ fixed lines rest
  | '\t' :: rest =>
    measureMargin ⟨(margin.wide / 8 + 1) * 8, margin.narrow + 1⟩ fixed lines rest
  | '\x0c' :: rest => measureMargin ⟨0, 0⟩ fixed lines rest
  | '\\' :: '\n' :: c :: rest =>
    measureMargin margin (if fixed.getD 0 = 0 then some margin.wide else fixed) (lines + 1)
      (c :: rest)
  | '\\' :: _ => none
  | rest => some (margin, fixed, lines, rest)

/-- Leave the indentations that are wider than a line's, counting them. -/
def closeMargins (margin : Margin) : List Margin → Nat × List Margin
  | [] => (0, [])
  | top :: below =>
    if margin.wide < top.wide then
      let (count, left) := closeMargins margin below
      (count + 1, left)
    else (0, top :: below)

/-- The layout marks that a line's indentation gives, and the indentations then in force. -/
def layoutMarks (margins : List Margin) (margin : Margin) : Option (List Lexeme × List Margin) :=
  let top := margins.head?.getD ⟨0, 0⟩
  if margin.wide = top.wide then
    if margin.narrow = top.narrow then some ([], margins) else none
  else if top.wide < margin.wide then
    if margin.narrow ≤ top.narrow ∨ marginLimit ≤ margins.length then none
    else some ([.indent], margin :: margins)
  else
    let (count, left) := closeMargins margin margins
    let outer := left.head?.getD ⟨0, 0⟩
    if margin.wide = outer.wide ∧ margin.narrow = outer.narrow then
      some (List.replicate count .dedent, left)
    else none

/-- The text from the next line feed on. -/
def skipComment (cs : List Char) : List Char :=
  cs.dropWhile (· != '\n')

/-- Start a line: its layout marks, the cursor inside it and the text after its indentation. A line
that is blank or holds only a comment is passed over. -/
def openLine (cursor : Cursor) (cs : List Char) : Option (List Token × Cursor × List Char) := do
  let (margin, fixed, lines, rest) ← measureMargin ⟨0, 0⟩ none 0 cs
  let line := cursor.line + lines
  let inside : Cursor := { cursor with line, atStart := false }
  let isSkipped := match rest with
    | '#' :: _ | '\n' :: _ => true
    | _ => false
  if isSkipped then
    match skipComment rest with
    | _ :: after => some ([], { cursor with line := line + 1 }, after)
    | [] => some ([], inside, [])
  else if cursor.brackets.isEmpty then
    let margin := match fixed with
      | some (column + 1) => ⟨column + 1, column + 1⟩
      | _ => margin
    let (marks, margins) ← layoutMarks cursor.margins margin
    some (marks.map fun mark => ⟨mark, line, line⟩, { inside with margins }, rest)
  else some ([], inside, rest)

/-- The body of a string between single quotes and the text after it. -/
def shortBody (mark : Char) : List Char → Option (List Char × List Char)
  | [] => none
  | '\n' :: _ => none
  | '\\' :: c :: rest =>
    (shortBody mark rest).map fun (body, rest) => ('\\' :: c :: body, rest)
  | c :: rest =>
    if c == mark then some ([], rest)
    else (shortBody mark rest).map fun (body, rest) => (c :: body, rest)

/-- The body of a string between triple quotes and the text after it. -/
def longBody (mark : Char) : List Char → Option (List Char × List Char)
  | [] => none
  | '\\' :: c :: rest =>
    (longBody mark rest).map fun (body, rest) => ('\\' :: c :: body, rest)
  | c :: rest =>
    if c == mark && rest.take 2 == [mark, mark] then some ([], rest.drop 2)
    else (longBody mark rest).map fun (body, rest) => (c :: body, rest)

/-- The body of a string from its opening quote on. -/
def stringBody (mark : Char) (cs : List Char) : Option (List Char × List Char) :=
  if cs.take 3 == [mark, mark, mark] then longBody mark (cs.drop 3)
  else shortBody mark (cs.drop 1)

/-- Read the string whose quote opens `cs`, after the marks `marks`. -/
def readString (cursor : Cursor) (marks : List Char) (mark : Char) (cs : List Char) :
    Option (List Token × Cursor × List Char) := do
  let (body, rest) ← stringBody mark cs
  let line := cursor.line + body.count '\n'
  let has := fun mark => marks.any fun c => c.toLower == mark
  let literal : StringLiteral := ⟨marks == ['u'], has 'b', has 'r', has 'f', body⟩
  some ([⟨.string literal, cursor.line, line⟩], { cursor with line }, rest)

/-- Whether a word is a name or a keyword: an ASCII word always is. -/
def isValidWord : List Char → Bool
  | [] => false
  | c :: rest =>
    (c :: rest).all (fun c => c.toNat < 128) || (isNameStart c && rest.all isNamePart)

/-- Read a word, or a string with marks. -/
def readWord (cursor : Cursor) (cs : List Char) : Option (List Token × Cursor × List Char) :=
  let word := cs.takeWhile isWordChar
  let rest := cs.dropWhile isWordChar
  let plain :=
    if isValidWord word then
      some ([⟨.word (.ofList word), cursor.line, cursor.line⟩], cursor, rest)
    else none
  match rest with
  | c :: _ =>
    if (c == '"' || c == '\'') && isLiteralMark word then
      readString cursor word c rest
    else plain
  | [] => plain

/-- The bracket that closes `c`. -/
def closingBracket? : Char → Option Char
  | '(' => some ')'
  | '[' => some ']'
  | '\x7b' => some '\x7d'
  | _ => none

/-- The open brackets after a symbol; refused when brackets do not match or nest too deep. -/
def trackBrackets (brackets : List Char) : List Char → Option (List Char)
  | [c] =>
    match closingBracket? c with
    | some closing => if bracketLimit ≤ brackets.length then none else some (closing :: brackets)
    | none =>
      if c == ')' || c == ']' || c == '\x7d' then
        match brackets with
        | top :: below => if top == c then some below else none
        | [] => none
      else some brackets
  | _ => some brackets

/-- Read a symbol, the longest that fits. -/
def readSymbol (cursor : Cursor) (cs : List Char) : Option (List Token × Cursor × List Char) := do
  let symbol ← symbolTexts.find? (·.isPrefixOf cs)
  let brackets ← trackBrackets cursor.brackets symbol
  some ([⟨.symbol (.ofList symbol), cursor.line, cursor.line⟩], { cursor with brackets },
    cs.drop symbol.length)

/-- Read what comes next inside a line: at most one token. -/
def readInLine (cursor : Cursor) (cs : List Char) : Option (List Token × Cursor × List Char) :=
  match cs with
  | [] => if cursor.brackets.isEmpty then some ([], cursor, []) else none
  | '#' :: _ => some ([], cursor, skipComment cs)
  | '\n' :: rest =>
    let next : Cursor := { cursor with line := cursor.line + 1, atStart := true }
    if cursor.brackets.isEmpty then some ([⟨.newline, cursor.line, cursor.line⟩], next, rest)
    else some ([], next, rest)
  | '\\' :: '\n' :: c :: rest => some ([], { cursor with line := cursor.line + 1 }, c :: rest)
  | '\\' :: _ => none
  | c :: rest =>
    if c == ' ' || c == '\t' || c == '\x0c' then some ([], cursor, rest)
    else if c == '"' || c == '\'' then readString cursor [] c cs
    else if c.isDigit || (c == '.' && (rest.head?.map Char.isDigit).getD false) then
      (readNumber cs).map fun (value, rest) =>
        ([⟨.number value, cursor.line, cursor.line⟩], cursor, rest)
    else if isWordChar c then readWord cursor cs
    else readSymbol cursor cs

/-- Read tokens to the end of the text; `fuel` bounds the number of steps. -/
def readTokens : (fuel : Nat) → Cursor → List Char → Except Nat (List Token)
  | 0, cursor, _ => throw cursor.line
  | fuel + 1, cursor, cs =>
    if cs.isEmpty && !cursor.atStart && cursor.brackets.isEmpty then pure []
    else
      match if cursor.atStart then openLine cursor cs else readInLine cursor cs with
      | none => throw cursor.line
      | some (tokens, cursor, rest) => do
        let later ← readTokens fuel cursor rest
        pure (tokens ++ later)

/-- The tokens of a text whose line breaks are unified. -/
def tokenize (cs : List Char) : Except Nat (List Token) :=
  readTokens (2 * cs.length + 4) .initial cs

end AikenForge.Source
