/-
# Scanning for directives

Comments are told from code by a scanner of its own, which accepts more than the grammar does: a
stray character or quote is code like any other. It follows strings over lines, brackets,
continuation lines and indentation, and fails only when the text ends inside a bracket or a string,
or when a line dedents to a column that no enclosing line has.
-/

import AikenForge.Directive.Basic
import AikenForge.Journal
import AikenForge.Source.Token
import AikenForge.Text.Lines

namespace AikenForge.Directive

/-- Why a text cannot be scanned. -/
inductive ScanError
  | openString (line column : Nat)
  | openStatement (line : Nat)
  | badDedent (line : Nat)

/-- The report of a scanning failure. -/
def ScanError.message : ScanError → String
  | .openString line column =>
    "('EOF in multi-line string', (" ++ toString line ++ ", " ++ toString column ++ "))"
  | .openStatement line => "('EOF in multi-line statement', (" ++ toString line ++ ", 0))"
  | .badDedent line =>
    "unindent does not match any outer indentation level (<tokenize>, line " ++ toString line ++ ")"

/-- A string that is open at the end of a line. -/
structure OpenText where
  mark : Char
  isLong : Bool
  line : Nat
  column : Nat

/-- Where the scanner stands at the start of a line. With `needsBackslash` an open string goes on
only after a line that ends with a backslash; that stays so until a string over several lines is
closed. -/
structure ScanState where
  depth : Int := 0
  isContinued : Bool := false
  columns : List Nat := [0]
  string : Option OpenText := none
  needsBackslash : Bool := false

/-- The text after the end of a long string. -/
def afterLong? (mark : Char) : List Char → Option (List Char)
  | [] => none
  | '\\' :: '\n' :: _ => none
  | '\\' :: _ :: rest => afterLong? mark rest
  | c :: rest =>
    if c == mark && rest.take 2 == [mark, mark] then some (rest.drop 2) else afterLong? mark rest

/-- The text after the end of a string that began on an earlier line. -/
def afterContinued? (mark : Char) : List Char → Option (List Char)
  | [] => none
  | '\\' :: '\n' :: _ => none
  | '\\' :: _ :: rest => afterContinued? mark rest
  | c :: rest => if c == mark then some rest else afterContinued? mark rest

/-- How a short string ends on its first line. -/
inductive ShortEnd
  | closed (rest : List Char)
  | continued
  | unmatched

/-- Follow a short string from after its quote. -/
def shortEnd (mark : Char) : List Char → ShortEnd
  | [] => .unmatched
  | '\n' :: _ => .unmatched
  | ['\\'] => .unmatched
  | '\\' :: '\n' :: _ => .continued
  | '\\' :: '\r' :: '\n' :: _ => .continued
  | '\\' :: _ :: rest => shortEnd mark rest
  | c :: rest => if c == mark then .closed rest else shortEnd mark rest

/-- Whether a line ends with a backslash. -/
def endsContinued (cs : List Char) : Bool :=
  match cs.reverse with
  | '\n' :: '\\' :: _ => true
  | '\n' :: '\r' :: '\\' :: _ => true
  | _ => false

/-- The change of bracket depth at a character. -/
def depthStep (c : Char) : Int :=
  if c == '(' || c == '[' || c == '\x7b' then 1
  else if c == ')' || c == ']' || c == '\x7d' then -1
  else 0

/-- Whether `c` opens a string. -/
def isQuote (c : Char) : Bool :=
  c == '"' || c == '\''

/-- How a string ends as far as its first line tells: on the line, beyond it, or nowhere. -/
inductive StringEnd
  | closed (rest : List Char)
  | beyond (isLong : Bool)
  | unmatched

/-- Follow a string from after its first quote. -/
def stringEnd (mark : Char) (cs : List Char) : StringEnd :=
  if cs.take 2 == [mark, mark] then
    match afterLong? mark (cs.drop 2) with
    | some rest => .closed rest
    | none => .beyond true
  else
    match shortEnd mark cs with
    | .closed rest => .closed rest
    | .continued => .beyond false
    | .unmatched => .unmatched

/-- The word that opens a text, unless it starts with a digit. -/
def leadingWord (cs : List Char) : List Char :=
  if (cs.head?.map Char.isDigit).getD false then [] else cs.takeWhile Text.isWordPart

/-- The quote of the string that opens a text, perhaps after its marks, and the text after it. -/
def openingQuote? (cs : List Char) : Option (Char × List Char) :=
  let word := leadingWord cs
  match cs.drop word.length with
  | c :: rest =>
    if isQuote c && (word.isEmpty || Source.isLiteralMark word) then some (c, rest) else none
  | [] => none

/-- The text after the first word or character. -/
def afterItem (cs : List Char) : List Char :=
  cs.drop (max 1 (leadingWord cs).length)

/-- Scan the rest of a line: its marks and the state at its end. `width` is the length of the whole
line, from which columns are counted; `fuel` bounds the steps. -/
def scanRest (line width : Nat) : (fuel : Nat) → ScanState → List Char → List Mark × ScanState
  | 0, state, _ => ([], state)
  | fuel + 1, state, cs =>
    let add := fun (mark : Mark) (result : List Mark × ScanState) => (mark :: result.1, result.2)
    match cs with
    | [] => ([], state)
    | ['\n'] | ['\r', '\n'] => ([.layout line], state)
    | ['\\', '\n'] | ['\\', '\r', '\n'] => ([], { state with isContinued := true })
    | c :: rest =>
      if c == ' ' || c == '\t' || c == '\x0c' then scanRest line width fuel state rest
      else if c == '#' then
        let isInside := fun c => c != '\r' && c != '\n'
        add (.comment line (.ofList (cs.takeWhile isInside)))
          (scanRest line width fuel state (cs.dropWhile isInside))
      else
        match openingQuote? cs with
        | some (mark, inside) =>
          match stringEnd mark inside with
          | .closed rest => add (.code line) (scanRest line width fuel state rest)
          | .beyond isLong =>
            ([], { state with
              string := some ⟨mark, isLong, line, width - cs.length⟩
              needsBackslash := state.needsBackslash || !isLong })
          | .unmatched => add (.code line) (scanRest line width fuel state inside)
        | none =>
          add (.code line)
            (scanRest line width fuel { state with depth := state.depth + depthStep c }
              (afterItem cs))

/-- Measure the indentation of a line, with tabs to multiples of eight columns. -/
def measureColumn (column : Nat) : List Char → Nat × List Char
  | ' ' :: rest => measureColumn (column + 1) rest
  | '\t' :: rest => measureColumn ((column / 8 + 1) * 8) rest
  | '\x0c' :: rest => measureColumn 0 rest
  | rest => (column, rest)

/-- The enclosing columns after a line at `column`, innermost first. -/
def enclosingColumns (column : Nat) : List Nat → Option (List Nat)
  | [] => none
  | top :: below =>
    if top < column then some (column :: top :: below)
    else if column < top then
      if below.contains column then enclosingColumns column below else none
    else some (top :: below)

/-- Scan a line that starts a statement. -/
def scanFresh (line : Nat) (state : ScanState) (cs : List Char) :
    Except ScanError (List Mark × ScanState) :=
  let (column, rest) := measureColumn 0 cs
  match rest with
  | [] => pure ([], state)
  | '#' :: _ =>
    let comment := Text.dropWhileEnd (fun c => c == '\r' || c == '\n') rest
    pure ([.comment line (.ofList comment), .layout line], state)
  | '\r' :: _ | '\n' :: _ => pure ([.layout line], state)
  | _ =>
    match enclosingColumns column state.columns with
    | some columns =>
      pure (scanRest line cs.length (rest.length + 1) { state with columns } rest)
    | none => throw (.badDedent line)

/-- The text after the end of a string that is open at the start of a line. -/
def OpenText.end? (string : OpenText) (cs : List Char) : Option (List Char) :=
  if string.isLong then afterLong? string.mark cs else afterContinued? string.mark cs

/-- Scan one line. -/
def scanLine (line : Nat) (state : ScanState) (cs : List Char) :
    Except ScanError (List Mark × ScanState) :=
  match state.string with
  | some string =>
    match string.end? cs with
    | some rest =>
      let (marks, state) := scanRest line cs.length (rest.length + 1)
        { state with string := none, needsBackslash := false } rest
      pure (.code string.line :: marks, state)
    | none =>
      if state.needsBackslash && !endsContinued cs then
        pure ([.code string.line], { state with string := none })
      else pure ([], state)
  | none =>
    if state.depth = 0 && !state.isContinued then scanFresh line state cs
    else pure (scanRest line cs.length (cs.length + 1) { state with isContinued := false } cs)

/-- Whether a text may end in a state; `line` is the line after the last. -/
def checkEnd (line : Nat) (state : ScanState) : Except ScanError Unit :=
  match state.string with
  | some string => throw (.openString string.line string.column)
  | none => if state.depth = 0 && !state.isContinued then pure () else throw (.openStatement line)

/-- Scan lines one after the other. -/
def scanLines (line : Nat) (state : ScanState) : List (List Char) → Except ScanError (List Mark)
  | [] => do
    checkEnd line state
    pure []
  | cs :: rest => do
    let (marks, state) ← scanLine line state cs
    let later ← scanLines (line + 1) state rest
    pure (marks ++ later)

/-- The lines of a text with their line feeds, split at line feeds only. -/
def feedLines (current : List Char) : List Char → List (List Char)
  | [] => if current.isEmpty then [] else [current.reverse]
  | '\n' :: rest => ('\n' :: current).reverse :: feedLines [] rest
  | c :: rest => feedLines (c :: current) rest

/-- The marks of a text. -/
def marksOf (source : String) : Except ScanError (List Mark) :=
  scanLines 1 {} (feedLines [] source.toList)

/-- The directives of a text by the line they are bound to, with reports of those that cannot be
bound. A text that cannot be scanned has none. -/
def scan (source : String) : DirectiveTable × Journal :=
  match marksOf source with
  | .error e =>
    ([], [⟨.warning, .directives, "Could not scan comment directives: " ++ e.message⟩])
  | .ok marks =>
    let (table, pending) := bindAll marks
    (table, pending.map fun directive =>
      ⟨.warning, .directives, "@" ++ directive.kind.label ++ " directive on line " ++
        toString directive.line ++ " precedes no code"⟩)

end AikenForge.Directive
