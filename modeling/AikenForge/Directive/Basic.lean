/-
# Comment directives

A comment such as `# @expect x` gives an instruction about the code after it. A directive is bound
to the line of the first code that follows its comment; directives that no code follows are left
over.
-/

import AikenForge.Text.Blank
import AikenForge.Text.Letters

namespace AikenForge

open AikenForge.Text

/-- What a directive asks for. -/
inductive DirectiveKind
  | when | pipe | expect
  deriving DecidableEq

/-- The word that names a kind of directive. -/
def DirectiveKind.label : DirectiveKind → String
  | .when => "when"
  | .pipe => "pipe"
  | .expect => "expect"

/-- A directive and the line of its comment. -/
structure Directive where
  kind : DirectiveKind
  text : String
  line : Nat

/-- Directives by the line of the code they are bound to. -/
abbrev DirectiveTable := List (Nat × List Directive)

namespace DirectiveTable

/-- The directives bound to a line. -/
def onLine (table : DirectiveTable) (line : Nat) : List Directive :=
  (table.lookup line).getD []

/-- The directives of one kind bound to a line. -/
def ofKind (table : DirectiveTable) (line : Nat) (kind : DirectiveKind) : List Directive :=
  (table.onLine line).filter fun directive => directive.kind == kind

/-- Bind further directives to a line. -/
def bind (line : Nat) (directives : List Directive) : DirectiveTable → DirectiveTable
  | [] => [(line, directives)]
  | (l, found) :: rest =>
    if l == line then (l, found ++ directives) :: rest else (l, found) :: bind line directives rest

/-- The part of a table that is bound to the lines from `first` to `last`. -/
def within (table : DirectiveTable) (first last : Nat) : DirectiveTable :=
  table.filter fun entry => first ≤ entry.1 && entry.1 ≤ last

end DirectiveTable

namespace Directive

/-- The text after a word that opens `cs`, if the word ends there. -/
def afterWord? (word cs : List Char) : Option (List Char) :=
  if word.isPrefixOf cs then
    match cs.drop word.length with
    | [] => some []
    | c :: rest => if isWordPart c then none else some (c :: rest)
  else none

/-- The directive that a comment on `line` writes: `#`, `@` and the word of a kind, with blanks
between, and a text up to the end. -/
def ofComment? (line : Nat) (comment : String) : Option Directive :=
  match comment.toList with
  | '#' :: rest =>
    match rest.dropWhile isBlank with
    | '@' :: rest =>
      [DirectiveKind.when, .pipe, .expect].findSome? fun kind =>
        (afterWord? kind.label.toList rest).map fun text => ⟨kind, strip (.ofList text), line⟩
    | _ => none
  | _ => none

/-- What a text consists of, as far as directives are concerned: comments, layout and code, each
with the line it starts on. -/
inductive Mark
  | comment (line : Nat) (text : String)
  | layout (line : Nat)
  | code (line : Nat)

/-- Bind directives mark by mark; `pending` holds those that still wait for code. -/
def bindFrom (table : DirectiveTable) (pending : List Directive) :
    List Mark → DirectiveTable × List Directive
  | [] => (table, pending)
  | .comment line text :: rest =>
    match ofComment? line text with
    | some directive => bindFrom table (pending ++ [directive]) rest
    | none => bindFrom table pending rest
  | .layout _ :: rest => bindFrom table pending rest
  | .code line :: rest =>
    if pending.isEmpty then bindFrom table [] rest
    else bindFrom (table.bind line pending) [] rest

/-- The table of a list of marks, and the directives that no code follows. -/
def bindAll (marks : List Mark) : DirectiveTable × List Directive :=
  bindFrom [] [] marks

end Directive

end AikenForge
