/-
# Documentation and blocks of declarations

What the texts of all declarations share: documentation lines behind a marker, type parameters and
blocks in braces.
-/

import AikenForge.Options
import AikenForge.Source.Tree
import AikenForge.Text.Lines

namespace AikenForge

open AikenForge.Source AikenForge.Text

/-- Documentation lines, which may be absent. -/
abbrev Documentation := Option (List String)

namespace Documentation

/-- Documentation behind a marker. -/
def marked (marker : String) (docs : Documentation) : List String :=
  (docs.getD []).map fun line => stripEnd (marker ++ " " ++ line)

/-- The documentation of a declaration, unless the options leave it out. -/
def lines (options : Options) (docs : Documentation) : List String :=
  if options.emitDocs then docs.marked "///" else []

/-- The documentation that opens a block of statements, without its indentation. -/
def ofBlock (statements : List Stmt) : Documentation :=
  match statements.head?.bind Stmt.text? with
  | none => none
  | some text =>
    let trimmed := trimDocumentation text
    if trimmed.isEmpty then none else some (splitLines trimmed)

/-- The documentation that a bare text after a declaration gives. -/
def ofFollowing (next : Option Stmt) : Documentation :=
  (next.bind Stmt.text?).map fun text => (splitLines (strip text)).map strip

end Documentation

/-- Type parameters in angle brackets; without any there are no brackets. -/
def typeParametersText (parameters : Option (List String)) : String :=
  match parameters.getD [] with
  | [] => ""
  | names => "<" ++ ", ".intercalate names ++ ">"

/-- A header with an indented body in braces: `header {`, the lines and `}`. -/
def bracedBlock (indent : Int) (header body : String) : String :=
  header ++ " \x7b\n" ++ indentBlock indent body ++ "\n\x7d"

/-- The word before a public declaration. -/
def visibility (isPublic : Bool) : String :=
  if isPublic then "pub " else ""

end AikenForge
