/-
# Names

Conversions between the naming rules of source and target: values and constants are in lower snake
case, constructors in capitalized words.
-/

import AikenForge.Text.Case

namespace AikenForge.Naming

open AikenForge.Text

/-- Whether a new word starts at `b` after `a`, with `next` after it: an upper-case ASCII letter
after a lower-case one or a digit, or the last of several upper-case letters before a lower-case
one. -/
def startsWord (a b : Char) (next : Option Char) : Bool :=
  b.isUpper && (a.isLower || a.isDigit || (a.isUpper && (next.map Char.isLower).getD false))

/-- Put an underscore before every character that starts a new word. -/
def separateWords : List Char → List Char
  | a :: b :: rest =>
    if startsWord a b rest.head? then a :: '_' :: separateWords (b :: rest)
    else a :: separateWords (b :: rest)
  | cs => cs

/-- A name in lower snake case. A name that is all upper case or has underscores is taken to have
its words separated already. -/
def toSnakeCase (name : String) : String :=
  let cs := name.toList
  if isUpperText cs || cs.contains '_' then .ofList (lowerText cs)
  else .ofList (lowerText (separateWords cs))

/-- The parts of a text between underscores. -/
def words (current : List Char) : List Char → List (List Char)
  | [] => [current.reverse]
  | c :: rest => if c == '_' then current.reverse :: words [] rest else words (c :: current) rest

/-- The name of a constructor: capitalized words without underscores. The empty name has none. -/
def toConstructorName? (name : String) : Option String :=
  let cs := name.toList
  if cs.contains '_' || isUpperText cs || isLowerText cs then
    some (.ofList ((words [] cs).flatMap capitalizeText))
  else
    match cs with
    | [] => none
    | c :: rest => some (.ofList (upperChar c ++ rest))

/-- The name of a constructor; the empty name stays empty. -/
def toConstructorName (name : String) : String :=
  (toConstructorName? name).getD name

/-- Whether a name is that of a constructor: it starts with a capital and is not all upper case. -/
def isConstructorName (name : String) : Bool :=
  match name.toList with
  | [] => false
  | c :: rest => isUpper c && !isUpperText (c :: rest)

/-- A text without its leading underscores. -/
def dropUnderscores (cs : List Char) : List Char :=
  cs.dropWhile (· == '_')

/-- Whether a name is that of a constant: all upper case after its leading underscores. -/
def isConstantName (name : String) : Bool :=
  isUpperText (dropUnderscores name.toList)

/-- The name that a constant is declared under: snake case without leading underscores, unless
nothing else is left. -/
def constantName (name : String) : String :=
  let converted := toSnakeCase (.ofList (dropUnderscores name.toList))
  if converted.isEmpty then name else converted

end AikenForge.Naming
