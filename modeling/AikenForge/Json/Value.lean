/-
# JSON values

Values as JSON writes them, and their text: two blanks for each level, one member or item on a line,
and only ASCII characters. A text is a list of code points, because an escape can write half of a
surrogate pair; members keep the order of their first writing.
-/

import AikenForge.Number.Shortest
import AikenForge.Text.CodePoints
import AikenForge.Text.Lines

namespace AikenForge

open AikenForge.Number AikenForge.Text

/-- A number with a fraction or an exponent, and the values beyond numbers. -/
inductive JsonReal
  | nan
  | number (isNegative : Bool) (magnitude : Magnitude)
  deriving DecidableEq

/-- The text of a number. -/
def JsonReal.render : JsonReal → String
  | .nan => "NaN"
  | .number isNegative .infinite => if isNegative then "-Infinity" else "Infinity"
  | .number isNegative magnitude => (if isNegative then "-" else "") ++ magnitude.render .real

mutual

/-- A JSON value. -/
inductive JsonValue
  | null
  | bool (value : Bool)
  | int (value : Int)
  | real (value : JsonReal)
  | text (value : CodePoints)
  | list (items : List JsonValue)
  | object (members : List JsonMember)

/-- A member of an object. -/
inductive JsonMember
  | mk (key : CodePoints) (value : JsonValue)

end

instance : Inhabited JsonValue := ⟨.null⟩

namespace JsonMember

/-- The key of a member. -/
def key : JsonMember → CodePoints
  | .mk key _ => key

/-- The value of a member. -/
def value : JsonMember → JsonValue
  | .mk _ value => value

/-- Give a key a value: in its place if it has one, else at the end. -/
def insert (key : CodePoints) (value : JsonValue) : List JsonMember → List JsonMember
  | [] => [.mk key value]
  | .mk k v :: rest =>
    if k == key then .mk key value :: rest else .mk k v :: insert key value rest

/-- The value of a key. -/
def find? (key : CodePoints) (members : List JsonMember) : Option JsonValue :=
  (members.find? fun m => m.key == key).map value

end JsonMember

namespace JsonValue

/-- The value of a string. -/
def string (s : String) : JsonValue :=
  .text (codePoints s)

/-- The object of named values. -/
def ofFields (fields : List (String × JsonValue)) : JsonValue :=
  .object (fields.map fun (key, value) => .mk (codePoints key) value)

/-- The line break before a level. -/
def breakAt (depth : Nat) : String :=
  "\n" ++ .ofList (List.replicate (2 * depth) ' ')

mutual

/-- The text of a value at a level. -/
def renderAt (depth : Nat) : JsonValue → String
  | .null => "null"
  | .bool value => if value then "true" else "false"
  | .int value => toString value
  | .real value => value.render
  | .text value => quotePoints .ascii value
  | .list [] => "[]"
  | .list items =>
    "[" ++ breakAt (depth + 1) ++
      ("," ++ breakAt (depth + 1)).intercalate (renderItems (depth + 1) items) ++
      breakAt depth ++ "]"
  | .object [] => "\x7b\x7d"
  | .object members =>
    "\x7b" ++ breakAt (depth + 1) ++
      ("," ++ breakAt (depth + 1)).intercalate (renderMembers (depth + 1) members) ++
      breakAt depth ++ "\x7d"

/-- The texts of items at a level. -/
def renderItems (depth : Nat) : List JsonValue → List String
  | [] => []
  | item :: rest => renderAt depth item :: renderItems depth rest

/-- The texts of members at a level. -/
def renderMembers (depth : Nat) : List JsonMember → List String
  | [] => []
  | .mk key value :: rest =>
    (quotePoints .ascii key ++ ": " ++ renderAt depth value) :: renderMembers depth rest

end

/-- The text of a value. -/
def render (value : JsonValue) : String :=
  renderAt 0 value

/-- What messages call a kind of value. -/
def kind : JsonValue → String
  | .null => "NoneType"
  | .bool _ => "bool"
  | .int _ => "int"
  | .real _ => "float"
  | .text _ => "str"
  | .list _ => "list"
  | .object _ => "dict"

/-- Whether a value counts as absent: null, false, zero or empty. -/
def isEmpty : JsonValue → Bool
  | .null => true
  | .bool value => !value
  | .int value => value == 0
  | .real (.number _ (.finite significand _)) => significand == 0
  | .real _ => false
  | .text value => value.isEmpty
  | .list items => items.isEmpty
  | .object members => members.isEmpty

end JsonValue

end AikenForge
