/-
# Patterns of generated clauses

What a clause of a `when` matches, and its text. A part that is missing is written as the wildcard.
-/

namespace AikenForge

mutual

/-- A pattern of the target language. -/
inductive ClausePattern
  | wildcard
  | literal (text : Option String)
  | variable (name : Option String)
  | constructor (name : Option String) (args : List ClausePattern) (fields : List FieldPattern)
  | tuple (items : List ClausePattern)
  | list (items : List ClausePattern)

/-- A labelled field of a constructor pattern. -/
inductive FieldPattern
  | mk (label : String) (pattern : ClausePattern)

end

instance : Inhabited ClausePattern := ⟨.wildcard⟩

namespace ClausePattern

/-- A text that is given and not empty, else the wildcard. -/
def orWildcard : Option String → String
  | none => "_"
  | some text => if text.isEmpty then "_" else text

/-- Constructors of optional and fallible values, which are written with fixed binders. -/
def fixedForms : List (String × String) :=
  [("Ok", "Ok(value)"), ("Error", "Error(error)"), ("Some", "Some(value)"), ("None", "None")]

mutual

/-- The text of a pattern. A constructor with fields is written with its fields only, as
`Point { x: a, y: _ }`. -/
def render : ClausePattern → String
  | .wildcard => "_"
  | .literal text => orWildcard text
  | .variable name => orWildcard name
  | .constructor name args fields =>
    let name := orWildcard name
    match fixedForms.lookup name, fields, args with
    | some form, _, _ => form
    | none, [], [] => name
    | none, [], args => name ++ "(" ++ ", ".intercalate (renderAll args) ++ ")"
    | none, fields, _ => name ++ " \x7b " ++ ", ".intercalate (renderFields fields) ++ " \x7d"
  | .tuple items => "(" ++ ", ".intercalate (renderAll items) ++ ")"
  | .list items => "[" ++ ", ".intercalate (renderAll items) ++ "]"

/-- The texts of patterns in order. -/
def renderAll : List ClausePattern → List String
  | [] => []
  | pattern :: rest => pattern.render :: renderAll rest

/-- The texts of fields in order. -/
def renderFields : List FieldPattern → List String
  | [] => []
  | .mk label pattern :: rest => (label ++ ": " ++ pattern.render) :: renderFields rest

end

mutual

/-- Whether two patterns are the same. -/
def same : ClausePattern → ClausePattern → Bool
  | .wildcard, .wildcard => true
  | .literal s, .literal t => s == t
  | .variable s, .variable t => s == t
  | .constructor s args fields, .constructor t args' fields' =>
    s == t && sameAll args args' && sameFields fields fields'
  | .tuple items, .tuple items' => sameAll items items'
  | .list items, .list items' => sameAll items items'
  | _, _ => false

/-- Whether two lists of patterns are the same. -/
def sameAll : List ClausePattern → List ClausePattern → Bool
  | [], [] => true
  | p :: ps, q :: qs => same p q && sameAll ps qs
  | _, _ => false

/-- Whether two lists of fields are the same. -/
def sameFields : List FieldPattern → List FieldPattern → Bool
  | [], [] => true
  | .mk label p :: ps, .mk label' q :: qs => label == label' && same p q && sameFields ps qs
  | _, _ => false

end

instance : BEq ClausePattern := ⟨same⟩

/-- Fields from labelled patterns: a repeated label keeps its first place and takes the last
pattern. -/
def insertField (label : String) (pattern : ClausePattern) : List FieldPattern → List FieldPattern
  | [] => [.mk label pattern]
  | .mk l p :: rest =>
    if l == label then .mk label pattern :: rest else .mk l p :: insertField label pattern rest

/-- The fields that assign the entries of a list one after the other. -/
def fieldsOf (entries : List (String × ClausePattern)) : List FieldPattern :=
  entries.foldl (fun fields (label, pattern) => insertField label pattern fields) []

end ClausePattern

end AikenForge
