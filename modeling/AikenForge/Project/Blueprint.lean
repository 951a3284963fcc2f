/-
# Blueprints

The blueprint of a project lists its validators. Compiling a contract replaces the first entry whose
title contains the contract's name, or adds one at the end. A blueprint of another shape is refused.
-/

import AikenForge.FileTree
import AikenForge.Json.Reader
import AikenForge.Project.Settings

namespace AikenForge

open AikenForge.Text

/-- A part of an entry that is any data, under a title. -/
def dataField (title : String) : JsonValue :=
  .ofFields [("title", .string title),
    ("schema", .ofFields [("$ref", .string "#/definitions/Data")])]

/-- The entry of a validator. -/
def validatorEntry (title compiledPath datumTitle redeemerTitle : String) : JsonValue :=
  .ofFields [("title", .string title), ("datum", dataField datumTitle),
    ("redeemer", dataField redeemerTitle), ("compiledCode", .string compiledPath),
    ("parameters", .list [])]

/-- The entry of a contract that was compiled. -/
def contractEntry (contract compiledPath : String) : JsonValue :=
  validatorEntry (contract ++ ".spend") compiledPath "datum" "redeemer"

/-- What a project says about itself. -/
def projectDescription (name : String) : String :=
  "Aiken contracts for project '" ++ name ++ "'"

namespace Blueprint

/-- The blueprint of a new project, with a validator in place of those to come. -/
def fresh (name : String) (settings : ProjectSettings) : JsonValue :=
  .ofFields
    [("preamble", .ofFields
       [("title", .string name), ("description", .string (projectDescription name)),
        ("version", .string "0.0.0"), ("plutusVersion", .string settings.plutus),
        ("compiler", .ofFields
          [("name", .string "Aiken"), ("version", .string settings.compiler)]),
        ("license", .string settings.license)]),
     ("validators", .list
       [validatorEntry "placeholder.placeholder.mint" "validators/placeholder.ak" "_datum"
         "_redeemer"]),
     ("definitions", .ofFields
       [("Data", .ofFields
         [("title", .string "Data"), ("description", .string "Any Plutus data.")])])]

/-- Why a blueprint cannot be updated: the shape of its top, of its list of validators, of an entry,
or of a title does not allow it. -/
inductive ShapeFault
  | noMembers (kind : String)
  | noEntries (kind : String)
  | noTitle (kind : String)
  | noSearch (kind : String)
  | noAddition (kind : String)
  deriving DecidableEq

/-- What is said about a shape. -/
def ShapeFault.message : ShapeFault → String
  | .noMembers kind => "'" ++ kind ++ "' object has no attribute 'setdefault'"
  | .noEntries kind => "'" ++ kind ++ "' object is not iterable"
  | .noTitle kind => "'" ++ kind ++ "' object has no attribute 'get'"
  | .noSearch kind => "argument of type '" ++ kind ++ "' is not iterable"
  | .noAddition kind => "'" ++ kind ++ "' object has no attribute 'append'"

/-- Whether a list occurs in another as a run of neighbours. -/
def occursIn (part : CodePoints) : CodePoints → Bool
  | [] => part.isEmpty
  | n :: rest => part.isPrefixOf (n :: rest) || occursIn part rest

/-- Whether a value is a given text. -/
def isText (points : CodePoints) : JsonValue → Bool
  | .text value => value == points
  | _ => false

/-- Whether a title contains a name. An absent title contains what an empty text does. -/
def titleContains (name : CodePoints) (title : JsonValue) : Except ShapeFault Bool :=
  if title.isEmpty then .ok name.isEmpty
  else
    match title with
    | .text value => .ok (occursIn name value)
    | .list items => .ok (items.any (isText name))
    | .object members => .ok (members.any fun m => m.key == name)
    | other => .error (.noSearch other.kind)

/-- Replace the first entry whose title contains a name, or add the new one at the end. -/
def replaceEntry (name : CodePoints) (entry : JsonValue) :
    List JsonValue → Except ShapeFault (List JsonValue)
  | [] => .ok [entry]
  | .object members :: rest => do
    if ← titleContains name ((JsonMember.find? (codePoints "title") members).getD .null) then
      return entry :: rest
    else return .object members :: (← replaceEntry name entry rest)
  | other :: _ => .error (.noTitle other.kind)

/-- The validators with an entry put in. -/
def updateValidators (name : CodePoints) (entry : JsonValue) :
    JsonValue → Except ShapeFault JsonValue
  | .list items => do
    return .list (← replaceEntry name entry items)
  | .object [] => .error (.noAddition "dict")
  | .text [] => .error (.noAddition "str")
  | .object _ | .text _ => .error (.noTitle "str")
  | other => .error (.noEntries other.kind)

/-- The blueprint with the entry of a compiled contract. -/
def update (contract compiledPath : String) : JsonValue → Except ShapeFault JsonValue
  | .object members => do
    let key := codePoints "validators"
    let before := (JsonMember.find? key members).getD (.list [])
    let after ← updateValidators (codePoints contract) (contractEntry contract compiledPath) before
    return .object (JsonMember.insert key after members)
  | other => .error (.noMembers other.kind)

/-- The validators of a blueprint. -/
def validators : JsonValue → List JsonValue
  | .object members =>
    match JsonMember.find? (codePoints "validators") members with
    | some (.list items) => items
    | _ => []
  | _ => []

/-- The title of an entry. -/
def title : JsonValue → JsonValue
  | .object members => (JsonMember.find? (codePoints "title") members).getD .null
  | _ => .null

/-- Why a blueprint file cannot be updated. -/
inductive UpdateError
  | file (e : FileError)
  | bytes (e : Utf8Error)
  | syntaxFault (text : List Char) (e : JsonReader.Error)
  | shape (f : ShapeFault)

/-- What is said about a failed update. -/
def UpdateError.message (e : UpdateError) : String :=
  "Could not update plutus.json: " ++ match e with
    | .file e => e.message
    | .bytes e => e.message
    | .syntaxFault text e => e.message text
    | .shape f => f.message

/-- The blueprint that a file holds, with the entry of a compiled contract. -/
def updateBytes (contract compiledPath : String) (bytes : List UInt8) :
    Except UpdateError JsonValue := do
  let text ← (readText bytes).mapError .bytes
  let blueprint ← (JsonReader.read text.toList).mapError (.syntaxFault text.toList)
  (update contract compiledPath blueprint).mapError .shape

/-- Update the blueprint file at a path, which messages call `shown`. -/
def updateFile (tree : FileTree) (path shown contract compiledPath : String) :
    Except UpdateError (JsonValue × FileTree) := do
  let bytes ← (tree.read path).mapError fun fault => .file ⟨fault, shown⟩
  let blueprint ← updateBytes contract compiledPath bytes
  let tree ← (tree.write path blueprint.render).mapError .file
  return (blueprint, tree)

end Blueprint

end AikenForge
