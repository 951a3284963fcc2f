/-
# The service

Requests for target text or for a summary of a module, and their responses. A body must have the
fields that its request asks for; other fields are ignored.
-/

import AikenForge.Json.Value
import AikenForge.Pipeline

namespace AikenForge.Service

open AikenForge.Text

/-- The version that the service reports. -/
def version : String :=
  "0.1.0"

/-- A request. -/
structure Request where
  method : String
  path : String
  body : Option JsonValue := none

/-- A response: a status and, if it is good, a body. -/
structure Response where
  status : Nat
  body : Option JsonValue := none

/-- What can be asked for. -/
inductive Endpoint
  | health | transpile | parse
  deriving DecidableEq

/-- The endpoint of a path. -/
def Endpoint.ofPath? : String → Option Endpoint
  | "/" => some .health
  | "/api/transpile" => some .transpile
  | "/api/parse" => some .parse
  | _ => none

/-- The method of an endpoint. -/
def Endpoint.method : Endpoint → String
  | .health => "GET"
  | .transpile | .parse => "POST"

/-- A path without its query and the slashes at its end; nothing else is the root. -/
def plainPath (path : String) : String :=
  let cs := dropWhileEnd (· == '/') (path.toList.takeWhile fun c => c != '?' && c != '#')
  if cs.isEmpty then "/" else .ofList cs

/-- A text that is a string: half of a surrogate pair is none. -/
def string? : JsonValue → Option String
  | .text points => points.string?
  | _ => none

/-- The field of a body. -/
def field? (body : JsonValue) (name : String) : Option JsonValue :=
  match body with
  | .object members => JsonMember.find? (codePoints name) members
  | _ => none

/-- A text that must be given. -/
def requiredText? (body : JsonValue) (name : String) : Option String :=
  (field? body name).bind string?

/-- A text that may be absent or null; the outer level is missing if it is something else. -/
def optionalText? (body : JsonValue) (name : String) : Option (Option String) :=
  match field? body name with
  | none | some .null => some none
  | some value => (string? value).map some

/-- Words that stand for false. -/
def falseWords : List String :=
  ["0", "off", "f", "false", "n", "no"]

/-- Words that stand for true. -/
def trueWords : List String :=
  ["1", "on", "t", "true", "y", "yes"]

/-- The truth value that a value stands for: itself, zero or one, or a word in any case. -/
def truth? : JsonValue → Option Bool
  | .bool value => some value
  | .int 0 => some false
  | .int 1 => some true
  | .real (.number _ (.finite significand exponent)) =>
    if significand == 0 then some false
    else if (Number.Magnitude.finite significand exponent).isIntegral &&
        (Number.Magnitude.finite significand exponent).truncate? == some 1 then some true
    else none
  | .text points =>
    let word := String.ofList (points.map fun n => (Char.ofNat n).toLower)
    if falseWords.contains word then some false
    else if trueWords.contains word then some true
    else none
  | _ => none

/-- A truth value that may be absent, which makes it true. -/
def optionalTruth? (body : JsonValue) (name : String) : Option Bool :=
  match field? body name with
  | none => some true
  | some value => truth? value

/-- A text or null. -/
def textOrNull (text : Option String) : JsonValue :=
  (text.map JsonValue.string).getD .null

/-- A list of texts. -/
def texts (items : List String) : JsonValue :=
  .list (items.map JsonValue.string)

/-- The names of what a module declares. -/
def summary (m : DeclaredModule) : JsonValue :=
  .ofFields
    [("module_name", .string m.name), ("imports", texts (m.imports.map Import.module)),
     ("types", texts (m.types.map TypeDeclaration.name)),
     ("constants", texts (m.constants.map ConstantDeclaration.name)),
     ("functions",
       texts ((m.functions.filter fun f => !f.isHandler).map FunctionDeclaration.name)),
     ("validators", .list (m.handlers.map fun f => .ofFields
       [("contract", .string f.contractName),
        ("purpose", .string ((f.handledPurpose.toOption).getD "")),
        ("parameters", texts (f.parameters.map ParameterDeclaration.name))])),
     ("tests", texts (m.tests.map TestDeclaration.name))]

/-- A good response. -/
def good (fields : List (String × JsonValue)) : Response :=
  ⟨200, some (.ofFields fields)⟩

/-- A response to a body that does not fit its request. -/
def unfit : Response :=
  ⟨422, none⟩

variable (names : CharacterNames)

/-- The response to a request for target text; failures other than unreadable source are not
answered. -/
def transpile (body : JsonValue) : Except Failure Response :=
  match requiredText? body "source", optionalText? body "module_name",
      optionalTruth? body "emit_docs" with
  | some source, some name, some emitDocs =>
    let p : Pipeline := { options := { emitDocs, names } }
    let answer (success : Bool) (text error : Option String) : Response :=
      good [("success", .bool success), ("aiken", textOrNull text), ("error", textOrNull error)]
    match (p.transpile source name Pipeline.unnamedFile).1 with
    | .ok text => .ok (answer true (some text) none)
    | .error (.unreadable file line) =>
      .ok (answer false none (some (Failure.message (.unreadable file line))))
    | .error f => .error f
  | _, _, _ => .ok unfit

/-- The response to a request for a summary. -/
def parse (body : JsonValue) : Except Failure Response :=
  match requiredText? body "source", optionalText? body "module_name" with
  | some source, some name =>
    let p : Pipeline := { options := { names } }
    let parsed := p.read source name Pipeline.unnamedFile
    let answer (success : Bool) (m : JsonValue) (error : Option String) : Response :=
      good [("success", .bool success), ("module", m), ("error", textOrNull error)]
    match (Pipeline.andThen parsed fun m p => p.transform m).1 with
    | .ok m => .ok (answer true (summary m) none)
    | .error (.unreadable file line) =>
      .ok (answer false .null (some (Failure.message (.unreadable file line))))
    | .error f => .error f
  | _, _ => .ok unfit

/-- The response to a request. -/
def respond (r : Request) : Except Failure Response :=
  match Endpoint.ofPath? (plainPath r.path) with
  | none => .ok ⟨404, none⟩
  | some endpoint =>
    if r.method != endpoint.method then .ok ⟨405, none⟩
    else
      match endpoint, r.body with
      | .health, _ => .ok (good [("status", .string "ok"), ("version", .string version)])
      | .transpile, some body => transpile names body
      | .parse, some body => parse names body
      | _, none => .ok unfit

end AikenForge.Service
