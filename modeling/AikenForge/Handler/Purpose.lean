/-
# Purposes and their calling conventions

A handler is called with the parameters that its purpose prescribes. Bringing a parameter list to
that convention types a datum as an option and an untyped redeemer as data, and adds the trailing
parameters that are missing at the end.
-/

import AikenForge.Lowering.Hint
import AikenForge.Record.Basic

namespace AikenForge

/-- What a handler is called for. -/
inductive Purpose
  | spend | mint | withdraw | publish | vote | propose | other
  deriving DecidableEq

namespace Purpose

/-- The name of a purpose. -/
def label : Purpose → String
  | .spend => "spend"
  | .mint => "mint"
  | .withdraw => "withdraw"
  | .publish => "publish"
  | .vote => "vote"
  | .propose => "propose"
  | .other => "other"

/-- The purpose of a name; an unknown name is another purpose. -/
def ofLabel (name : String) : Purpose :=
  ([.spend, .mint, .withdraw, .publish, .vote, .propose].find? fun p => label p == name).getD .other

end Purpose

/-- A declared parameter. -/
structure ParameterDeclaration where
  name : String
  type : Option String := none
  deriving DecidableEq

namespace ParameterDeclaration

/-- The text of a parameter. An empty type is no type. -/
def render (p : ParameterDeclaration) : String :=
  match p.type.bind nonEmpty? with
  | some type => p.name ++ ": " ++ type
  | none => p.name

/-- The texts of parameters, separated by commas. -/
def renderAll (parameters : List ParameterDeclaration) : String :=
  ", ".intercalate (parameters.map render)

/-- Whether a parameter has no type or is void. -/
def isUntyped (p : ParameterDeclaration) : Bool :=
  p.type.isNone || p.type == some "Void"

/-- Type an untyped redeemer as data. -/
def typeRedeemer (p : ParameterDeclaration) : ParameterDeclaration :=
  if p.name == "redeemer" && p.isUntyped then { p with type := some "Data" } else p

/-- Type a datum as an option. -/
def wrapDatum (p : ParameterDeclaration) : ParameterDeclaration :=
  if p.name == "datum" then
    { p with type := some (Hint.wrapInOption ((p.type.bind nonEmpty?).getD "Void")) }
  else p

end ParameterDeclaration

namespace Purpose

open ParameterDeclaration

/-- How many parameters lead a handler's list, and the parameters that trail it, for the purposes
that prescribe them. -/
def trailing? : Purpose → Option (Nat × List ParameterDeclaration)
  | .spend =>
    some (2, [⟨"output_reference", some "OutputReference"⟩, ⟨"transaction", some "Transaction"⟩])
  | .mint => some (1, [⟨"policy_id", some "PolicyId"⟩, ⟨"transaction", some "Transaction"⟩])
  | .withdraw => some (1, [⟨"credential", some "Credential"⟩, ⟨"transaction", some "Transaction"⟩])
  | _ => none

/-- Type the leading parameters. -/
def typeLeading : Purpose → List ParameterDeclaration → List ParameterDeclaration
  | .mint, first :: rest | .withdraw, first :: rest => typeRedeemer first :: rest
  | .mint, [] | .withdraw, [] => []
  | _, first :: second :: rest => wrapDatum first :: typeRedeemer second :: rest
  | _, [first] => [wrapDatum first]
  | _, [] => []

/-- Add trailing parameters: each is added if the list is not longer than its position. -/
def addTrailing (position : Nat) (parameters : List ParameterDeclaration) :
    List ParameterDeclaration → List ParameterDeclaration
  | [] => parameters
  | p :: rest =>
    if parameters.length ≤ position then addTrailing (position + 1) (parameters ++ [p]) rest
    else addTrailing (position + 1) parameters rest

/-- The parameters of a handler by the convention of its purpose. Publishing takes none. -/
def canonicalParameters (purpose : Purpose) (parameters : List ParameterDeclaration) :
    List ParameterDeclaration :=
  if purpose = .publish then []
  else
    let typed := purpose.typeLeading parameters
    match purpose.trailing? with
    | some (leading, trailing) => addTrailing leading typed trailing
    | none => typed

end Purpose

end AikenForge
