/-
# Lowering patterns

The clause pattern that a source pattern becomes. A sequence written in round brackets is a tuple as
far as the source text is known, and a list otherwise. Alternatives are one literal text.
-/

import AikenForge.Lowering.Expression

namespace AikenForge.Lowering

open AikenForge.Source

variable (ctx : Context)

/-- The pattern of a constant that is matched by identity. -/
def singletonPattern : Constant → ClausePattern
  | .bool true => .literal (some "True")
  | .bool false => .literal (some "False")
  | _ => .constructor (some "None") [] []

mutual

/-- The clause pattern of a source pattern. -/
def lowerPattern : Pattern → Lowering ClausePattern
  | .value expression => do
    return .literal (some (← lower ctx expression))
  | .singleton value => pure (singletonPattern value)
  | .capture none => pure .wildcard
  | .capture (some name) => pure (.variable (some name))
  | .binding pattern name => do
    warn .patterns ("Dropping `as " ++ name ++ "` binding in pattern")
    lowerPattern pattern
  | .class callee args labels fields => do
    let name ← lower ctx callee
    let args ← lowerPatterns args
    let fields ← lowerPatterns fields
    return .constructor (some name) args (ClausePattern.fieldsOf (labels.zip fields))
  | .sequence opensRound items => do
    let items ← lowerPatterns items
    return if ctx.knowsSource && opensRound then .tuple items else .list items
  | .star name => pure (.variable (some (".." ++ name.getD "")))
  | .alternatives items => do
    let items ← lowerPatterns items
    return .literal (some (" | ".intercalate (items.map ClausePattern.render)))
  | .mapping .. => do
    warn .patterns "Unsupported pattern MatchMapping, matching anything"
    return .wildcard

/-- The clause patterns of source patterns in order. -/
def lowerPatterns : List Pattern → Lowering (List ClausePattern)
  | [] => pure []
  | pattern :: rest => do
    let pattern ← lowerPattern pattern
    return pattern :: (← lowerPatterns rest)

end

end AikenForge.Lowering
