/-
# Lowering

Source is lowered to target text in a state that holds the aliases in force, the records of the
forms built so far, the registry of builtins and the journal. A failure keeps the state reached, so
that what happened before it stays visible.
-/

import AikenForge.Directive.Basic
import AikenForge.Record.Basic
import AikenForge.Registry
import AikenForge.Reporting
import AikenForge.Source.Reader

namespace AikenForge

/-- Module-level names that expressions resolve against. -/
structure Scope where
  knownFunctions : List String := []
  constants : List String := []
  enums : Table (List String) := []

/-- What lowering may consult and never changes. `aliasRoots` are the parameters whose transaction a
local name may stand for; without `knowsSource` no sequence pattern is known to be a tuple. -/
structure Context where
  scope : Scope := {}
  options : Options := {}
  directives : DirectiveTable := []
  knowsSource : Bool := true
  aliasRoots : List String := []

/-- What lowering changes as it goes. -/
structure LoweringState where
  aliases : Table String := []
  records : Records := {}
  registry : Option Registry := none
  journal : Journal := []

/-- A computation that lowers source. -/
abbrev Lowering := ExceptT Failure (StateM LoweringState)

namespace Lowering

/-- Report something. -/
def note (level : Level) (channel : Channel) (message : String) : Lowering Unit :=
  modify fun state => { state with journal := state.journal.add level channel message }

/-- Report a warning. -/
def warn (channel : Channel) (message : String) : Lowering Unit :=
  note .warning channel message

/-- Run a computation with changed aliases and put the aliases back, also when it fails. -/
def withAliases (change : Table String → Table String) (action : Lowering α) : Lowering α :=
  ExceptT.mk do
    let before ← get
    set { before with aliases := change before.aliases }
    let result ← action.run
    modify fun after => { after with aliases := before.aliases }
    return result

/-- Run a computation whose changes of aliases end with it. -/
def inBlock (action : Lowering α) : Lowering α :=
  withAliases id action

/-- End the aliases of names. -/
def dropAliases (names : List String) : Lowering Unit :=
  modify fun state => { state with aliases := names.foldl Table.erase state.aliases }

/-- Make a name stand for a text. -/
def setAlias (name text : String) : Lowering Unit :=
  modify fun state => { state with aliases := state.aliases.insert name text }

/-- Change the records. -/
def modifyRecords (change : Records → Records) : Lowering Unit :=
  modify fun state => { state with records := change state.records }

/-- Record a `when`. -/
def recordWhen (e : WhenExpression) : Lowering Unit :=
  modifyRecords fun records => { records with whens := records.whens ++ [e] }

/-- Record a pipe. -/
def recordPipe (e : PipeExpression) : Lowering Unit :=
  modifyRecords fun records => { records with pipes := records.pipes ++ [e] }

/-- Record an expectation. -/
def recordExpect (e : ExpectExpression) : Lowering Unit :=
  modifyRecords fun records => { records with expects := records.expects ++ [e] }

/-- Run a computation without aliases and records, give the records it made, and put back those that
were there, also when it fails. -/
def separately (action : Lowering α) : Lowering (α × Records) :=
  ExceptT.mk do
    let before ← get
    set { before with aliases := [], records := {} }
    let result ← action.run
    let after ← get
    set { after with aliases := before.aliases, records := before.records }
    return result.map fun value => (value, after.records)

/-- Run a computation that only reports. -/
def ofReporting (action : Reporting α) : Lowering α :=
  ExceptT.mk do
    let state ← get
    let (result, journal) := (action.run).run state.journal
    set { state with journal }
    return result

end Lowering

end AikenForge
