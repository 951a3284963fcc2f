/-
# From source to target

A pipeline reads a module, brings its handlers to canonical form and writes it. It owns its registry
of builtins, which a whole run starts with empty; what a failed run has used stays used.
-/

import AikenForge.Declaration.Collect
import AikenForge.Handler.Canonical

namespace AikenForge

/-- The state of a pipeline. -/
structure Pipeline where
  options : Options := {}
  registry : Registry := {}
  journal : Journal := []

namespace Pipeline

/-- The name of source that has none. -/
def unnamedFile : String :=
  "<source>"

/-- Run a lowering with the pipeline's registry and journal. -/
def run (action : Options → Lowering α) (p : Pipeline) : Except Failure α × Pipeline :=
  let start : LoweringState := { registry := some p.registry, journal := p.journal }
  let (result, after) := (action p.options).run.run start
  (result, { p with registry := after.registry.getD p.registry, journal := after.journal })

/-- Read a module. Without a name it is called after its file. -/
def read (source : String) (name : Option String) (file : String) :
    Pipeline → Except Failure DeclaredModule × Pipeline :=
  run fun options =>
    DeclaredModule.ofSource options ((name.bind nonEmpty?).getD (Path.stem file)) file source

/-- Bring the handlers of a module to canonical form. -/
def transform (m : DeclaredModule) : Pipeline → Except Failure DeclaredModule × Pipeline :=
  run fun options => m.canonicalize options

/-- Write a module. -/
def write (m : DeclaredModule) (p : Pipeline) : Except Failure String :=
  m.render p.options (some p.registry)

/-- Forget what builtins have been used. -/
def reset (p : Pipeline) : Pipeline :=
  { p with registry := p.registry.reset }

/-- What is reported about a finished module. -/
def summary (m : DeclaredModule) : String :=
  "Transpiled " ++ m.name ++ ": " ++ toString m.types.length ++ " types, " ++
    toString m.constants.length ++ " constants, " ++ toString m.functions.length ++
    " functions, " ++ toString m.tests.length ++ " tests"

/-- Take a result on to the next step, unless it is a failure. -/
def andThen (first : Except Failure α × Pipeline)
    (next : α → Pipeline → Except Failure β × Pipeline) : Except Failure β × Pipeline :=
  match first with
  | (.ok value, p) => next value p
  | (.error failure, p) => (.error failure, p)

/-- The target text of source text. -/
def transpile (source : String) (name : Option String) (file : String) (p : Pipeline) :
    Except Failure String × Pipeline :=
  andThen (p.reset.read source name file) fun parsed p =>
    andThen (p.transform parsed) fun m p =>
      let p := { p with journal := p.journal.add .debug .pipeline (summary m) }
      (p.write m, p)

end Pipeline

end AikenForge
