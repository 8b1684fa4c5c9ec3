/-
# The state of a generation

A generation writes into a sketch, registers callbacks and records diagnostics.  What it did before
an error stays done.
-/

import BoardBlocks.Generation.Error
import BoardBlocks.Sketch.Basic

namespace BoardBlocks
namespace Generation

/-- A problem of one block that does not end the run. -/
structure Diagnostic where
  opcode : Opcode
  error : GenerationError
deriving DecidableEq, Repr

/-- The sketch, the callbacks and the diagnostics of one run. -/
structure Context where
  sketch : Sketch
  callbacks : Callbacks := {}
  diagnostics : List Diagnostic := []
deriving DecidableEq, Repr

/-- A step of a generation. -/
abbrev Gen := ExceptT GenerationError (StateM Context)

/-- Runs a step: its result or error, and the state after it. -/
def runGen {α : Type} (x : Gen α) (c : Context) : Except GenerationError α × Context :=
  (ExceptT.run x).run c

/-- One keyed fragment for a section. -/
structure Contribution where
  part : Section
  key : String
  fragment : String
deriving DecidableEq, Repr

/-- Stores a fragment in the sketch. -/
def contribute (x : Contribution) : Gen Unit :=
  modify fun c => { c with sketch := c.sketch.contribute x.part x.key x.fragment }

/-- Stores fragments in order. -/
def contributeAll (xs : List Contribution) : Gen Unit :=
  xs.forM contribute

/-- Appends code to the body of a stage. -/
def pushStatement (stage : Stage) (code : String) : Gen Unit :=
  modify fun c => { c with sketch := c.sketch.push stage code }

/-- Records a problem with a block. -/
def report (opcode : Opcode) (error : GenerationError) : Gen Unit :=
  modify fun c => { c with diagnostics := c.diagnostics ++ [⟨opcode, error⟩] }

/-- Lets fatal errors through; any other error is recorded, and the code is empty. -/
def absorb (opcode : Opcode) (x : Gen String) : Gen String :=
  tryCatch x fun e => do
    if e.isFatal then throw e
    report opcode e
    return ""

/-- Registers the callback of a topic: the name of its routine. -/
def registerCallback (topic : String) : Gen String := do
  let c ← get
  match c.callbacks.register topic with
  | .ok (name, callbacks) =>
    set { c with callbacks }
    return name
  | .error collision => throw (.collision collision)

end Generation
end BoardBlocks
