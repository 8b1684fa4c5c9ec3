/-
# Generating a program

The code of the scripts goes in order into one sketch; the statements of each go to the body of its
stage.
-/

import BoardBlocks.Generation.Arduino
import BoardBlocks.Generation.MicroPython
import BoardBlocks.Generation.Rules
import BoardBlocks.Sketch.Layout

namespace BoardBlocks

/-- The dialect of a target. -/
def Target.dialect (settings : CodeSettings) : Target → Generation.Dialect
  | .arduino => .arduino settings
  | .microPython => .microPython settings

namespace Generation

/-- The state in which a run for a target starts. -/
def Context.start (target : Target) : Context :=
  { sketch := { target } }

/-- Generates the statements of a script and appends them to its stage. -/
def runScript (d : Dialect) (s : Script) : Gen Unit := do
  let statements ← chain d s.blocks
  statements.forM (pushStatement s.stage)

/-- Generates the statements of all scripts of a program. -/
def runProgram (d : Dialect) (p : Program) : Gen Unit :=
  p.scripts.forM (runScript d)

/-- What a run makes of a program. -/
structure Generated where
  source : String
  callbacks : List Binding
  diagnostics : List Diagnostic
deriving DecidableEq, Repr

/-- The source of a program for a target. -/
def generate (target : Target) (settings : CodeSettings) (p : Program) :
    Except GenerationError Generated :=
  match runGen (runProgram (target.dialect settings) p) (Context.start target) with
  | (.ok _, c) => .ok {
      source := c.sketch.render, callbacks := c.callbacks.bindings, diagnostics := c.diagnostics }
  | (.error e, _) => .error e

end Generation
end BoardBlocks
