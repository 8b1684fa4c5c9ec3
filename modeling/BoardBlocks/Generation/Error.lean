/-
# What goes wrong in a generation

A block for which no code can be generated is recorded and leaves empty text behind, so that the
rest of the program still gets its code.  Only two topics that would share one routine end the whole
run.
-/

import BoardBlocks.Block.Opcode
import BoardBlocks.Callback
import BoardBlocks.Target

namespace BoardBlocks

/-- The place that a block does not fit into. -/
inductive Place where
  | value
  | statement
  | literalTopic
deriving DecidableEq, Repr

/-- The name of a place. -/
def Place.name : Place → String
  | .value => "value"
  | .statement => "statement"
  | .literalTopic => "literal topic"

/-- Why no code is generated for a block. -/
inductive GenerationError where
  | missingArgument (opcode : Opcode) (argument : String)
  | shapeMismatch (opcode : Opcode) (place : Place)
  | unsupported (opcode : Opcode) (target : Target)
  | collision (topics : Collision)
deriving DecidableEq, Repr

namespace GenerationError

/-- Whether an error ends the whole run. -/
def isFatal : GenerationError → Bool
  | collision _ => true
  | _ => false

/-- The text of an error. -/
def message : GenerationError → String
  | missingArgument opcode argument =>
    "block '" ++ opcode.name ++ "' is missing argument " ++ argument
  | shapeMismatch opcode place =>
    "block '" ++ opcode.name ++ "' cannot be used as a " ++ place.name
  | unsupported opcode target =>
    "block '" ++ opcode.name ++ "' has no " ++ target.name ++ " translation"
  | collision c =>
    "topics '" ++ c.first ++ "' and '" ++ c.second ++ "' both map to handler " ++ c.name

end GenerationError
end BoardBlocks
