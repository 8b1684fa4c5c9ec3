/-
# Blocks, scripts and programs

A program is a list of scripts, and a script a chain of blocks that runs once at the start
(`setup`), over and over (`loop`), or, below a hat, whenever the hat's trigger fires.  A block has
named arguments, each of them a number, a text or another block.

The arguments of a block stand in the order of their names, one for each name.
-/

import BoardBlocks.Block.Opcode
import BoardBlocks.Decimal.Style
import BoardBlocks.Keyed

namespace BoardBlocks

mutual
/-- The value in an argument slot. -/
inductive Arg where
  | number (value : Float)
  | text (content : String)
  | block (inner : Block)
/-- A block with its arguments, and the source text that passthrough blocks carry. -/
structure Block where
  opcode : Opcode
  args : List (String × Arg) := []
  text : Option String := none
end

instance : Inhabited Arg := ⟨.text ""⟩
instance : Inhabited Block := ⟨{ opcode := .code }⟩

namespace Block

/-- The argument of a name. -/
def arg? (b : Block) (name : String) : Option Arg :=
  Keyed.get? name b.args

/-- The block with one argument set. -/
def withArg (b : Block) (name : String) (arg : Arg) : Block :=
  { b with args := Keyed.insert name arg b.args }

/-- A menu choice: the content of a text argument. -/
def field? (b : Block) (name : String) : Option String :=
  match b.arg? name with
  | some (.text content) => some content
  | _ => none

/-- What a literal argument says, a number in the digits it has in source text.  A nested block has
no value outside a run. -/
def literal? (b : Block) (name : String) : Option String :=
  match b.arg? name with
  | some (.text content) => some content
  | some (.number n) => some (Decimal.plain n)
  | _ => none

@[simp] theorem arg?_withArg_self (b : Block) (name : String) (arg : Arg) :
    (b.withArg name arg).arg? name = some arg := by
  simp [arg?, withArg]

/-- Setting an argument leaves the others alone. -/
theorem arg?_withArg_of_ne (b : Block) {name other : String} (h : other ≠ name) (arg : Arg) :
    (b.withArg name arg).arg? other = b.arg? other :=
  Keyed.get?_insert_of_ne h arg b.args

end Block

/-- When a script without a hat runs. -/
inductive Stage where
  | setup
  | loop
deriving DecidableEq, Repr

/-- The name of a stage. -/
def Stage.name : Stage → String
  | .setup => "setup"
  | .loop => "loop"

/-- The stage of a name. -/
def Stage.ofName? (s : String) : Option Stage :=
  if s = "setup" then some .setup else if s = "loop" then some .loop else none

/-- A chain of blocks and when it runs. -/
structure Script where
  stage : Stage := .setup
  blocks : List Block

/-- A block program. -/
structure Program where
  scripts : List Script

/-- What a topic's data is read as. -/
inductive DataType where
  | string
  | number
  | cString
deriving DecidableEq, Repr

namespace DataType

/-- The choices of the menu, in order. -/
def menu : List DataType := [.string, .number, .cString]

/-- The text of a choice. -/
def name : DataType → String
  | .string => "String"
  | .number => "Number"
  | .cString => "C_Str"

/-- The choice of a text; every unknown text is read as `string`. -/
def ofName (s : String) : DataType :=
  if s = "Number" then .number else if s = "C_Str" then .cString else .string

/-- A type reads back from its name. -/
theorem ofName_name (d : DataType) : ofName d.name = d := by
  cases d <;> decide

end DataType
end BoardBlocks
