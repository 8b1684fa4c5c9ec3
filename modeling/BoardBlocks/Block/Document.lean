/-
# Program documents

The JSON form of a block program:

| record | fields in order | may be left out |
| --- | --- | --- |
| program | `scripts` | |
| script | `stage`, `blocks` | `stage`: `setup` |
| block | `opcode`, `args`, `text` | `args`: none, `text`: none |

Opcodes and stages are words.  `args` is an object; of a repeated name the last value counts, but
all have to be arguments.  A `text` may be `null`.  An argument is a numeral, a string or a block;
everything inside it, passed over or not, has to be sound.

A document nests at most 127 arrays and objects.  Six of them stand around an argument: program,
scripts, script, blocks, block and arguments.
-/

import BoardBlocks.Block.Basic
import BoardBlocks.Json.Printer
import BoardBlocks.Json.Reader
import BoardBlocks.Json.Record

namespace BoardBlocks

/-- How deep a document may nest. -/
def nestingLimit : Nat := 127

/-- How deep an argument may nest inside a program document. -/
def argumentRoom : Nat := nestingLimit - 6

/-- Reads an opcode. -/
def Opcode.ofJson? (j : Json) : Option Opcode :=
  j.word?.bind Opcode.ofName?

/-- Reads a stage. -/
def Stage.ofJson? (j : Json) : Option Stage :=
  j.word?.bind Stage.ofName?

/-- Reads a text that may be `null`. -/
def nullableText? : Json → Option (Option String)
  | .null => some none
  | j => some <$> j.text?

/-- Reads the arguments of a block, each with `arg`. -/
def argsOfJson? (arg : Json → Option Arg) (j : Json) : Option (List (String × Arg)) := do
  let members ← (← j.members?).mapM fun m => do return (m.1, ← arg m.2)
  return Keyed.ofList members

/-- Reads a block, its arguments with `arg`. -/
def Block.ofJsonWith? (arg : Json → Option Arg) (j : Json) : Option Block := do
  let stated ← j.record? ["opcode", "args", "text"]
  let opcode ← (← Json.field? "opcode" stated) |> Opcode.ofJson?
  let args ← Json.fieldOr "args" (argsOfJson? arg) [] stated
  let text ← Json.fieldOr "text" nullableText? none stated
  return { opcode, args, text }

/-- Reads an argument in which at most `room` blocks nest. -/
def Arg.ofJson? : (room : Nat) → Json → Option Arg
  | _, .number written => .number <$> Json.float? (.number written)
  | _, .string written => .text <$> Json.decode? written
  | 0, _ => none
  | room + 1, j => .block <$> Block.ofJsonWith? (Arg.ofJson? room) j

/-- Reads a sound argument that nests at most `room` deep. -/
def Arg.ofSoundJson? (room : Nat) (j : Json) : Option Arg :=
  if j.sound && j.depth ≤ room then Arg.ofJson? room j else none

/-- Reads a block whose arguments nest at most `room` deep. -/
def Block.ofJson? (room : Nat) (j : Json) : Option Block :=
  Block.ofJsonWith? (Arg.ofSoundJson? room) j

/-- Reads a script. -/
def Script.ofJson? (j : Json) : Option Script := do
  let stated ← j.record? ["stage", "blocks"]
  let stage ← Json.fieldOr "stage" Stage.ofJson? .setup stated
  let blocks ← (← (← Json.field? "blocks" stated).items?).mapM (Block.ofJson? argumentRoom)
  return { stage, blocks }

/-- Reads a program. -/
def Program.ofJson? (j : Json) : Option Program := do
  let stated ← j.record? ["scripts"]
  let scripts ← (← (← Json.field? "scripts" stated).items?).mapM Script.ofJson?
  return { scripts }

/-- Reads a program document. -/
def Program.ofString? (s : String) : Option Program :=
  (Json.read? s).bind Program.ofJson?

mutual
/-- The document of an argument. -/
def Arg.toJson : Arg → Json
  | .number value => Json.ofFloat value
  | .text content => Json.ofString content
  | .block inner => inner.toJson
termination_by structural a => a
/-- The document of a block. -/
def Block.toJson : Block → Json
  | ⟨opcode, args, text⟩ =>
    Json.ofFields ([("opcode", Json.ofString opcode.name),
        ("args", Json.ofFields (argsToJson args))] ++
      match text with
      | some content => [("text", Json.ofString content)]
      | none => [])
termination_by structural b => b
/-- The documents of the arguments of a block. -/
def argsToJson : List (String × Arg) → List (String × Json)
  | [] => []
  | (name, arg) :: args => (name, arg.toJson) :: argsToJson args
termination_by structural args => args
end

/-- The document of a script. -/
def Script.toJson (s : Script) : Json :=
  Json.ofFields [("stage", Json.ofString s.stage.name),
    ("blocks", .array (s.blocks.map Block.toJson))]

/-- The document of a program. -/
def Program.toJson (p : Program) : Json :=
  Json.ofFields [("scripts", .array (p.scripts.map Script.toJson))]

end BoardBlocks
