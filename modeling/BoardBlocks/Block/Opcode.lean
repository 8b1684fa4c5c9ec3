/-
# Opcodes

The kinds of blocks.  A block's shape says how it connects to its neighbours:

| opcode | name | shape |
| --- | --- | --- |
| `connect` | `mqttConnect` | command |
| `connectCloud` | `mqttConnectCloud` | command |
| `joinNetwork` | `connectAP` | command |
| `publish` | `mqttPub` | command |
| `subscribe` | `mqttSub` | command |
| `onTopic` | `mqttGot` | hat |
| `topicData` | `mqttData` | reporter |
| `serialWork` | `iotwork` | command |
| `code` | `code` | command |
| `expr` | `expr` | reporter |

The first eight are the blocks of the palette, in palette order.  `code` and `expr` carry source
text of their own, with placeholders for their arguments.
-/

namespace BoardBlocks

/-- How a block connects to its neighbours: as a statement in a chain, at the head of a chain that
runs when an event fires, or as a value in another block's argument. -/
inductive Shape where
  | command
  | hat
  | reporter
deriving DecidableEq, Repr

/-- The name of a shape. -/
def Shape.name : Shape → String
  | .command => "command"
  | .hat => "hat"
  | .reporter => "reporter"

/-- The kind of a block. -/
inductive Opcode where
  | connect
  | connectCloud
  | joinNetwork
  | publish
  | subscribe
  | onTopic
  | topicData
  | serialWork
  | code
  | expr
deriving DecidableEq, Repr

namespace Opcode

/-- The blocks of the palette, in order. -/
def palette : List Opcode :=
  [connect, connectCloud, joinNetwork, publish, subscribe, onTopic, topicData, serialWork]

/-- All opcodes. -/
def all : List Opcode :=
  palette ++ [code, expr]

/-- The list of opcodes is complete. -/
theorem mem_all (op : Opcode) : op ∈ all := by
  cases op <;> decide

/-- The name of an opcode in documents and messages. -/
def name : Opcode → String
  | connect => "mqttConnect"
  | connectCloud => "mqttConnectCloud"
  | joinNetwork => "connectAP"
  | publish => "mqttPub"
  | subscribe => "mqttSub"
  | onTopic => "mqttGot"
  | topicData => "mqttData"
  | serialWork => "iotwork"
  | code => "code"
  | expr => "expr"

/-- The opcode of a name. -/
def ofName? (s : String) : Option Opcode :=
  all.find? fun op => op.name = s

/-- An opcode reads back from its name. -/
theorem ofName?_name (op : Opcode) : ofName? op.name = some op := by
  cases op <;> decide

/-- How blocks of this kind connect. -/
def shape : Opcode → Shape
  | onTopic => .hat
  | topicData | expr => .reporter
  | _ => .command

end Opcode
end BoardBlocks
