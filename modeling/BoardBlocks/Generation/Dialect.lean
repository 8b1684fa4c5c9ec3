/-
# Dialects

What one target writes for the things that blocks ask for.  The rules by which blocks are read are
the same for every target and stand in `BoardBlocks.Generation.Rules`; a dialect fills in the text.
-/

import BoardBlocks.Block.Basic
import BoardBlocks.Generation.Context
import BoardBlocks.Generation.Value

namespace BoardBlocks
namespace Generation

/-- What a target writes. -/
structure Dialect where
  target : Target
  /-- The fragments that every block of the palette contributes. -/
  boilerplate : List Contribution
  /-- Connecting to a broker: server, client id, and user name with password if there are any. -/
  connect : (server clientId : Value) → (credentials : Option (Value × Value)) → String
  /-- Joining a network: its name and password. -/
  joinNetwork : (network password : Value) → String
  /-- Publishing data on a topic. -/
  publish : (topic data : Value) → String
  /-- Subscribing to a topic. -/
  subscribe : (topic : Value) → String
  /-- The data of the topic that a routine was called for. -/
  topicData : DataType → String
  /-- The fragment that binds a topic to its routine. -/
  registration : (topic name : String) → String
  /-- The routine for a topic, from its statements. -/
  routine : (name : String) → (body : List String) → String
  /-- Serving the serial line: what it contributes and the statement; `none` if the target has no
  such block. -/
  serialWork : Option (List Contribution × String)

end Generation
end BoardBlocks
