/-
# Commands on the serial line

The board drives the companion firmware with lines of text: the marker `WF`, an opcode, an argument
count and fields, with single spaces between them and a line feed at the end.

| command | opcode | count | fields |
| --- | ---: | ---: | --- |
| `init` | 10 | 4 | `0 2 3 4 5` |
| `joinNetwork` | 52 | 2 | `52`, network, password |
| `connectBroker` | 15 | 2 | `15`, server, client id |
| … with credentials | 15 | 4 | `15`, server, client id, user name, password |
| `publish` | 11 | 4 | `11 0 0`, topic, data |
| `subscribe` | 12 | 2 | `0`, topic, `0` |

There is no escaping: an argument loses its double quotes and the white space at its ends, and a
space inside it splits the field.
-/

import BoardBlocks.Text.Blank

namespace BoardBlocks
namespace Wire

/-- What every line starts with. -/
def marker : String := "WF"

/-- User name and password for a broker. -/
structure Credentials where
  username : String
  password : String
deriving DecidableEq, Repr

/-- A command to the firmware. -/
inductive Command where
  | init
  | joinNetwork (network password : String)
  | connectBroker (server clientId : String) (credentials : Option Credentials)
  | publish (topic data : String)
  | subscribe (topic : String)
deriving DecidableEq, Repr

namespace Command

/-- The opcode of a command. -/
def opcode : Command → UInt8
  | .init => 10
  | .joinNetwork _ _ => 52
  | .connectBroker _ _ _ => 15
  | .publish _ _ => 11
  | .subscribe _ => 12

/-- The argument count that a command states. -/
def count : Command → Nat
  | .init | .publish _ _ => 4
  | .joinNetwork _ _ | .subscribe _ => 2
  | .connectBroker _ _ credentials => if credentials.isSome then 4 else 2

/-- The fields of a command, as they were given. -/
def fields : Command → List String
  | .init => ["0", "2", "3", "4", "5"]
  | .joinNetwork network password => ["52", network, password]
  | .connectBroker server clientId none => ["15", server, clientId]
  | .connectBroker server clientId (some c) => ["15", server, clientId, c.username, c.password]
  | .publish topic data => ["11", "0", "0", topic, data]
  | .subscribe topic => ["0", topic, "0"]

end Command

/-- An argument without double quotes and without white space at its ends, on characters. -/
def cleanChars (cs : List Char) : List Char :=
  Text.stripBlank (cs.filter (· ≠ '"'))

/-- An argument as it goes out on the line. -/
def cleanArg (arg : String) : String :=
  String.ofList (cleanChars arg.toList)

@[simp] theorem toList_cleanArg (arg : String) : (cleanArg arg).toList = cleanChars arg.toList := by
  simp [cleanArg]

/-- The tokens of a command's line. -/
def Command.tokens (c : Command) : List String :=
  marker :: toString c.opcode.toNat :: toString c.count :: c.fields.map cleanArg

/-- The line of a command. -/
def Command.encode (c : Command) : String :=
  " ".intercalate c.tokens ++ "\n"

end Wire
end BoardBlocks
