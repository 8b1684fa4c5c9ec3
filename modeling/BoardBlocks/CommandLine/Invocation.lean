/-
# Invocations

```
generate [-t|--target TARGET] [-o|--output FILE] [--strict] PROGRAM
describe
encode   init | ap SSID PASSWORD | broker SERVER CLIENT_ID [--user USER] [--pass PASSWORD]
       | publish TOPIC DATA | subscribe TOPIC
```

`-c` or `--config FILE` may be given at every level; the innermost one counts.  `-V` or `--version`
is for the tool itself.  The name of a file is not empty.
-/

import BoardBlocks.CommandLine.Words
import BoardBlocks.Target
import BoardBlocks.Wire.Command

namespace BoardBlocks
namespace CommandLine

/-- What `--version` prints. -/
def versionText : String := "iotblocks 0.2.0\n"

/-- What the tool is asked to do. -/
inductive Task where
  | generate (target : Target) (program : String) (output : Option String) (strict : Bool)
  | describe
  | encode (command : Wire.Command)
deriving DecidableEq, Repr

/-- A task with the file of its settings. -/
structure Invocation where
  task : Task
  config : Option String := none
deriving DecidableEq, Repr

/-- The switch that names a file. -/
def fileSwitch (name : String) (letter : Char) : Switch :=
  { name, letter := some letter, kind := .value (· ≠ "") }

/-- The switch that names the file of the settings. -/
def configSwitch : Switch := fileSwitch "config" 'c'

/-- The tool itself. -/
def toolLevel : Level where
  switches := [configSwitch, { name := "version", letter := some 'V', kind := .version }]
  commands := ["generate", "describe", "encode"]

/-- The command `generate`. -/
def generateLevel : Level where
  switches := [configSwitch, fileSwitch "output" 'o', { name := "strict", kind := .flag },
    { name := "target", letter := some 't', kind := .value fun v => (Target.ofName? v).isSome }]
  operands := 1

/-- A command with operands and switches that take any text. -/
def textLevel (operands : Nat) (switches : List String) : Level where
  switches := configSwitch :: switches.map fun name => { name, kind := .value fun _ => true }
  operands

/-- The command `encode`. -/
def encodeLevel : Level where
  switches := [configSwitch]
  commands := ["init", "ap", "broker", "publish", "subscribe"]

/-- Reads the words after `generate`. -/
def readGenerate (words : List String) : Except Stop Invocation := do
  let r ← generateLevel.read words
  match r.operands with
  | [program] =>
    if program = "" then throw .usage
    let target := ((r.value? "target").bind Target.ofName?).getD .arduino
    return {
      task := .generate target program (r.value? "output") (r.has "strict")
      config := r.value? "config" }
  | _ => throw .usage

/-- User name and password for `broker`; an empty user name is none. -/
def credentials? (username password : Option String) : Option Wire.Credentials :=
  match username with
  | some user => if user = "" then none else some ⟨user, password.getD ""⟩
  | none => none

/-- Reads the words after a command of `encode`. -/
def readCommand (name : String) (words : List String) : Except Stop Invocation := do
  let level := match name with
    | "init" => textLevel 0 []
    | "subscribe" => textLevel 1 []
    | "broker" => textLevel 2 ["user", "pass"]
    | _ => textLevel 2 []
  let r ← level.read words
  let command : Wire.Command ← match name, r.operands with
    | "init", [] => pure .init
    | "ap", [network, password] => pure (.joinNetwork network password)
    | "broker", [server, clientId] =>
      pure (.connectBroker server clientId (credentials? (r.value? "user") (r.value? "pass")))
    | "publish", [topic, data] => pure (.publish topic data)
    | "subscribe", [topic] => pure (.subscribe topic)
    | _, _ => throw .usage
  return { task := .encode command, config := r.value? "config" }

/-- An invocation whose settings file, if it names none itself, is the one of an outer level. -/
def Invocation.within (i : Invocation) (outer : Reading) : Invocation :=
  { i with config := i.config.orElse fun _ => outer.value? "config" }

/-- Reads a command line. -/
def Invocation.parse (words : List String) : Except Stop Invocation := do
  let tool ← toolLevel.read words
  match tool.command with
  | some ("generate", words) => return (← readGenerate words).within tool
  | some ("describe", words) =>
    let r ← (textLevel 0 []).read words
    return Invocation.within { task := .describe, config := r.value? "config" } tool
  | some ("encode", words) =>
    let r ← encodeLevel.read words
    match r.command with
    | some (name, words) => return ((← readCommand name words).within r).within tool
    | none => throw .usage
  | _ => throw .usage

end CommandLine
end BoardBlocks
