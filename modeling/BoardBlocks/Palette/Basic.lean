/-
# The palette

What the block editor is told about the blocks: their text with argument slots, the arguments with
the values they start with, the function they call at run time and the targets that have them.
-/

import BoardBlocks.Block.Basic
import BoardBlocks.Settings.Basic
import BoardBlocks.Target

namespace BoardBlocks
namespace Palette

/-- An argument of a block: the text it starts with, and the menu it is chosen from, if any. -/
structure Argument where
  default : String
  menu : Option String := none
deriving DecidableEq, Repr

/-- A block as the editor shows it. -/
structure Entry where
  opcode : Opcode
  text : String
  /-- The arguments in the order of their names. -/
  arguments : List (String × Argument) := []
  function : String
  targets : List Target := [.arduino, .microPython]
deriving DecidableEq, Repr

/-- The palette. -/
structure Descriptor where
  id : String := "IoT"
  name : String := "IoT"
  colors : List String := ["#1395BA", "#107895", "#107895"]
  entries : List Entry
  /-- The menus in the order of their names. -/
  menus : List (String × List String)
deriving DecidableEq, Repr

/-- The name of the menu of data types. -/
def dataTypeMenu : String := "datatype"

/-- The entry of a block. -/
def entry (settings : PaletteSettings) (opcode : Opcode) : Entry :=
  match opcode with
  | .connect => {
      opcode
      text := "Connect MQTT [SERVER] ID[CLIENTID]"
      arguments := [("CLIENTID", ⟨settings.defaultClientId, none⟩),
        ("SERVER", ⟨settings.defaultServer, none⟩)]
      function := "mqttConnect" }
  | .connectCloud => {
      opcode
      text := "Connect Cloud[SERVER] Access ID[USER] Pass[PASS] Device ID[CLIENTID]"
      arguments := [("CLIENTID", ⟨settings.defaultClientId, none⟩), ("PASS", ⟨"", none⟩),
        ("SERVER", ⟨settings.cloudServer, none⟩), ("USER", ⟨"", none⟩)]
      function := "mqttConnectCloud" }
  | .joinNetwork => {
      opcode
      text := "connect AP [AP] pass[PASS]"
      arguments := [("AP", ⟨"Home", none⟩), ("PASS", ⟨"12345", none⟩)]
      function := "noop" }
  | .publish => {
      opcode
      text := "MQTT Publish [TOPIC] [DATA]"
      arguments := [("DATA", ⟨"helloworld", none⟩), ("TOPIC", ⟨"/hello", none⟩)]
      function := "mqttPub" }
  | .subscribe => {
      opcode
      text := "MQTT Subscribe [TOPIC]"
      arguments := [("TOPIC", ⟨"/hello", none⟩)]
      function := "mqttSub" }
  | .onTopic => {
      opcode
      text := "MQTT Topic [TOPIC]"
      arguments := [("TOPIC", ⟨"/hello", none⟩)]
      function := "mqttGot" }
  | .topicData => {
      opcode
      text := "Topic Data [DATATYPE]"
      arguments := [("DATATYPE", ⟨DataType.string.name, some dataTypeMenu⟩)]
      function := "mqttData" }
  | .serialWork => {
      opcode
      text := "Iot work@micropy"
      function := "noop"
      targets := [.microPython] }
  | .code | .expr => { opcode, text := "", function := "noop" }

/-- The palette with the defaults of the settings. -/
def descriptor (settings : PaletteSettings) : Descriptor where
  entries := Opcode.palette.map (entry settings)
  menus := [(dataTypeMenu, DataType.menu.map DataType.name)]

/-- The entry of an opcode; blocks that are not in the palette have none. -/
def Descriptor.entry? (d : Descriptor) (opcode : Opcode) : Option Entry :=
  d.entries.find? fun e => e.opcode = opcode

end Palette
end BoardBlocks
