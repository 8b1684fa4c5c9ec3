/-
# The Arduino dialect

A sketch drives the companion firmware through a library object `iot`, which owns the serial line.
`mqttConect` is the spelling of the library.  The library has no statement for serving the line: its
`loop` method does that.
-/

import BoardBlocks.Generation.Dialect
import BoardBlocks.Settings.Basic
import BoardBlocks.Snippet.Routine

namespace BoardBlocks
namespace Generation
namespace Arduino

open Snippet (Call CppRoutine)

/-- The library object. -/
def object : String := "iot"

/-- The parameter of every topic routine. -/
def parameter : String := "topicData"

/-- A method call on the library object. -/
def method (name : String) (args : List String) : Call :=
  { receiver := some object, name, args }

/-- Header, object, serial start, initialisation and the call that serves the line. -/
def boilerplate (settings : CodeSettings) : List Contribution :=
  [⟨.headers, object, "#include \"KBIot.h\""⟩,
    ⟨.definitions, object, "KBIot iot(&Serial);"⟩,
    ⟨.setup, "_serial",
      Call.statement
        { receiver := some "Serial", name := "begin", args := [toString settings.serialBaud.toNat] }
        .arduino⟩,
    ⟨.setup, object, (method "init" []).statement .arduino⟩,
    ⟨.loop, object, (method "loop" []).statement .arduino⟩]

/-- Connecting, with two or four arguments. -/
def connect (server clientId : Value) (credentials : Option (Value × Value)) : String :=
  (method "mqttConect" ([server.code, clientId.code] ++
    match credentials with
    | some (user, password) => [user.code, password.code]
    | none => [])).text

/-- The data of a topic, read as the menu says. -/
def topicData : DataType → String
  | .string => parameter
  | .number => parameter ++ ".toInt()"
  | .cString => parameter ++ ".c_str()"

/-- Binding the topic, as it was written, to its routine. -/
def registration (topic name : String) : String :=
  (method "regGot" [Text.quote topic, "&" ++ name]).statement .arduino

/-- The routine of a topic. -/
def routine (name : String) (body : List String) : String :=
  CppRoutine.text { returns := "void", name, params := ["String " ++ parameter], body }

end Arduino

/-- The Arduino dialect. -/
def Dialect.arduino (settings : CodeSettings) : Dialect where
  target := .arduino
  boilerplate := Arduino.boilerplate settings
  connect := Arduino.connect
  joinNetwork network password :=
    (Arduino.method "connectAP" [network.code, password.asString]).text
  publish topic data := (Arduino.method "publish" [topic.code, data.code]).text
  subscribe topic := (Arduino.method "subscribe" [topic.code]).text
  topicData := Arduino.topicData
  registration := Arduino.registration
  routine := Arduino.routine
  serialWork := none

end Generation
end BoardBlocks
