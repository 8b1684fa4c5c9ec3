/-
# The MicroPython dialect

A script writes the protocol lines to the serial line itself.  Literal arguments are baked into the
line.  If any argument is an expression, the line is a format: each expression fills a `%s` at run
time, in order, and a percent sign of a literal is doubled.

Incoming notifications are read by the routine `iotSerialWork`, which looks the topic up in the
table `GOT_HANDLERS`.
-/

import BoardBlocks.Generation.Dialect
import BoardBlocks.Settings.Basic
import BoardBlocks.Snippet.Routine
import BoardBlocks.Wire.Command

namespace BoardBlocks
namespace Generation
namespace MicroPython

open Snippet (Call PyRoutine)
open Wire (Command Credentials)

/-- The serial line. -/
def uart : String := "uart"

/-- The table of topic routines. -/
def handlers : String := "GOT_HANDLERS"

/-- The parameter of every topic routine. -/
def parameter : String := "topicData"

/-- The routine that serves the line. -/
def serialRoutine : String := "iotSerialWork"

/-- Writing to the serial line. -/
def write (arg : String) : String :=
  Call.text { receiver := some uart, name := "write", args := [arg] }

/-- The wake sequence: an empty line, then the init command, with a pause after each. -/
def wake (settings : CodeSettings) : List String :=
  let pause := Call.text { name := "sleep_ms", args := [toString settings.initSettleMs.toNat] }
  ["# iot init process", write (Text.quote "\n\n"), pause,
    write (Text.quote Command.init.encode), pause]

/-- Imports, serial line, table of routines and the wake sequence. -/
def boilerplate (settings : CodeSettings) : List Contribution :=
  [⟨.headers, uart, "from machine import UART"⟩,
    ⟨.headers, "sleep", "from utime import sleep_ms"⟩,
    ⟨.definitions, uart, "uart = UART(" ++ toString settings.uartId.toNat ++ ", " ++
      toString settings.serialBaud.toNat ++ ")"⟩,
    ⟨.definitions, "iot_handlers", handlers ++ " = \x7b\x7d"⟩,
    ⟨.setup, "iot", "\n".intercalate (wake settings)⟩]

/-- A text with every percent sign doubled. -/
def doublePercent (s : String) : String :=
  String.ofList (s.toList.flatMap fun c => if c = '%' then ['%', '%'] else [c])

/-- Whether a line with these arguments has to be put together at run time. -/
def isDynamic (args : List Value) : Bool :=
  args.any (·.literal.isNone)

/-- What stands in the line for an argument. -/
def lineText (dynamic : Bool) (v : Value) : String :=
  match v.literal with
  | some content => if dynamic then doublePercent content else content
  | none => "%s"

/-- The expressions that fill the line at run time. -/
def expressions (args : List Value) : List String :=
  (args.filter (·.literal.isNone)).map (·.code)

/-- Writing a command whose arguments are `args`; `command` is given what stands for each. -/
def writeLine (args : List Value) (command : (Value → String) → Command) : String :=
  let line := Text.quote (command (lineText (isDynamic args))).encode
  write (if isDynamic args then line ++ " % (" ++ Snippet.commaList (expressions args) ++ ",)"
    else line)

/-- Connecting; the line has credentials if there are any. -/
def connect (server clientId : Value) : (credentials : Option (Value × Value)) → String
  | none => writeLine [server, clientId] fun text =>
    .connectBroker (text server) (text clientId) none
  | some (user, password) => writeLine [server, clientId, user, password] fun text =>
    .connectBroker (text server) (text clientId) (some ⟨text user, text password⟩)

/-- Binding the topic, without its quotes, to its routine. -/
def registration (topic name : String) : String :=
  handlers ++ "[" ++ Text.quote (topicKey topic) ++ "] = " ++ name

/-- The routine of a topic. -/
def routine (name : String) (body : List String) : String :=
  PyRoutine.text { name, params := [parameter], body }

/-- The statements of the routine that serves the line. -/
def serialBody : String :=
  "\n".intercalate [
    "if uart.any():",
    "    a = uart.readline()",
    "    linebuf += str(a, 'utf8')",
    "    if linebuf.endswith('\\n'):",
    "        tmp = linebuf.strip().split(' ')",
    "        linebuf = ''",
    "        if len(tmp) >= 6 and tmp[0] == 'WF' and tmp[1] == '3' and tmp[3] == '5':",
    "            handler = GOT_HANDLERS.get(tmp[4])",
    "            if handler:",
    "                handler(tmp[5].strip())"]

/-- The line buffer and the routine that serves the line. -/
def serialWork : List Contribution :=
  [⟨.definitions, "linebuf", "linebuf = ''"⟩,
    ⟨.functions, "iotserial",
      PyRoutine.text { name := serialRoutine, globals := ["linebuf"], body := [serialBody] }⟩]

end MicroPython

/-- The MicroPython dialect. -/
def Dialect.microPython (settings : CodeSettings) : Dialect where
  target := .microPython
  boilerplate := MicroPython.boilerplate settings
  connect := MicroPython.connect
  joinNetwork network password := MicroPython.writeLine [network, password] fun text =>
    .joinNetwork (text network) (text password)
  publish topic data := MicroPython.writeLine [topic, data] fun text =>
    .publish (text topic) (text data)
  subscribe topic := MicroPython.writeLine [topic] fun text => .subscribe (text topic)
  topicData _ := MicroPython.parameter
  registration := MicroPython.registration
  routine := MicroPython.routine
  serialWork :=
    some (MicroPython.serialWork, Snippet.Call.text { name := MicroPython.serialRoutine })

end Generation
end BoardBlocks
