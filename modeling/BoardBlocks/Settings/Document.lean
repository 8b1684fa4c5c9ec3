/-
# Settings documents

The JSON form of settings.  Every field may be left out.

| record | fields in order |
| --- | --- |
| settings | `session`, `codegen`, `extension` |
| session | `broker_scheme`, `broker_port`, `max_reconnect_attempts` |
| codegen | `serial_baud`, `uart_id`, `init_settle_ms` |
| extension | `default_server`, `default_client_id`, `cloud_server` |
-/

import BoardBlocks.Json.Reader
import BoardBlocks.Json.Record
import BoardBlocks.Settings.Basic

namespace BoardBlocks

/-- Reads a 32-bit number. -/
def word32? (j : Json) : Option UInt32 :=
  UInt32.ofNat <$> j.natBelow? UInt32.size

/-- Reads the settings of the session. -/
def SessionSettings.ofJson? (j : Json) : Option SessionSettings := do
  let base : SessionSettings := {}
  let stated ← j.record? ["broker_scheme", "broker_port", "max_reconnect_attempts"]
  let brokerScheme ← Json.fieldOr "broker_scheme" Json.text? base.brokerScheme stated
  let brokerPort ← Json.fieldOr "broker_port" (fun j => UInt16.ofNat <$> j.natBelow? UInt16.size)
    base.brokerPort stated
  let maxReconnectAttempts ← Json.fieldOr "max_reconnect_attempts" word32?
    base.maxReconnectAttempts stated
  return { brokerScheme, brokerPort, maxReconnectAttempts }

/-- Reads the settings of generated code. -/
def CodeSettings.ofJson? (j : Json) : Option CodeSettings := do
  let base : CodeSettings := {}
  let stated ← j.record? ["serial_baud", "uart_id", "init_settle_ms"]
  let serialBaud ← Json.fieldOr "serial_baud" word32? base.serialBaud stated
  let uartId ← Json.fieldOr "uart_id" (fun j => UInt8.ofNat <$> j.natBelow? UInt8.size)
    base.uartId stated
  let initSettleMs ← Json.fieldOr "init_settle_ms" word32? base.initSettleMs stated
  return { serialBaud, uartId, initSettleMs }

/-- Reads the settings of the palette. -/
def PaletteSettings.ofJson? (j : Json) : Option PaletteSettings := do
  let base : PaletteSettings := {}
  let stated ← j.record? ["default_server", "default_client_id", "cloud_server"]
  let defaultServer ← Json.fieldOr "default_server" Json.text? base.defaultServer stated
  let defaultClientId ← Json.fieldOr "default_client_id" Json.text? base.defaultClientId stated
  let cloudServer ← Json.fieldOr "cloud_server" Json.text? base.cloudServer stated
  return { defaultServer, defaultClientId, cloudServer }

/-- Reads settings, valid or not. -/
def Settings.ofJson? (j : Json) : Option Settings := do
  let stated ← j.record? ["session", "codegen", "extension"]
  let session ← Json.fieldOr "session" SessionSettings.ofJson? {} stated
  let code ← Json.fieldOr "codegen" CodeSettings.ofJson? {} stated
  let palette ← Json.fieldOr "extension" PaletteSettings.ofJson? {} stated
  return { session, code, palette }

/-- Reads a settings document and checks what it says. -/
def Settings.ofString (s : String) : Except SettingsError Settings :=
  match (Json.read? s).bind Settings.ofJson? with
  | some settings => settings.validate
  | none => .error .malformed

/-- The document of the session settings. -/
def SessionSettings.toJson (s : SessionSettings) : Json :=
  Json.ofFields [("broker_scheme", Json.ofString s.brokerScheme),
    ("broker_port", Json.ofNat s.brokerPort.toNat),
    ("max_reconnect_attempts", Json.ofNat s.maxReconnectAttempts.toNat)]

/-- The document of the code settings. -/
def CodeSettings.toJson (s : CodeSettings) : Json :=
  Json.ofFields [("serial_baud", Json.ofNat s.serialBaud.toNat),
    ("uart_id", Json.ofNat s.uartId.toNat), ("init_settle_ms", Json.ofNat s.initSettleMs.toNat)]

/-- The document of the palette settings. -/
def PaletteSettings.toJson (s : PaletteSettings) : Json :=
  Json.ofFields [("default_server", Json.ofString s.defaultServer),
    ("default_client_id", Json.ofString s.defaultClientId),
    ("cloud_server", Json.ofString s.cloudServer)]

/-- The document of settings, all fields stated. -/
def Settings.toJson (s : Settings) : Json :=
  Json.ofFields [("session", s.session.toJson), ("codegen", s.code.toJson),
    ("extension", s.palette.toJson)]

end BoardBlocks
