/-
# Settings

What can be tuned, with the values that hold where nothing else is said.

| group | setting | default |
| --- | --- | --- |
| session | `brokerScheme`, `brokerPort` | `ws`, 9234 |
| | `maxReconnectAttempts` | 5 |
| code | `serialBaud`, `uartId`, `initSettleMs` | 115200, 1, 500 |
| palette | `defaultServer`, `defaultClientId` | `kittenblock`, `robot01` |
| | `cloudServer` | `kittenbot.cn` |

Settings that would give unusable addresses or code are refused: an empty scheme or one with a
character that is no ASCII letter or digit, a `brokerPort` or `serialBaud` of zero, and white space
in the client id, looked for in this order.
-/

import BoardBlocks.Text.Blank

namespace BoardBlocks

/-- Settings of the live session. -/
structure SessionSettings where
  brokerScheme : String := "ws"
  brokerPort : UInt16 := 9234
  /-- How many reconnects in a row are tolerated before a connect is given up. -/
  maxReconnectAttempts : UInt32 := 5
deriving DecidableEq, Repr

/-- Settings of generated code. -/
structure CodeSettings where
  serialBaud : UInt32 := 115200
  uartId : UInt8 := 1
  /-- The delay after each write of the wake sequence, in milliseconds. -/
  initSettleMs : UInt32 := 500
deriving DecidableEq, Repr

/-- Settings of the palette: the arguments that blocks start with. -/
structure PaletteSettings where
  defaultServer : String := "kittenblock"
  defaultClientId : String := "robot01"
  cloudServer : String := "kittenbot.cn"
deriving DecidableEq, Repr

/-- All settings. -/
structure Settings where
  session : SessionSettings := {}
  code : CodeSettings := {}
  palette : PaletteSettings := {}
deriving DecidableEq, Repr

/-- What is wrong with settings that can be read. -/
inductive SettingsFault where
  | scheme
  | brokerPort
  | serialBaud
  | clientId
deriving DecidableEq, Repr

/-- What is said of a fault. -/
def SettingsFault.message : SettingsFault → String
  | .scheme => "session.broker_scheme must be alphanumeric"
  | .brokerPort => "session.broker_port must be non-zero"
  | .serialBaud => "codegen.serial_baud must be non-zero"
  | .clientId => "extension.default_client_id must not contain whitespace"

/-- Why a settings document is refused. -/
inductive SettingsError where
  | malformed
  | invalid (fault : SettingsFault)
deriving DecidableEq, Repr

/-- The text of an error. -/
def SettingsError.message : SettingsError → String
  | .malformed => "malformed config"
  | .invalid fault => "validation failed: " ++ fault.message

/-- The first fault of settings. -/
def Settings.fault? (s : Settings) : Option SettingsFault :=
  if s.session.brokerScheme = "" || !s.session.brokerScheme.toList.all Char.isAlphanum then
    some .scheme
  else if s.session.brokerPort = 0 then some .brokerPort
  else if s.code.serialBaud = 0 then some .serialBaud
  else if s.palette.defaultClientId.toList.any Text.isBlank then some .clientId
  else none

/-- Settings without a fault. -/
def Settings.validate (s : Settings) : Except SettingsError Settings :=
  match s.fault? with
  | some fault => .error (.invalid fault)
  | none => .ok s

/-- The address of the broker on a server. -/
def SessionSettings.brokerUrl (s : SessionSettings) (server : String) : String :=
  s.brokerScheme ++ "://" ++ server ++ ":" ++ toString s.brokerPort.toNat

end BoardBlocks
