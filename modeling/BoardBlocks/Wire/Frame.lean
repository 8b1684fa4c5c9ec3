/-
# Frames and notifications

A line from the firmware, cut at single spaces, is a frame: the marker `WF`, an opcode from 0 to
255 and fields.  Carriage returns and line feeds at the end of the line do not count.  The opcode is
written in decimal digits, with any number of leading zeros and at most one `+` in front.

A notification is a frame with opcode 3 and at least four fields: a count, the kind `5`, the topic
and the payload, which is trimmed.
-/

import BoardBlocks.Text.Digits
import BoardBlocks.Wire.Command

namespace BoardBlocks
namespace Wire

/-- Why a line is not what it should be. -/
inductive FrameError where
  | missingMarker
  | badOpcode
  | badLayout
deriving DecidableEq, Repr

/-- The text of an error. -/
def FrameError.message : FrameError → String
  | .missingMarker => "missing WF marker"
  | .badOpcode => "bad opcode"
  | .badLayout => "unexpected field layout"

/-- An opcode with its fields. -/
structure Frame where
  opcode : UInt8
  fields : List String
deriving DecidableEq, Repr

/-- The opcode that a token names. -/
def opcodeOf? (token : List Char) : Option UInt8 :=
  let ds := if token.head? = some '+' then token.tail else token
  if ds ≠ [] ∧ ds.all Char.isDigit ∧ Text.natOf ds < 256 then some (UInt8.ofNat (Text.natOf ds))
  else none

/-- A line without the carriage returns and line feeds at its end. -/
def dropLineEnd (cs : List Char) : List Char :=
  (cs.reverse.dropWhile fun c => c = '\r' || c = '\n').reverse

/-- The frame of a list of tokens. -/
def Frame.ofTokens : List (List Char) → Except FrameError Frame
  | [] => .error .missingMarker
  | head :: rest =>
    if head = marker.toList then
      match rest with
      | [] => .error .badOpcode
      | token :: fields =>
        match opcodeOf? token with
        | some opcode => .ok { opcode, fields := fields.map String.ofList }
        | none => .error .badOpcode
    else .error .missingMarker

/-- The frame of a line. -/
def Frame.parse (line : String) : Except FrameError Frame :=
  Frame.ofTokens ((dropLineEnd line.toList).splitOn ' ')

/-- A payload that arrived on a topic. -/
structure Notification where
  topic : String
  payload : String
deriving DecidableEq, Repr

/-- The opcode of notifications. -/
def notifyOpcode : UInt8 := 3

/-- The kind of notification that carries a topic. -/
def topicKind : String := "5"

/-- The notification that a frame is. -/
def Notification.ofFrame (f : Frame) : Except FrameError Notification :=
  match f.fields with
  | _ :: kind :: topic :: payload :: _ =>
    if f.opcode = notifyOpcode ∧ kind = topicKind then .ok { topic, payload := Text.trim payload }
    else .error .badLayout
  | _ => .error .badLayout

/-- The notification that a line is. -/
def Notification.parse (line : String) : Except FrameError Notification :=
  (Frame.parse line).bind Notification.ofFrame

end Wire
end BoardBlocks
