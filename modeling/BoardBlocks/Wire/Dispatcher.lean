/-
# Dispatch by topic

A table of handlers, one for each topic, in the order of the topics.  A notification goes to the
handler of exactly its topic.  Lines that are no notification and topics without a handler do
nothing.

What a handler is stays open: dispatching says which handlers fire with which payloads.
-/

import BoardBlocks.Keyed
import BoardBlocks.Wire.Frame
import BoardBlocks.Wire.LineDecoder

namespace BoardBlocks
namespace Wire

/-- Handlers by topic. -/
structure Dispatcher (Handler : Type) where
  handlers : List (String × Handler) := []

namespace Dispatcher

variable {Handler : Type}

/-- The handler of a topic. -/
def handler? (d : Dispatcher Handler) (topic : String) : Option Handler :=
  Keyed.get? topic d.handlers

/-- Sets the handler of a topic; the second component is the handler it replaces. -/
def register (d : Dispatcher Handler) (topic : String) (handler : Handler) :
    Dispatcher Handler × Option Handler :=
  (⟨Keyed.insert topic handler d.handlers⟩, d.handler? topic)

/-- The topics that have a handler, in order. -/
def topics (d : Dispatcher Handler) : List String :=
  Keyed.keys d.handlers

/-- The handler that a notification fires, with the payload it is given. -/
def dispatch (d : Dispatcher Handler) (n : Notification) : Option (Handler × String) :=
  (d.handler? n.topic).map fun h => (h, n.payload)

/-- The handler that a line fires. -/
def dispatchLine (d : Dispatcher Handler) (line : String) : Option (Handler × String) :=
  match Notification.parse line with
  | .ok n => d.dispatch n
  | .error _ => none

/-- Feeds bytes to a decoder: the decoder after them, and what the lines that they finish fire. -/
def dispatchBytes (d : Dispatcher Handler) (decoder : LineDecoder) (bytes : List UInt8) :
    LineDecoder × List (Handler × String) :=
  let (decoder, lines) := decoder.feed bytes
  (decoder, lines.filterMap d.dispatchLine)

@[simp] theorem handler?_register_self (d : Dispatcher Handler) (topic : String)
    (handler : Handler) : (d.register topic handler).1.handler? topic = some handler := by
  simp [register, handler?]

/-- Setting a handler leaves the other topics alone. -/
theorem handler?_register_of_ne (d : Dispatcher Handler) {topic other : String} (h : other ≠ topic)
    (handler : Handler) : (d.register topic handler).1.handler? other = d.handler? other :=
  Keyed.get?_insert_of_ne h handler d.handlers

end Dispatcher
end Wire
end BoardBlocks
