/-
# The event queue

Clients post events, each with the generation of the client that sent it, and the session takes them
in order.  Only messages count against the depth of the queue: while 16 messages wait, a further
message is refused, but every other event is accepted.  So a burst of messages never costs a
connection its acknowledgement.

Every accepted event leaves a wake-up for whoever waits for the next event.
-/

import BoardBlocks.Link.State

namespace BoardBlocks
namespace Link

/-- How many messages may wait. -/
def queueDepth : Nat := 16

/-- An event with the generation of its client. -/
structure TaggedEvent where
  generation : UInt32
  event : Event
deriving DecidableEq, Repr

/-- The waiting events, the oldest first, how many of them are messages, and whether a wake-up is
outstanding. -/
structure Queue where
  events : List TaggedEvent := []
  messages : Nat := 0
  wakeUp : Bool := false
deriving DecidableEq, Repr

namespace Queue

/-- Posts an event: whether it is accepted, and the queue after it. -/
def send (q : Queue) (e : TaggedEvent) : Bool × Queue :=
  if e.event.isMessage then
    if queueDepth ≤ q.messages then (false, q)
    else (true, { events := q.events ++ [e], messages := q.messages + 1, wakeUp := true })
  else (true, { q with events := q.events ++ [e], wakeUp := true })

/-- Takes the oldest event, if there is one. -/
def receive (q : Queue) : Option TaggedEvent × Queue :=
  match q.events with
  | [] => (none, q)
  | e :: es =>
    (some e, { q with events := es, messages := q.messages - if e.event.isMessage then 1 else 0 })

/-- One attempt of someone who waits for the next event.  An outstanding wake-up is used up and the
queue looked at once more; without one the wait goes on. -/
def poll (q : Queue) : Option TaggedEvent × Queue :=
  match q.receive with
  | (some e, q) => (some e, q)
  | (none, q) => if q.wakeUp then { q with wakeUp := false }.receive else (none, q)

/-- Takes the oldest events, `count` at most. -/
def receiveMany : (count : Nat) → Queue → List TaggedEvent × Queue
  | 0, q => ([], q)
  | count + 1, q =>
    match q.receive with
    | (none, q) => ([], q)
    | (some e, q) =>
      let (es, q) := receiveMany count q
      (e :: es, q)

/-- Takes all events. -/
def drain (q : Queue) : List TaggedEvent × Queue :=
  receiveMany q.events.length q

/-- Receiving as many events as there are gives them all, in order, and leaves none. -/
theorem receiveMany_eq (q : Queue) :
    (receiveMany q.events.length q).1 = q.events ∧
      (receiveMany q.events.length q).2.events = [] := by
  obtain ⟨events, messages, wakeUp⟩ := q
  simp only
  induction events generalizing messages with
  | nil => exact ⟨rfl, rfl⟩
  | cons e es ih => simp [receiveMany, receive, ih]

/-- Draining takes every event, in order. -/
theorem drain_eq (q : Queue) : q.drain.1 = q.events ∧ q.drain.2.events = [] :=
  receiveMany_eq q

end Queue
end Link
end BoardBlocks
