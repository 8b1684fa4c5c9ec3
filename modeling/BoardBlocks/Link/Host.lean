/-
# Hosts

A host puts a session and its event queue together and keeps what they have done: the clients that
were opened, how each connect request stands, and how often hats were started.

A settled request keeps its result until someone takes it, once.
-/

import BoardBlocks.Link.Session

namespace BoardBlocks
namespace Link

/-- How a connect request stands. -/
inductive Request where
  | waiting
  | settled (result : Settlement)
  | taken
deriving DecidableEq, Repr

/-- A session with its queue and what they have done. -/
structure Host where
  session : Session
  queue : Queue := {}
  /-- The generations of the clients that were opened, in order. -/
  clients : List UInt32 := []
  /-- How each request stands, in order. -/
  requests : List Request := []
  /-- How often hats were started. -/
  hats : Nat := 0
deriving DecidableEq, Repr

namespace Host

/-- A host before its first connect. -/
def start (settings : SessionSettings) : Host :=
  { session := { settings } }

/-- Takes note of an effect. -/
def note (h : Host) : Effect → Host
  | .opened generation _ _ =>
    { h with clients := h.clients ++ [generation], requests := h.requests ++ [.waiting] }
  | .hats _ _ => { h with hats := h.hats + 1 }
  | .settled request result => { h with requests := h.requests.set request (.settled result) }
  | _ => h

/-- Goes on with the session that an operation leaves, and takes note of its effects. -/
def after (h : Host) (result : Session × List Effect) : Host × List Effect :=
  (result.2.foldl note { h with session := result.1 }, result.2)

/-- Opens a client for a server. -/
def connect (h : Host) (server clientId : String) (username password : Option String) :
    Host × List Effect :=
  h.after (h.session.connect server clientId username password)

/-- Publishes through the client at work. -/
def publish (h : Host) (topic payload : String) : Host × List Effect :=
  h.after (h.session.publish topic payload)

/-- Subscribes through the client at work. -/
def subscribe (h : Host) (topic : String) : Host × List Effect :=
  h.after (h.session.subscribe topic)

/-- Ends the client and the request. -/
def finish (h : Host) : Host × List Effect :=
  h.after h.session.finish

/-- Gives an event to the session, past the queue. -/
def handle (h : Host) (e : TaggedEvent) : Host × List Effect :=
  h.after (h.session.handle e)

/-- Posts an event in the name of the client with a number: whether it is accepted; `none` if there
is no such client. -/
def post (h : Host) (client : Nat) (event : Event) : Option Bool × Host :=
  match h.clients[client]? with
  | some generation =>
    let (accepted, queue) := h.queue.send { generation, event }
    (some accepted, { h with queue })
  | none => (none, h)

/-- Takes the oldest event out of the queue without handling it. -/
def receive (h : Host) : Option TaggedEvent × Host :=
  let (e, queue) := h.queue.receive
  (e, { h with queue })

/-- Handles all queued events: how many there were. -/
def process (h : Host) : Nat × Host × List Effect :=
  let (events, queue) := h.queue.drain
  (events.length, { h with queue }.after (h.session.handleAll events))

/-- Handles what can be had by waiting for events, up to `count` of them: how many there were. -/
def pumpMany : (count : Nat) → Host → Nat × Host × List Effect
  | 0, h => (0, h, [])
  | count + 1, h =>
    match h.queue.poll with
    | (none, queue) => (0, { h with queue }, [])
    | (some e, queue) =>
      let (h, first) := { h with queue }.handle e
      let (n, h, others) := pumpMany count h
      (n + 1, h, first ++ others)

/-- Handles what can be had by waiting for events until the wait goes on. -/
def pump (h : Host) : Nat × Host × List Effect :=
  pumpMany (h.queue.events.length + 1) h

/-- Takes the result of a request, if it is settled and not taken yet. -/
def take (h : Host) (request : Nat) : Option Settlement × Host :=
  match h.requests[request]? with
  | some (.settled result) => (some result, { h with requests := h.requests.set request .taken })
  | _ => (none, h)

/-- Whether a result waits to be taken; `none` if there is no such request. -/
def isSettled (h : Host) (request : Nat) : Option Bool :=
  h.requests[request]?.map fun
    | .settled _ => true
    | _ => false

end Host
end Link
end BoardBlocks
