/-
# Sessions

A session drives one client at a time.  Connecting ends the client before, opens a new one under the
next generation (the number wraps at 2³²) and leaves a request, which is settled once: when the
connection comes up, when too many reconnects came in a row, or when a later connect or an end
supersedes it.  Events of other generations than the present client's are ignored.

What a session does to the world around it is a list of effects, in order.
-/

import BoardBlocks.Link.Queue
import BoardBlocks.Settings.Basic

namespace BoardBlocks
namespace Link

/-- Why a connect request came to nothing. -/
inductive SessionError where
  | retryBudgetExceeded
  | superseded
deriving DecidableEq, Repr

/-- The text of an error. -/
def SessionError.message : SessionError → String
  | .retryBudgetExceeded => "error: time out"
  | .superseded => "connection superseded"

/-- How a connect request ended: `none` if the connection came up. -/
abbrev Settlement := Option SessionError

/-- What a client is opened with. -/
structure ClientOptions where
  clientId : String
  username : Option String
  password : Option String
deriving DecidableEq, Repr

/-- An empty user name is none, and without a user name there is no password; with one, a missing
password is empty. -/
def ClientOptions.make (clientId : String) (username password : Option String) : ClientOptions :=
  match username.filter (· ≠ "") with
  | some user => { clientId, username := some user, password := some (password.getD "") }
  | none => { clientId, username := none, password := none }

/-- The opcode of the hats that an incoming message starts. -/
def hatOpcode : String := "IoT_mqttGot"

/-- How hats are started. -/
structure HatStart where
  opcode : String
  /-- What the hats find as the last message. -/
  message : Option String
deriving DecidableEq, Repr

/-- What a session does.  Clients are named by their generation, requests by the number of connects
before them. -/
inductive Effect where
  | opened (generation : UInt32) (url : String) (options : ClientOptions)
  | published (generation : UInt32) (topic payload : String)
  | subscribed (generation : UInt32) (topic : String)
  | ended (generation : UInt32)
  /-- The hats on a topic start. -/
  | hats (topic : String) (start : HatStart)
  | settled (request : Nat) (result : Settlement)
deriving DecidableEq, Repr

/-- A session. -/
structure Session where
  settings : SessionSettings
  /-- The generation of the client at work. -/
  client : Option UInt32 := none
  generation : UInt32 := 0
  state : State := .disconnected
  /-- The request that is not settled yet. -/
  pending : Option Nat := none
  /-- How many requests there have been. -/
  requests : Nat := 0
  /-- The last message. -/
  message : Option String := none
deriving DecidableEq, Repr

namespace Session

/-- Ends the client at work, if any. -/
def endClient (s : Session) : Session × List Effect :=
  match s.client with
  | some g => ({ s with client := none }, [.ended g])
  | none => (s, [])

/-- Settles the pending request, if any. -/
def settle (s : Session) (result : Settlement) : Session × List Effect :=
  match s.pending with
  | some request => ({ s with pending := none }, [.settled request result])
  | none => (s, [])

/-- Ends the client and the request before. -/
def finish (s : Session) : Session × List Effect :=
  let (s, ended) := s.endClient
  let (s, settled) := s.settle (some .superseded)
  ({ s with state := .disconnected }, ended ++ settled)

/-- Opens a client for a server; the request has the number `requests`. -/
def connect (s : Session) (server clientId : String) (username password : Option String) :
    Session × List Effect :=
  let (s, before) := s.finish
  let generation := s.generation + 1
  ({ s with
      client := some generation, generation, state := .connecting,
      pending := some s.requests, requests := s.requests + 1 },
    before ++ [.opened generation (s.settings.brokerUrl server)
      (.make clientId username password)])

/-- Carries out what an event asks for. -/
def perform (s : Session) : Action → Session × List Effect
  | .none => (s, [])
  | .resolve => s.settle none
  | .giveUp _ =>
    let (s, ended) := s.endClient
    let (s, settled) := s.settle (some .retryBudgetExceeded)
    (s, ended ++ settled)
  | .deliver topic payload =>
    -- The payload is stored before the hats start.
    let s := { s with message := some payload }
    (s, [.hats topic { opcode := hatOpcode, message := s.message }])

/-- Takes an event.  Only events of the client at work count. -/
def handle (s : Session) (e : TaggedEvent) : Session × List Effect :=
  if e.generation = s.generation ∧ s.client.isSome then
    let (state, action) := step s.settings.maxReconnectAttempts s.state e.event
    { s with state }.perform action
  else (s, [])

/-- Publishes through the client at work; without one nothing happens. -/
def publish (s : Session) (topic payload : String) : Session × List Effect :=
  (s, match s.client with
    | some g => [.published g topic payload]
    | none => [])

/-- Subscribes through the client at work; without one nothing happens. -/
def subscribe (s : Session) (topic : String) : Session × List Effect :=
  (s, match s.client with
    | some g => [.subscribed g topic]
    | none => [])

/-- Takes events in order. -/
def handleAll (s : Session) : List TaggedEvent → Session × List Effect
  | [] => (s, [])
  | e :: es =>
    let (s, first) := s.handle e
    let (s, others) := s.handleAll es
    (s, first ++ others)

end Session
end Link
end BoardBlocks
