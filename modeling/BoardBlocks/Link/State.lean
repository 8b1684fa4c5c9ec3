/-
# The state of a connection

```
disconnected --connect--> connecting --connected--> connected
                              |                         |
                          reconnect                 reconnect
                              v                         v
                           reconnecting n  <--reconnect--
                              |
                        n > the limit
                              v
                           failed n
```

The number of reconnects in a row is part of the state, so a connection that comes up sets it back.
The counter has 32 bits and stays at its largest value.
-/

namespace BoardBlocks
namespace Link

/-- Where a connection stands. -/
inductive State where
  | disconnected
  | connecting
  | connected
  | reconnecting (attempt : UInt32)
  | failed (attempts : UInt32)
deriving DecidableEq, Repr

namespace State

/-- The reconnects in a row that a state counts. -/
def retryCount : State → UInt32
  | .reconnecting attempt => attempt
  | .failed attempts => attempts
  | _ => 0

/-- Whether a client is at work. -/
def isLive : State → Bool
  | .connecting | .connected | .reconnecting _ => true
  | .disconnected | .failed _ => false

end State

/-- What a client reports. -/
inductive Event where
  | connected
  | reconnect
  | message (topic payload : String)
  | error (text : String)
  | closed
deriving DecidableEq, Repr

/-- Whether an event brings a message. -/
def Event.isMessage : Event → Bool
  | .message _ _ => true
  | _ => false

/-- What an event asks for. -/
inductive Action where
  | none
  /-- The connect request is settled. -/
  | resolve
  /-- The connect request is given up after so many reconnects. -/
  | giveUp (attempts : UInt32)
  /-- A message is delivered. -/
  | deliver (topic payload : String)
deriving DecidableEq, Repr

/-- The next number, or the same one if there is none. -/
def saturatingSucc (n : UInt32) : UInt32 :=
  if n = 0xFFFFFFFF then n else n + 1

/-- The state after an event and what the event asks for; `limit` reconnects in a row are
tolerated. -/
def step (limit : UInt32) (s : State) (e : Event) : State × Action :=
  if s.isLive then
    match e with
    | .connected => (.connected, .resolve)
    | .reconnect =>
      let attempt := saturatingSucc s.retryCount
      if limit < attempt then (.failed attempt, .giveUp attempt) else (.reconnecting attempt, .none)
    | .message topic payload => (s, .deliver topic payload)
    | .error _ | .closed => (s, .none)
  else (s, .none)

/-- Without a client nothing happens. -/
theorem step_of_not_live {s : State} (h : s.isLive = false) (limit : UInt32) (e : Event) :
    step limit s e = (s, .none) := by
  simp [step, h]

end Link
end BoardBlocks
