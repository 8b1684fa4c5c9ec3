/-
# The clients of a session, one after the other

What a session does to its connector and its clients reads as a list of lives: a client is opened,
is asked to publish and to subscribe, and is ended before the next one is opened.  Only the last
client may still be at work.
-/

import BoardBlocks.Proofs.HostRuns

namespace BoardBlocks
namespace Link

/-- What can be asked of a client. -/
inductive ClientRequest where
  | publish (topic payload : String)
  | subscribe (topic : String)
deriving DecidableEq, Repr

/-- The call that a request makes on a client. -/
def ClientRequest.call (g : UInt32) : ClientRequest → Effect
  | .publish topic payload => .published g topic payload
  | .subscribe topic => .subscribed g topic

/-- The life of a client: what it was opened with and what was asked of it, in order. -/
structure ClientLife where
  generation : UInt32
  url : String
  options : ClientOptions
  requests : List ClientRequest := []

namespace ClientLife

/-- The calls of a life that has not ended. -/
def calls (c : ClientLife) : List Effect :=
  .opened c.generation c.url c.options :: c.requests.map (ClientRequest.call c.generation)

/-- The calls of a life that has ended. -/
def allCalls (c : ClientLife) : List Effect :=
  c.calls ++ [.ended c.generation]

end ClientLife

/-- Whether an effect is a call on the connector or a client. -/
def Effect.isCall : Effect → Bool
  | .opened .. | .published .. | .subscribed .. | .ended _ => true
  | .hats .. | .settled .. => false

/-- The calls among effects. -/
def callsOf (effects : List Effect) : List Effect :=
  effects.filter Effect.isCall

/-- The calls that led to holding `client` are the lives of clients, all ended but that of `client`,
and `requests` are what was asked of them. -/
def IsLog (client : Option UInt32) (calls : List Effect) (requests : List ClientRequest) : Prop :=
  ∃ (ended : List ClientLife) (current : Option ClientLife),
    current.map (·.generation) = client ∧
      calls = ended.flatMap ClientLife.allCalls ++ current.toList.flatMap ClientLife.calls ∧
      requests = (ended ++ current.toList).flatMap (·.requests)

namespace IsLog

variable {client : Option UInt32} {calls : List Effect} {requests : List ClientRequest}

theorem start : IsLog none [] [] :=
  ⟨[], none, rfl, rfl, rfl⟩

/-- The client, if there is one, is ended. -/
theorem ended (h : IsLog client calls requests) :
    IsLog none (calls ++ client.toList.map .ended) requests := by
  obtain ⟨ended, current, rfl, rfl, rfl⟩ := h
  cases current with
  | none =>
    refine ⟨ended, none, rfl, ?_, rfl⟩
    simp
  | some c =>
    refine ⟨ended ++ [c], none, rfl, ?_, ?_⟩
    · simp [ClientLife.allCalls]
    · simp

/-- The next client is opened. -/
theorem opened (h : IsLog none calls requests) (g : UInt32) (url : String)
    (options : ClientOptions) : IsLog (some g) (calls ++ [.opened g url options]) requests := by
  obtain ⟨ended, current, hcurrent, rfl, rfl⟩ := h
  obtain rfl := Option.map_eq_none_iff.1 hcurrent
  refine ⟨ended, some ⟨g, url, options, []⟩, rfl, ?_, ?_⟩
  · simp [ClientLife.calls]
  · simp

/-- The client is asked for something. -/
theorem asked {g : UInt32} (h : IsLog (some g) calls requests) (r : ClientRequest) :
    IsLog (some g) (calls ++ [r.call g]) (requests ++ [r]) := by
  obtain ⟨ended, current, hcurrent, rfl, rfl⟩ := h
  obtain ⟨c, rfl, rfl⟩ := Option.map_eq_some_iff.1 hcurrent
  refine ⟨ended, some { c with requests := c.requests ++ [r] }, rfl, ?_, ?_⟩
  · simp [ClientLife.calls]
  · simp

end IsLog

namespace Session

/-- What an operation asks of the client of a live session. -/
def requested (s : Session) : Operation → List ClientRequest
  | .publish topic payload => if s.state.isLive then [.publish topic payload] else []
  | .subscribe topic => if s.state.isLive then [.subscribe topic] else []
  | .connect .. | .handle _ | .finish => []

/-- What the operations of a run ask of live clients, in order. -/
def requestedIn (s : Session) : List Operation → List ClientRequest
  | [] => []
  | op :: ops => s.requested op ++ (s.operate op).1.requestedIn ops

theorem callsOf_append (es es' : List Effect) : callsOf (es ++ es') = callsOf es ++ callsOf es' :=
  List.filter_append _ _

theorem callsOf_ended (client : Option UInt32) :
    callsOf (client.toList.map .ended) = client.toList.map .ended := by
  cases client <;> rfl

theorem callsOf_settled (pending : Option Nat) (result : Settlement) :
    callsOf (pending.toList.map (.settled · result)) = [] := by
  cases pending <;> rfl

variable {s : Session} {calls : List Effect} {requests : List ClientRequest}

/-- Ending the connection closes the life of the client that is held. -/
theorem isLog_finish (h : IsLog s.client calls requests) :
    IsLog none (calls ++ callsOf s.finish.2) requests := by
  rw [finish_eq, callsOf_append, callsOf_ended, callsOf_settled, List.append_nil]
  exact h.ended

/-- An event keeps the log: it closes the life of the held client, or calls nothing. -/
theorem isLog_handle (hs : s.Sound) (h : IsLog s.client calls requests) (e : TaggedEvent) :
    IsLog (s.handle e).1.client (calls ++ callsOf (s.handle e).2) requests := by
  by_cases hears : s.Hears e
  · have hlive : s.state.isLive = true := hs.client_isSome ▸ hears.2
    rw [handle_of_hears hears hlive]
    cases e.event with
    | connected =>
      show IsLog s.client (_ ++ callsOf (s.pending.toList.map _)) _
      rw [callsOf_settled, List.append_nil]
      exact h
    | reconnect =>
      show IsLog (ite _ _ _ : Session × List Effect).1.client
        (_ ++ callsOf (ite _ _ _ : Session × List Effect).2) _
      -- Giving up ends the client; any other reconnect keeps it.
      split
      · rw [callsOf_append, callsOf_ended, callsOf_settled, List.append_nil]
        exact h.ended
      · rw [callsOf, List.filter_nil, List.append_nil]
        exact h
    | message topic payload => exact (List.append_nil calls).symm ▸ h
    | error text => exact (List.append_nil calls).symm ▸ h
    | closed => exact (List.append_nil calls).symm ▸ h
  · rw [handle_of_not_hears hears]
    exact (List.append_nil calls).symm ▸ h

/-- A request reaches the client of a live session, and nobody otherwise. -/
theorem isLog_request (hs : s.Sound) (h : IsLog s.client calls requests) (r : ClientRequest) :
    IsLog s.client (calls ++ callsOf (s.client.toList.map fun g => r.call g))
      (requests ++ if s.state.isLive then [r] else []) := by
  rw [← hs.client_isSome]
  cases hclient : s.client with
  | none => simpa [callsOf, hclient] using h
  | some g =>
    rw [hclient] at h
    have hcall : callsOf [r.call g] = [r.call g] := by cases r <;> rfl
    show IsLog _ (_ ++ callsOf [r.call g]) (_ ++ [r])
    rw [hcall]
    exact h.asked r

/-- **One operation** adds its calls to the log. -/
theorem isLog_operate (hs : s.Sound) (h : IsLog s.client calls requests) (op : Operation) :
    IsLog (s.operate op).1.client (calls ++ callsOf (s.operate op).2)
      (requests ++ s.requested op) := by
  cases op with
  | connect server clientId username password =>
    rw [operate, connect_eq, callsOf_append, ← List.append_assoc, requested, List.append_nil]
    exact (isLog_finish h).opened _ _ _
  | handle e =>
    rw [requested, List.append_nil]
    exact isLog_handle hs h e
  | publish topic payload =>
    rw [operate, publish_eq]
    exact isLog_request hs h (.publish topic payload)
  | subscribe topic =>
    rw [operate, subscribe_eq]
    exact isLog_request hs h (.subscribe topic)
  | finish =>
    have hclient : (s.operate .finish).1.client = none := by rw [operate, finish_eq]
    rw [hclient, requested, List.append_nil]
    exact isLog_finish h

/-- **A run** adds its calls to the log. -/
theorem isLog_run (hs : s.Sound) (h : IsLog s.client calls requests) (ops : List Operation) :
    IsLog (s.run ops).1.client (calls ++ callsOf (s.run ops).2.flatten)
      (requests ++ s.requestedIn ops) := by
  induction ops generalizing s calls requests with
  | nil => simpa [run, runWith, requestedIn, callsOf] using h
  | cons op ops ih =>
    have hnext := ih (hs.operate op) (isLog_operate hs h op)
    rw [List.append_assoc, List.append_assoc, ← callsOf_append] at hnext
    exact hnext

theorem requestedIn_append (s : Session) (ops ops' : List Operation) :
    s.requestedIn (ops ++ ops') = s.requestedIn ops ++ (s.run ops).1.requestedIn ops' := by
  induction ops generalizing s with
  | nil => rfl
  | cons op ops ih =>
    rw [List.cons_append, requestedIn, requestedIn, ih, List.append_assoc]
    rfl

/-- Events ask a client for nothing. -/
theorem requestedIn_handle (s : Session) (es : List TaggedEvent) :
    s.requestedIn (es.map .handle) = [] := by
  induction es generalizing s with
  | nil => rfl
  | cons e es ih => exact ih _

end Session

namespace Host

/-- What an operation asks of the client of a live session. -/
def requested (h : Host) : Operation → List ClientRequest
  | .call op => h.session.requested op
  | _ => []

/-- What the operations of a run ask of live clients, in order. -/
def requestedIn (h : Host) : List Operation → List ClientRequest
  | [] => []
  | op :: ops => h.requested op ++ (h.operate op).1.requestedIn ops

/-- The host asks for what its session asks for. -/
theorem requested_eq (h : Host) (op : Operation) :
    h.requested op = h.session.requestedIn (h.sessionOps op) := by
  cases op with
  | call op => exact (List.append_nil _).symm
  | process => exact (Session.requestedIn_handle _ _).symm
  | pump => exact (Session.requestedIn_handle _ _).symm
  | post client event => rfl
  | receive => rfl
  | take request => rfl

/-- In a run, too, the host asks for what its session asks for. -/
theorem requestedIn_eq (h : Host) (ops : List Operation) :
    h.requestedIn ops = h.session.requestedIn (h.sessionRun ops) := by
  induction ops generalizing h with
  | nil => rfl
  | cons op ops ih =>
    rw [requestedIn, sessionRun, Session.requestedIn_append, requested_eq, ih,
      (h.operate_eq_run op).1]

/-- **One client after the other.**  After every run of a fresh host a client is held exactly in a
live state and a request waits only while a connection is being made.  The calls of the run are
the lives of clients, all ended but that of the client held; what the clients were asked for is
what was requested in live states.  In any other state a request makes no call. -/
theorem run_isLog (settings : SessionSettings) (ops : List Operation) :
    let final := (start settings).run ops
    final.1.session.client.isSome = final.1.session.state.isLive ∧
      (final.1.session.pending.isSome → final.1.session.state.isConnecting) ∧
      IsLog final.1.session.client (callsOf final.2.flatten) ((start settings).requestedIn ops) ∧
      (final.1.session.state.isLive = false → ∀ topic payload,
        (final.1.publish topic payload).2 = [] ∧ (final.1.subscribe topic).2 = []) := by
  intro final
  obtain ⟨hsession, heffects⟩ := (start settings).run_eq_run ops
  have hsound := (Session.Sound.start settings).run ((start settings).sessionRun ops)
  have hlog := Session.isLog_run (Session.Sound.start settings) IsLog.start
    ((start settings).sessionRun ops)
  rw [List.nil_append, List.nil_append] at hlog
  have hfinal : final.1.session.Sound := by
    rw [hsession]
    exact hsound
  refine ⟨hfinal.client_isSome, hfinal.isConnecting, ?_, fun hlive topic payload => ?_⟩
  · rw [hsession, heffects, requestedIn_eq]
    exact hlog
  · have hclient : final.1.session.client = none := by
      rw [← Option.not_isSome_iff_eq_none, hfinal.client_isSome, hlive]
      exact Bool.false_ne_true
    show (final.1.session.publish topic payload).2 = [] ∧ (final.1.session.subscribe topic).2 = []
    rw [Session.publish_eq, Session.subscribe_eq, hclient]
    exact ⟨rfl, rfl⟩

end Host
end Link
end BoardBlocks
