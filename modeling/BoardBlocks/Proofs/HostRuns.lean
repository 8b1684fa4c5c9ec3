/-
# Runs of a host

Whatever a host is asked to do, its session goes through a run of operations of its own
(`Host.exists_run`): one for a call, one for each event that is taken out of the queue and handled,
and none for what only the queue and the requests notice.
-/

import BoardBlocks.Link.Host
import BoardBlocks.Proofs.SessionRuns

namespace BoardBlocks
namespace Link

/-- Taking events in order is a run. -/
theorem Session.handleAll_eq_run (s : Session) (es : List TaggedEvent) :
    s.handleAll es = ((s.run (es.map .handle)).1, (s.run (es.map .handle)).2.flatten) := by
  induction es generalizing s with
  | nil => rfl
  | cons e es ih =>
    rw [handleAll]
    simp only [ih]
    rfl

namespace Host

/-- What can be asked of a host. -/
inductive Operation where
  /-- A call of the session. -/
  | call (op : Session.Operation)
  /-- Handling all queued events. -/
  | process
  /-- Handling events by waiting for them. -/
  | pump
  /-- Posting an event in the name of the client with a number. -/
  | post (client : Nat) (event : Event)
  /-- Taking the oldest event out of the queue. -/
  | receive
  /-- Taking the result of a request. -/
  | take (request : Nat)
deriving DecidableEq, Repr

/-- A call of the session. -/
def call (h : Host) : Session.Operation → Host × List Effect
  | .connect server clientId username password => h.connect server clientId username password
  | .handle e => h.handle e
  | .publish topic payload => h.publish topic payload
  | .subscribe topic => h.subscribe topic
  | .finish => h.finish

/-- The host after an operation and what the operation does. -/
def operate (h : Host) : Operation → Host × List Effect
  | .call op => h.call op
  | .process => h.process.2
  | .pump => h.pump.2
  | .post client event => ((h.post client event).2, [])
  | .receive => (h.receive.2, [])
  | .take request => ((h.take request).2, [])

/-- The host after operations in order and what each of them does. -/
def run (h : Host) (ops : List Operation) : Host × List (List Effect) :=
  runWith operate h ops

theorem run_cons (h : Host) (op : Operation) (ops : List Operation) :
    h.run (op :: ops) =
      (((h.operate op).1.run ops).1, (h.operate op).2 :: ((h.operate op).1.run ops).2) :=
  rfl

/-- Taking note of effects changes neither session nor queue. -/
theorem after_eq (h : Host) (result : Session × List Effect) :
    (h.after result).1.session = result.1 ∧ (h.after result).1.queue = h.queue ∧
      (h.after result).2 = result.2 := by
  have hfold (effects : List Effect) (h : Host) :
      (effects.foldl note h).session = h.session ∧ (effects.foldl note h).queue = h.queue := by
    induction effects generalizing h with
    | nil => exact ⟨rfl, rfl⟩
    | cons e effects ih =>
      rw [List.foldl_cons]
      cases e <;> exact ih _
  exact ⟨(hfold _ _).1, (hfold _ _).2, rfl⟩

/-- A call hands an operation to the session and follows what came of it. -/
theorem call_eq (h : Host) (op : Session.Operation) :
    h.call op = h.after (h.session.operate op) := by
  cases op <;> rfl

/-- The events that can be had by waiting, up to `count` of them. -/
def pumped : (count : Nat) → Queue → List TaggedEvent
  | 0, _ => []
  | count + 1, q =>
    match q.poll with
    | (none, _) => []
    | (some e, q) => e :: pumped count q

/-- What an operation comes to for the session. -/
def sessionOps (h : Host) : Operation → List Session.Operation
  | .call op => [op]
  | .process => h.queue.drain.1.map .handle
  | .pump => (pumped (h.queue.events.length + 1) h.queue).map .handle
  | .post .. | .receive | .take _ => []

/-- Pumping is the session's run over the events that it takes from the queue. -/
theorem pumpMany_eq_run (count : Nat) (h : Host) :
    (pumpMany count h).2.1.session = (h.session.run ((pumped count h.queue).map .handle)).1 ∧
      (pumpMany count h).2.2 = (h.session.run ((pumped count h.queue).map .handle)).2.flatten := by
  induction count generalizing h with
  | zero => exact ⟨rfl, rfl⟩
  | succ count ih =>
    rw [pumpMany, pumped]
    obtain ⟨e, queue⟩ := h.queue.poll
    cases e with
    | none => exact ⟨rfl, rfl⟩
    | some e =>
      obtain ⟨hsession, hqueue, heffects⟩ := { h with queue }.after_eq (h.session.handle e)
      obtain ⟨ihsession, iheffects⟩ := ih ({ h with queue }.after (h.session.handle e)).1
      rw [hsession, hqueue] at ihsession iheffects
      refine ⟨ihsession, ?_⟩
      rw [List.map_cons, Session.run_cons, List.flatten_cons]
      exact congrArg₂ (· ++ ·) heffects iheffects

/-- **The session of a host runs.** -/
theorem operate_eq_run (h : Host) (op : Operation) :
    (h.operate op).1.session = (h.session.run (h.sessionOps op)).1 ∧
      (h.operate op).2 = (h.session.run (h.sessionOps op)).2.flatten := by
  cases op with
  | call op =>
    obtain ⟨hsession, -, heffects⟩ := h.after_eq (h.session.operate op)
    rw [operate, call_eq, sessionOps, Session.run_cons]
    exact ⟨hsession, heffects.trans (List.flatten_singleton).symm⟩
  | process =>
    obtain ⟨hsession, -, heffects⟩ :=
      { h with queue := h.queue.drain.2 }.after_eq (h.session.handleAll h.queue.drain.1)
    have hrun := h.session.handleAll_eq_run h.queue.drain.1
    exact ⟨hsession.trans (congrArg Prod.fst hrun), heffects.trans (congrArg Prod.snd hrun)⟩
  | pump => exact pumpMany_eq_run _ h
  | post client event =>
    rw [operate, post]
    cases h.clients[client]? <;> exact ⟨rfl, rfl⟩
  | receive => exact ⟨rfl, rfl⟩
  | take request =>
    rw [operate, take]
    split <;> exact ⟨rfl, rfl⟩

/-- All that a run of the host comes to for the session. -/
def sessionRun (h : Host) : List Operation → List Session.Operation
  | [] => []
  | op :: ops => h.sessionOps op ++ (h.operate op).1.sessionRun ops

/-- **A run of the host is a run of its session**, over all that the host's operations come to. -/
theorem run_eq_run (h : Host) (ops : List Operation) :
    (h.run ops).1.session = (h.session.run (h.sessionRun ops)).1 ∧
      (h.run ops).2.flatten = (h.session.run (h.sessionRun ops)).2.flatten := by
  induction ops generalizing h with
  | nil => exact ⟨rfl, rfl⟩
  | cons op ops ih =>
    obtain ⟨hsession, heffects⟩ := h.operate_eq_run op
    obtain ⟨ihsession, iheffects⟩ := ih (h.operate op).1
    rw [run_cons, sessionRun, Session.run_append, ihsession, List.flatten_cons, iheffects, hsession,
      heffects, List.flatten_append]
    exact ⟨rfl, rfl⟩

end Host
end Link
end BoardBlocks
