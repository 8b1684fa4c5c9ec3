/-
# Runs of a session

What each operation leaves and does, said once, and what holds after every run: a client is held
exactly in a live state and is that of the present generation, and a request waits only while a
connection is being made (`Session.Sound`).
-/

import BoardBlocks.Link.Session
import BoardBlocks.Proofs.Runs
import Mathlib.Data.List.Induction

namespace BoardBlocks
namespace Link

/-- Whether a connection is being made. -/
def State.isConnecting : State → Bool
  | .connecting | .reconnecting _ => true
  | _ => false

/-- Whether an effect ends a client or settles a request. -/
def Effect.isClosing : Effect → Bool
  | .ended _ | .settled .. => true
  | _ => false

namespace Session

/-- What can be done to a session. -/
inductive Operation where
  | connect (server clientId : String) (username password : Option String)
  | handle (e : TaggedEvent)
  | publish (topic payload : String)
  | subscribe (topic : String)
  | finish
deriving DecidableEq, Repr

/-- Whether an operation opens a client. -/
def Operation.isConnect : Operation → Bool
  | .connect .. => true
  | _ => false

/-- The session after an operation and what the operation does. -/
def operate (s : Session) : Operation → Session × List Effect
  | .connect server clientId username password => s.connect server clientId username password
  | .handle e => s.handle e
  | .publish topic payload => s.publish topic payload
  | .subscribe topic => s.subscribe topic
  | .finish => s.finish

/-- The session after operations in order and what each of them does. -/
def run (s : Session) (ops : List Operation) : Session × List (List Effect) :=
  runWith operate s ops

theorem run_cons (s : Session) (op : Operation) (ops : List Operation) :
    s.run (op :: ops) =
      (((s.operate op).1.run ops).1, (s.operate op).2 :: ((s.operate op).1.run ops).2) :=
  rfl

theorem run_append (s : Session) (ops ops' : List Operation) :
    s.run (ops ++ ops') =
      (((s.run ops).1.run ops').1, (s.run ops).2 ++ ((s.run ops).1.run ops').2) :=
  runWith_append operate s ops ops'

theorem run_concat (s : Session) (ops : List Operation) (op : Operation) :
    s.run (ops ++ [op]) =
      (((s.run ops).1.operate op).1, (s.run ops).2 ++ [((s.run ops).1.operate op).2]) :=
  run_append s ops [op]

theorem length_run (s : Session) (ops : List Operation) : (s.run ops).2.length = ops.length :=
  length_runWith operate s ops

/-! ### What one operation does -/

theorem endClient_eq (s : Session) :
    s.endClient = ({ s with client := none }, s.client.toList.map .ended) := by
  obtain ⟨settings, client, generation, state, pending, requests, message⟩ := s
  cases client <;> rfl

/-- Settling drops the request that waits, and is an effect if there was one. -/
theorem settle_eq (s : Session) (result : Settlement) :
    s.settle result = ({ s with pending := none }, s.pending.toList.map (.settled · result)) := by
  obtain ⟨settings, client, generation, state, pending, requests, message⟩ := s
  cases pending <;> rfl

theorem isClosing_settled (pending : Option Nat) (result : Settlement) :
    ∀ e ∈ pending.toList.map (Effect.settled · result), e.isClosing = true :=
  List.forall_mem_map.2 fun _ _ => rfl

/-- Ending a client and settling a request are closing. -/
theorem isClosing_ended_settled (client : Option UInt32) (pending : Option Nat)
    (result : Settlement) :
    ∀ e ∈ client.toList.map Effect.ended ++ pending.toList.map (.settled · result),
      e.isClosing = true :=
  List.forall_mem_append.2 ⟨List.forall_mem_map.2 fun _ _ => rfl, isClosing_settled pending result⟩

/-- An end drops client and request, ends the one and supersedes the other. -/
theorem finish_eq (s : Session) :
    s.finish = ({ s with client := none, pending := none, state := .disconnected },
      s.client.toList.map .ended ++ s.pending.toList.map (.settled · (some .superseded))) := by
  rw [finish, endClient_eq]
  simp only [settle_eq]

/-- A connect ends what there was and opens a client of the next generation. -/
theorem connect_eq (s : Session) (server clientId : String) (username password : Option String) :
    s.connect server clientId username password =
      ({ s with
          client := some (s.generation + 1), generation := s.generation + 1, state := .connecting,
          pending := some s.requests, requests := s.requests + 1 },
        s.finish.2 ++ [.opened (s.generation + 1) (s.settings.brokerUrl server)
          (.make clientId username password)]) := by
  rw [connect, finish_eq]

/-- All that an end does is closing. -/
theorem isClosing_finish (s : Session) : ∀ e ∈ s.finish.2, e.isClosing = true := by
  rw [finish_eq]
  exact isClosing_ended_settled _ _ _

/-- Whether a session listens to an event: it comes from the client at work. -/
def Hears (s : Session) (e : TaggedEvent) : Prop :=
  e.generation = s.generation ∧ s.client.isSome

instance (s : Session) (e : TaggedEvent) : Decidable (s.Hears e) :=
  inferInstanceAs (Decidable (_ ∧ _))

/-- Events of other clients do nothing. -/
theorem handle_of_not_hears {s : Session} {e : TaggedEvent} (h : ¬ s.Hears e) :
    s.handle e = (s, []) :=
  if_neg h

/-- **What an event of the client at work does.** -/
theorem handle_of_hears {s : Session} {e : TaggedEvent} (h : s.Hears e)
    (hlive : s.state.isLive = true) :
    s.handle e = match e.event with
      | .connected =>
        ({ s with state := .connected, pending := none }, s.pending.toList.map (.settled · none))
      | .reconnect =>
        if s.settings.maxReconnectAttempts < saturatingSucc s.state.retryCount then
          ({ s with
              client := none, pending := none,
              state := .failed (saturatingSucc s.state.retryCount) },
            s.client.toList.map .ended ++
              s.pending.toList.map (.settled · (some .retryBudgetExceeded)))
        else ({ s with state := .reconnecting (saturatingSucc s.state.retryCount) }, [])
      | .message topic payload =>
        ({ s with message := some payload },
          [.hats topic { opcode := hatOpcode, message := some payload }])
      | _ => (s, []) := by
  rw [handle, if_pos (show _ ∧ _ from h)]
  cases e.event with
  | reconnect =>
    simp only [step, hlive, if_true]
    split
    · simp only [perform, endClient_eq, settle_eq]
    · rfl
  | _ => simp [step, hlive, perform, settle_eq]

/-- Without a client nothing is published. -/
theorem publish_eq (s : Session) (topic payload : String) :
    s.publish topic payload = (s, s.client.toList.map (.published · topic payload)) := by
  unfold publish
  cases s.client <;> rfl

/-- Without a client nothing is subscribed to. -/
theorem subscribe_eq (s : Session) (topic : String) :
    s.subscribe topic = (s, s.client.toList.map (.subscribed · topic)) := by
  unfold subscribe
  cases s.client <;> rfl

/-! ### What holds after every run -/

/-- What client, state, generation and request of a session have to do with each other. -/
structure Sound (s : Session) : Prop where
  client_isSome : s.client.isSome = s.state.isLive
  client_eq : ∀ g, s.client = some g → g = s.generation
  isConnecting : s.pending.isSome → s.state.isConnecting
  pending_lt : ∀ k, s.pending = some k → k < s.requests

namespace Sound

theorem start (settings : SessionSettings) : Sound { settings } :=
  ⟨rfl, nofun, nofun, nofun⟩

/-- A session that has ended is sound, whatever it was. -/
theorem finish (s : Session) : s.finish.1.Sound := by
  rw [finish_eq]
  exact ⟨rfl, nofun, nofun, nofun⟩

/-- A session that connects is sound, whatever it was. -/
theorem connect (s : Session) (server clientId : String) (username password : Option String) :
    (s.connect server clientId username password).1.Sound := by
  rw [connect_eq]
  refine ⟨rfl, fun g hg => (Option.some.inj hg).symm, fun _ => rfl, fun k hk => ?_⟩
  obtain rfl := Option.some.inj hk
  exact Nat.lt_succ_self _

variable {s : Session}

/-- An event keeps a session sound. -/
theorem handle (h : s.Sound) (e : TaggedEvent) : (s.handle e).1.Sound := by
  by_cases hears : s.Hears e
  · have hlive : s.state.isLive = true := h.client_isSome ▸ hears.2
    rw [handle_of_hears hears hlive]
    cases e.event with
    | connected =>
      exact ⟨hears.2, h.client_eq, nofun, nofun⟩
    | reconnect =>
      show (ite _ _ _ : Session × List Effect).1.Sound
      split
      · exact ⟨rfl, nofun, nofun, nofun⟩
      · exact ⟨hears.2, h.client_eq, fun _ => rfl, h.pending_lt⟩
    | message topic payload =>
      exact ⟨h.client_isSome, h.client_eq, h.isConnecting, h.pending_lt⟩
    | error text => exact h
    | closed => exact h
  · rw [handle_of_not_hears hears]
    exact h

/-- One operation keeps a session sound. -/
theorem operate (h : s.Sound) (op : Operation) : (s.operate op).1.Sound := by
  cases op with
  | connect server clientId username password => exact .connect s server clientId username password
  | handle e => exact h.handle e
  | publish topic payload => exact h
  | subscribe topic => exact h
  | finish => exact .finish s

/-- **Every run keeps a session sound.** -/
theorem run (h : s.Sound) (ops : List Operation) : (s.run ops).1.Sound :=
  runWith_invariant (fun _ op hs => hs.operate op) h ops

end Sound

/-! ### Connects counted -/

/-- How many operations open a client. -/
def connects (ops : List Operation) : Nat :=
  ops.countP Operation.isConnect

theorem connects_cons (op : Operation) (ops : List Operation) :
    connects (op :: ops) = connects [op] + connects ops := by
  rw [connects, List.countP_cons, connects, connects, List.countP_singleton, Nat.add_comm]

/-- No action changes the settings or the numbers of requests and generations. -/
theorem perform_counters (s : Session) (action : Action) :
    (s.perform action).1.settings = s.settings ∧ (s.perform action).1.requests = s.requests ∧
      (s.perform action).1.generation = s.generation := by
  cases action with
  | none => exact ⟨rfl, rfl, rfl⟩
  | deliver topic payload => exact ⟨rfl, rfl, rfl⟩
  | resolve =>
    rw [perform, settle_eq]
    exact ⟨rfl, rfl, rfl⟩
  | giveUp attempts =>
    simp only [perform, endClient_eq, settle_eq, and_self]

/-- Nor does an event. -/
theorem handle_counters (s : Session) (e : TaggedEvent) :
    (s.handle e).1.settings = s.settings ∧ (s.handle e).1.requests = s.requests ∧
      (s.handle e).1.generation = s.generation := by
  unfold handle
  split
  · exact perform_counters _ _
  · exact ⟨rfl, rfl, rfl⟩

/-- An operation counts a request and a generation if it is a connect. -/
theorem operate_counters (s : Session) (op : Operation) :
    (s.operate op).1.settings = s.settings ∧
      (s.operate op).1.requests = s.requests + connects [op] ∧
      (s.operate op).1.generation = s.generation + .ofNat (connects [op]) := by
  cases op with
  | connect server clientId username password =>
    rw [operate, connect_eq]
    exact ⟨rfl, rfl, rfl⟩
  | handle e =>
    obtain ⟨hsettings, hrequests, hgeneration⟩ := s.handle_counters e
    exact ⟨hsettings, hrequests, hgeneration.trans (UInt32.add_zero _).symm⟩
  | publish topic payload => exact ⟨rfl, rfl, (UInt32.add_zero _).symm⟩
  | subscribe topic => exact ⟨rfl, rfl, (UInt32.add_zero _).symm⟩
  | finish =>
    rw [operate, finish_eq]
    exact ⟨rfl, rfl, (UInt32.add_zero _).symm⟩

/-- A run counts its connects, the generation up to 2³². -/
theorem run_counters (s : Session) (ops : List Operation) :
    (s.run ops).1.settings = s.settings ∧ (s.run ops).1.requests = s.requests + connects ops ∧
      (s.run ops).1.generation = s.generation + .ofNat (connects ops) := by
  induction ops generalizing s with
  | nil => exact ⟨rfl, rfl, (UInt32.add_zero _).symm⟩
  | cons op ops ih =>
    obtain ⟨hsettings, hrequests, hgeneration⟩ := ih (s.operate op).1
    obtain ⟨hsettings', hrequests', hgeneration'⟩ := s.operate_counters op
    rw [connects_cons, UInt32.ofNat_add, ← Nat.add_assoc, ← UInt32.add_assoc, ← hrequests',
      ← hgeneration']
    exact ⟨hsettings.trans hsettings', hrequests, hgeneration⟩

end Session
end Link
end BoardBlocks
