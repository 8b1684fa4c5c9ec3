/-
# Messages that come in

A message counts if the client at work brings it.  Its payload becomes the last message, and then
the hats on its topic start, once.  Nothing else starts hats or changes the last message.

| operation | hats that start | last message |
| --- | --- | --- |
| a message of the client at work | those on its topic | its payload |
| any other event of that client | none | as before |
| an event of another client, or while none is held | none | as before |
| connect, publish, subscribe, end | none | as before |

The messages that count in a run are therefore all that its hats and its last message depend on.
-/

import BoardBlocks.Proofs.SessionRuns
import Mathlib.Data.List.ReduceOption

namespace BoardBlocks
namespace Link

/-- A message that comes in. -/
structure Message where
  topic : String
  payload : String
deriving DecidableEq, Repr

/-- The message that an event brings. -/
def Event.message? : Event → Option Message
  | .message topic payload => some { topic, payload }
  | _ => none

/-- Hats that start: on which topic, and how. -/
abbrev Trigger := String × HatStart

/-- What a message starts: the hats on its topic, which find its payload as the last message. -/
def Message.trigger (m : Message) : Trigger :=
  (m.topic, { opcode := hatOpcode, message := some m.payload })

/-- The hats that effects start, in order. -/
def triggersOf (effects : List Effect) : List Trigger :=
  effects.filterMap fun
    | .hats topic start => some (topic, start)
    | _ => none

namespace Session

/-- The message that an operation brings to the session: that of an event with the present
generation, while a client is held. -/
def brought? (s : Session) : Operation → Option Message
  | .handle e => if e.generation = s.generation ∧ s.client.isSome then e.event.message? else none
  | .connect .. | .publish .. | .subscribe _ | .finish => none

/-- What each operation of a run brings to the session in the state that those before it leave. -/
def broughtBy (s : Session) (ops : List Operation) : List (Option Message) :=
  eachAfter (fun before op => (s.run before).1.brought? op) ops

/-! ### One operation -/

theorem triggersOf_append (es es' : List Effect) :
    triggersOf (es ++ es') = triggersOf es ++ triggersOf es' :=
  List.filterMap_append

theorem triggersOf_flatten (ess : List (List Effect)) :
    triggersOf ess.flatten = (ess.map triggersOf).flatten :=
  List.filterMap_flatten ..

/-- Ending a client and settling a request trigger nothing. -/
theorem triggersOf_of_isClosing {effects : List Effect} (h : ∀ e ∈ effects, e.isClosing = true) :
    triggersOf effects = [] := by
  refine List.filterMap_eq_nil_iff.2 fun e he => ?_
  have hclosing := h e he
  cases e with
  | ended g => rfl
  | settled request result => rfl
  | _ => exact nomatch hclosing

/-- An event that the session does not listen to brings no message. -/
theorem brought?_handle_of_not_hears {s : Session} {e : TaggedEvent} (h : ¬ s.Hears e) :
    s.brought? (.handle e) = none :=
  if_neg h

/-- An event that it listens to brings the message that it carries, if any. -/
theorem brought?_handle_of_hears {s : Session} {e : TaggedEvent} (h : s.Hears e) :
    s.brought? (.handle e) = e.event.message? :=
  if_pos h

variable {s : Session}

/-- What an event starts and stores. -/
theorem handle_brings (hs : s.Sound) (e : TaggedEvent) :
    triggersOf (s.handle e).2 = (s.brought? (.handle e)).toList.map Message.trigger ∧
      (s.handle e).1.message =
        ((s.brought? (.handle e)).map (·.payload)).or s.message := by
  by_cases hears : s.Hears e
  · -- A client is held exactly in a live state, so the event is not lost there.
    have hlive : s.state.isLive = true := hs.client_isSome ▸ hears.2
    rw [handle_of_hears hears hlive, brought?_handle_of_hears hears]
    cases e.event with
    | connected => exact ⟨triggersOf_of_isClosing (isClosing_settled _ _), rfl⟩
    | reconnect =>
      show triggersOf (ite _ _ _ : Session × List Effect).2 = [] ∧
        (ite _ _ _ : Session × List Effect).1.message = s.message
      split
      · exact ⟨triggersOf_of_isClosing (isClosing_ended_settled _ _ _), rfl⟩
      · exact ⟨rfl, rfl⟩
    | message topic payload => exact ⟨rfl, rfl⟩
    | error text => exact ⟨rfl, rfl⟩
    | closed => exact ⟨rfl, rfl⟩
  · rw [handle_of_not_hears hears, brought?_handle_of_not_hears hears]
    exact ⟨rfl, rfl⟩

/-- **What an operation starts and stores** is that of the message it brings. -/
theorem operate_brings (hs : s.Sound) (op : Operation) :
    triggersOf (s.operate op).2 = (s.brought? op).toList.map Message.trigger ∧
      (s.operate op).1.message = ((s.brought? op).map (·.payload)).or s.message := by
  cases op with
  | connect server clientId username password =>
    rw [operate, connect_eq, triggersOf_append, triggersOf_of_isClosing s.isClosing_finish]
    exact ⟨rfl, rfl⟩
  | handle e => exact handle_brings hs e
  | publish topic payload =>
    rw [operate, publish_eq]
    cases s.client <;> exact ⟨rfl, rfl⟩
  | subscribe topic =>
    rw [operate, subscribe_eq]
    cases s.client <;> exact ⟨rfl, rfl⟩
  | finish =>
    refine ⟨triggersOf_of_isClosing s.isClosing_finish, ?_⟩
    rw [operate, finish_eq]
    rfl

/-! ### A run -/

/-- One more operation brings what it brings to the session that the run left. -/
theorem broughtBy_concat (s : Session) (ops : List Operation) (op : Operation) :
    s.broughtBy (ops ++ [op]) = s.broughtBy ops ++ [(s.run ops).1.brought? op] :=
  eachAfter_concat _ ops op

/-- Each operation of a run starts what it brings. -/
theorem map_triggersOf_run (hs : s.Sound) (ops : List Operation) :
    (s.run ops).2.map triggersOf =
      (s.broughtBy ops).map fun m => m.toList.map Message.trigger := by
  induction ops using List.reverseRecOn with
  | nil => rfl
  | append_singleton ops op ih =>
    rw [run_concat, broughtBy_concat, List.map_append, List.map_append, ih, List.map_singleton,
      List.map_singleton, (operate_brings (hs.run ops) op).1]

/-- The last message of a run is the last that was brought, if any was. -/
theorem message_run (hs : s.Sound) (ops : List Operation) :
    (s.run ops).1.message =
      ((s.broughtBy ops).reduceOption.getLast?.map (·.payload)).or s.message := by
  induction ops using List.reverseRecOn with
  | nil => rfl
  | append_singleton ops op ih =>
    rw [run_concat, broughtBy_concat, List.reduceOption_append,
      (operate_brings (hs.run ops) op).2, ih]
    cases (s.run ops).1.brought? op with
    | none => simp
    | some m => simp

/-- **Incoming messages over a whole run.**  In any run of a fresh session an operation starts hats
exactly if it is an event with the present generation that brings a message while a client is held.
It starts those on the topic of the message, once, with the opcode for incoming messages, and they
find its payload as the last message already.  So the hats of the run are those of the messages
brought, in order, and the last message of the run is the last one brought, or none if there was
none. -/
theorem run_brings (settings : SessionSettings) (ops : List Operation) :
    let final := run { settings } ops
    let brought := broughtBy { settings } ops
    final.2.map triggersOf = (brought.map fun m => m.toList.map Message.trigger) ∧
      triggersOf final.2.flatten = brought.reduceOption.map Message.trigger ∧
      final.1.message = brought.reduceOption.getLast?.map (·.payload) := by
  intro final brought
  have hs : Sound { settings } := .start settings
  have heach := map_triggersOf_run hs ops
  refine ⟨heach, ?_, ?_⟩
  · rw [triggersOf_flatten, heach, List.reduceOption, List.filterMap_eq_flatMap_toList,
      List.map_flatMap, List.flatMap_def]
    rfl
  · rw [message_run hs ops]
    exact Option.or_none

example : broughtBy { settings := { maxReconnectAttempts := 0 } }
    [.handle ⟨0, .message "early" "p"⟩, .connect "a" "id" none none, .handle ⟨1, .message "t" "p"⟩,
      .connect "b" "id" none none, .handle ⟨1, .message "stale" "p"⟩, .handle ⟨2, .closed⟩,
      .handle ⟨2, .message "t" "q"⟩, .handle ⟨2, .reconnect⟩, .handle ⟨2, .message "late" "p"⟩] =
    [none, none, some ⟨"t", "p"⟩, none, none, none, some ⟨"t", "q"⟩, none, none] := by
  decide +kernel

end Session
end Link
end BoardBlocks
