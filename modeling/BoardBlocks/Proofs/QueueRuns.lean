/-
# Runs of the event queue

A queue is sent events, by any number of senders, and gives them out: the oldest one, the oldest one
to someone who waits, or all of them at once.

| operation | accepted | received |
| --- | --- | --- |
| `send`, `post` | the event, or nothing if it is refused | nothing |
| `receive`, `poll` | nothing | the oldest event, if there is one |
| `drain` | nothing | all events |

What an operation receives, followed by what then waits, is what waited before it, followed by what
it accepts (`operate_conserves`).  So over any run the received events followed by the waiting ones
are the accepted ones, in order.

The messages are counted apart from the events.  The count agrees with them after every operation
(`Counted`), so a message is refused exactly while 16 of them wait.
-/

import BoardBlocks.Proofs.HostRuns

namespace BoardBlocks
namespace Link
namespace Queue

/-- Whether an event is a message. -/
def isMessage (e : TaggedEvent) : Bool :=
  e.event.isMessage

/-- How many of the waiting events are messages. -/
def waitingMessages (q : Queue) : Nat :=
  q.events.countP isMessage

/-- What can be asked of a queue. -/
inductive Operation where
  /-- Sending an event that has its generation already. -/
  | send (e : TaggedEvent)
  /-- Posting an event through the sender of a generation. -/
  | post (sender : UInt32) (event : Event)
  /-- Taking the oldest event. -/
  | receive
  /-- One attempt of someone who waits for an event. -/
  | poll
  /-- Taking all events. -/
  | drain
deriving DecidableEq, Repr

/-- The events that an operation brings into a queue and those that it takes out. -/
structure Traffic where
  accepted : List TaggedEvent := []
  received : List TaggedEvent := []
deriving DecidableEq, Repr

/-- The queue after an event is sent, and the event if it was accepted. -/
def sending (q : Queue) (e : TaggedEvent) : Queue × Traffic :=
  ((q.send e).2, { accepted := if (q.send e).1 then [e] else [] })

/-- The queue after an operation and the traffic of the operation. -/
def operate (q : Queue) : Operation → Queue × Traffic
  | .send e => q.sending e
  | .post generation event => q.sending { generation, event }
  | .receive => (q.receive.2, { received := q.receive.1.toList })
  | .poll => (q.poll.2, { received := q.poll.1.toList })
  | .drain => (q.drain.2, { received := q.drain.1 })

/-- The queue after operations in order and the traffic of each of them. -/
def run (q : Queue) (ops : List Operation) : Queue × List Traffic :=
  runWith operate q ops

/-! ### What one operation does -/

/-- An event is refused or put behind the others. -/
theorem send_eq (q : Queue) (e : TaggedEvent) :
    q.send e =
      if isMessage e ∧ queueDepth ≤ q.messages then (false, q)
      else (true, {
        events := q.events ++ [e]
        messages := q.messages + [e].countP isMessage
        wakeUp := true }) := by
  cases hmessage : isMessage e <;> simp only [isMessage] at hmessage <;>
    simp [send, isMessage, hmessage]

/-- Someone who waits gets what can be taken; a wake-up is used up if there is nothing. -/
theorem poll_eq (q : Queue) :
    q.poll = (q.receive.1,
      { q.receive.2 with wakeUp := if q.events = [] then false else q.wakeUp }) := by
  obtain ⟨events, messages, wakeUp⟩ := q
  cases events with
  | nil => cases wakeUp <;> rfl
  | cons e events => rfl

/-- What someone who waits gets does not depend on wake-ups. -/
theorem poll_wakeUp (q : Queue) (wakeUp : Bool) :
    ({ q with wakeUp } : Queue).poll.1 = q.receive.1 ∧
      (({ q with wakeUp } : Queue).poll.1 = none ↔ q.events = []) := by
  rw [poll_eq]
  obtain ⟨events, messages, _⟩ := q
  cases events <;> simp [receive]

/-- The oldest event, if there is one, is taken away from the others. -/
theorem receive_conserves (q : Queue) : q.receive.1.toList ++ q.receive.2.events = q.events := by
  obtain ⟨events, messages, wakeUp⟩ := q
  cases events <;> rfl

/-- Sending adds what is accepted at the end, and nothing else. -/
theorem sending_conserves (q : Queue) (e : TaggedEvent) :
    (q.sending e).1.events = q.events ++ (q.sending e).2.accepted := by
  rw [sending, send_eq]
  split <;> simp

/-- **No operation loses, doubles or reorders an event.** -/
theorem operate_conserves (q : Queue) (op : Operation) :
    (q.operate op).2.received ++ (q.operate op).1.events =
      q.events ++ (q.operate op).2.accepted := by
  cases op with
  | send e => exact q.sending_conserves e
  | post generation event => exact q.sending_conserves { generation, event }
  | receive => rw [operate, receive_conserves, List.append_nil]
  | poll =>
    rw [operate, poll_eq, List.append_nil]
    exact q.receive_conserves
  | drain =>
    obtain ⟨htaken, hleft⟩ := q.drain_eq
    rw [operate, htaken, hleft]

/-! ### The count of messages -/

/-- The count is that of the waiting messages, and there are no more than the depth allows. -/
structure Counted (q : Queue) : Prop where
  messages_eq : q.messages = q.waitingMessages
  messages_le : q.messages ≤ queueDepth

theorem Counted.empty : Counted {} :=
  ⟨rfl, Nat.zero_le _⟩

/-- Sending keeps the count. -/
theorem Counted.sending {q : Queue} (h : q.Counted) (e : TaggedEvent) :
    (q.sending e).1.Counted := by
  rw [Queue.sending, send_eq]
  split
  · exact h
  · rename_i hroom
    refine ⟨?_, ?_⟩
    · rw [waitingMessages, List.countP_append, ← waitingMessages, ← h.messages_eq]
    · -- A message came only because there was room for it.
      show q.messages + [e].countP isMessage ≤ queueDepth
      have hle := h.messages_le
      cases hmessage : isMessage e with
      | true =>
        have hlt : ¬ queueDepth ≤ q.messages := fun hfull => hroom ⟨hmessage, hfull⟩
        rw [List.countP_singleton, if_pos hmessage]
        omega
      | false => simpa [hmessage] using hle

/-- **The count goes down by the messages that are taken**, and never below zero. -/
theorem Counted.messages_receive {q : Queue} (h : q.Counted) :
    q.receive.2.messages + q.receive.1.toList.countP isMessage = q.messages := by
  obtain ⟨events, messages, wakeUp⟩ := q
  cases events with
  | nil => rfl
  | cons e events =>
    have hcount : messages = events.countP isMessage + if isMessage e then 1 else 0 :=
      h.messages_eq.trans List.countP_cons
    rw [receive]
    cases hmessage : isMessage e <;> simp_all [isMessage]

/-- Receiving keeps the count. -/
theorem Counted.receive {q : Queue} (h : q.Counted) : q.receive.2.Counted := by
  have hmessages := h.messages_receive
  refine ⟨?_, ?_⟩
  · have hwaiting : q.waitingMessages =
        q.receive.1.toList.countP isMessage + q.receive.2.waitingMessages := by
      rw [waitingMessages, waitingMessages, ← List.countP_append, receive_conserves]
    have heq := h.messages_eq
    omega
  · have hle := h.messages_le
    omega

/-- A polled receive keeps the count. -/
theorem Counted.poll {q : Queue} (h : q.Counted) : q.poll.2.Counted := by
  rw [poll_eq]
  exact ⟨h.receive.messages_eq, h.receive.messages_le⟩

/-- Receiving several events keeps the count. -/
theorem Counted.receiveMany {q : Queue} (h : q.Counted) (count : Nat) :
    (q.receiveMany count).2.Counted := by
  induction count generalizing q with
  | zero => exact h
  | succ count ih =>
    rw [Queue.receiveMany]
    have hreceive := h.receive
    rcases hq : q.receive with ⟨_ | e, q'⟩ <;> rw [hq] at hreceive
    · exact hreceive
    · exact ih hreceive

/-- **One operation** keeps the count. -/
theorem Counted.operate {q : Queue} (h : q.Counted) (op : Operation) : (q.operate op).1.Counted := by
  cases op with
  | send e => exact h.sending e
  | post generation event => exact h.sending { generation, event }
  | receive => exact h.receive
  | poll => exact h.poll
  | drain => exact h.receiveMany _

/-! ### Runs -/

/-- **No run loses, doubles or reorders an event.** -/
theorem run_conserves (q : Queue) (ops : List Operation) :
    (q.run ops).2.flatMap Traffic.received ++ (q.run ops).1.events =
      q.events ++ (q.run ops).2.flatMap Traffic.accepted := by
  induction ops generalizing q with
  | nil => exact (List.append_nil q.events).symm
  | cons op ops ih =>
    have hstep := q.operate_conserves op
    have hrest := ih (q.operate op).1
    show ((q.operate op).2 :: ((q.operate op).1.run ops).2).flatMap Traffic.received ++
        ((q.operate op).1.run ops).1.events =
      q.events ++ ((q.operate op).2 :: ((q.operate op).1.run ops).2).flatMap Traffic.accepted
    rw [List.flatMap_cons, List.flatMap_cons, List.append_assoc, hrest, ← List.append_assoc, hstep,
      List.append_assoc]

/-- After every run the count is that of the waiting messages. -/
theorem run_counted (ops : List Operation) : (run {} ops).1.Counted := by
  have hstep : ∀ q op, Counted q → Counted (operate q op).1 := fun _ op h => h.operate op
  exact runWith_invariant hstep .empty ops

/-- Taking all events is taking the oldest one as often as there are events. -/
theorem drain_eq_run (q : Queue) :
    q.run (List.replicate q.events.length .receive) =
      (q.drain.2, q.drain.1.map fun e => { received := [e] }) := by
  obtain ⟨events, messages, wakeUp⟩ := q
  rw [drain]
  induction events generalizing messages with
  | nil => rfl
  | cons e events ih =>
    have hrest := ih (messages - if e.event.isMessage then 1 else 0)
    rw [List.length_cons, List.replicate_succ, receiveMany]
    exact congrArg (fun r : Queue × List Traffic => (r.1, { received := [e] } :: r.2)) hrest

/-- What becomes of an event that is sent after a run. -/
theorem Counted.send_eq {q : Queue} (h : q.Counted) (e : TaggedEvent) :
    if isMessage e ∧ q.waitingMessages = queueDepth then q.send e = (false, q)
    else (q.send e).1 = true := by
  have hle := h.messages_le
  rw [Queue.send_eq, ← h.messages_eq]
  split <;> rename_i hfull
  · rw [if_pos ⟨hfull.1, Nat.le_of_eq hfull.2.symm⟩]
  · rw [if_neg fun hrefused => hfull ⟨hrefused.1, by omega⟩]

end Queue

/-- A host that processes what is pending drains its queue and handles the events in order. -/
theorem Host.process_eq (h : Host) :
    h.process.1 = h.queue.events.length ∧ h.process.2.1.queue = h.queue.drain.2 ∧
      h.process.2.1.session = (h.session.handleAll h.queue.events).1 := by
  obtain ⟨htaken, -⟩ := h.queue.drain_eq
  obtain ⟨hsession, hqueue, -⟩ :=
    { h with queue := h.queue.drain.2 }.after_eq (h.session.handleAll h.queue.drain.1)
  refine ⟨congrArg List.length htaken, hqueue, ?_⟩
  rw [← htaken]
  exact hsession

namespace Queue

/-- **The queue is first in, first out, and only messages are refused.**  After any run of an empty
queue:

* The events received so far, followed by those that wait, are the accepted ones in order.
* The count of messages is that of the waiting messages, at most 16, and taking an event lowers it
  by one if the event is a message.
* An event is refused if and only if it is a message and 16 messages wait, and the queue is then
  what it was.
* Whatever wake-up is outstanding, someone who waits gets what can be taken, and goes on waiting
  exactly if no event is there.
* Draining takes the events one by one, and a host that processes what is pending drains its queue
  and handles the events in order. -/
theorem run_fifo (ops : List Operation) :
    ∃ q traffic, run {} ops = (q, traffic) ∧
      traffic.flatMap Traffic.received ++ q.events = traffic.flatMap Traffic.accepted ∧
      (q.messages = q.waitingMessages ∧ q.messages ≤ 16 ∧
        q.receive.2.messages + q.receive.1.toList.countP isMessage = q.messages) ∧
      (∀ e, if isMessage e ∧ q.waitingMessages = 16 then q.send e = (false, q)
        else (q.send e).1 = true) ∧
      (∀ wakeUp, ({ q with wakeUp } : Queue).poll.1 = q.receive.1 ∧
        (({ q with wakeUp } : Queue).poll.1 = none ↔ q.events = [])) ∧
      q.run (List.replicate q.events.length .receive) =
        (q.drain.2, q.drain.1.map fun e => { received := [e] }) ∧
      ∀ h : Host, ({ h with queue := q } : Host).process.1 = q.events.length ∧
        ({ h with queue := q } : Host).process.2.1.queue = q.drain.2 ∧
        ({ h with queue := q } : Host).process.2.1.session =
          (h.session.handleAll q.events).1 := by
  have hcounted := run_counted ops
  have hconserves := run_conserves {} ops
  rcases hrun : run {} ops with ⟨q, traffic⟩
  rw [hrun] at hcounted hconserves
  exact ⟨q, traffic, rfl, hconserves,
    ⟨hcounted.messages_eq, hcounted.messages_le, hcounted.messages_receive⟩, hcounted.send_eq,
    q.poll_wakeUp, q.drain_eq_run, fun h => Host.process_eq _⟩

end Queue
end Link
end BoardBlocks
