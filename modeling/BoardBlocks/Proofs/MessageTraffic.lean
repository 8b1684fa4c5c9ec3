/-
# Messages leave the connection alone

However many messages come in, and whether the queue takes them or refuses them, the connection goes
the same way.  Two hosts *agree* if they differ in messages only: in the last message of the
session, in the hats that messages started, and in the messages that wait in the queue.

| operation | on two hosts that agree |
| --- | --- |
| a call | does the same on both, as no operation reads the last message |
| a post that is no message | is accepted by both queues, behind the same events but for messages |
| a post of a message | may be left out on one of them, whether it is accepted or refused |
| handling all that waits | handles the same events but for messages, which only deliver |

So posts of messages may be left out of a run, any of them, and no point of the run shows it
(`run_thinned`).
-/

import BoardBlocks.Proofs.QueueRuns

namespace BoardBlocks
namespace Link

theorem Event.exists_of_isMessage {event : Event} (h : event.isMessage = true) :
    ∃ topic payload, event = .message topic payload := by
  unfold isMessage at h
  split at h
  · exact ⟨_, _, rfl⟩
  · exact absurd h Bool.false_ne_true

/-- Whether an effect starts hats. -/
def Effect.isHats : Effect → Bool
  | .hats .. => true
  | _ => false

/-- The effects that do not start hats: the calls on the connector and the clients, and the
settlements. -/
def withoutHats (effects : List Effect) : List Effect :=
  effects.filter fun e => !e.isHats

theorem withoutHats_append (effects effects' : List Effect) :
    withoutHats (effects ++ effects') = withoutHats effects ++ withoutHats effects' :=
  List.filter_append _ _

namespace Session

/-- A session as if no message had come. -/
def quiet (s : Session) : Session :=
  { s with message := none }

/-- Sessions that are the same when quiet differ in the message alone. -/
theorem eq_of_quiet_eq {s s' : Session} (h : s.quiet = s'.quiet) :
    s' = { s with message := s'.message } := by
  have hback := congrArg (fun q : Session => { q with message := s'.message }) h
  exact hback.symm

/-- Sessions and what was done on the way to them, alike but for messages. -/
structure Alike (r r' : Session × List Effect) : Prop where
  session : r.1.quiet = r'.1.quiet
  effects : withoutHats r.2 = withoutHats r'.2

namespace Alike

theorem refl (r : Session × List Effect) : Alike r r :=
  ⟨rfl, rfl⟩

theorem symm {r r' : Session × List Effect} (h : Alike r r') : Alike r' r :=
  ⟨h.session.symm, h.effects.symm⟩

theorem trans {r r' r'' : Session × List Effect} (h : Alike r r') (h' : Alike r' r'') :
    Alike r r'' :=
  ⟨h.session.trans h'.session, h.effects.trans h'.effects⟩

/-- No action reads the last message. -/
theorem perform_quiet (s : Session) (action : Action) :
    Alike (s.perform action) (s.quiet.perform action) := by
  cases action with
  | none => exact ⟨rfl, rfl⟩
  | deliver topic payload => exact ⟨rfl, rfl⟩
  | resolve =>
    simp only [perform, settle_eq]
    exact ⟨rfl, rfl⟩
  | giveUp attempts =>
    simp only [perform, endClient_eq, settle_eq]
    exact ⟨rfl, rfl⟩

/-- Nor does an event. -/
theorem handle_quiet (s : Session) (e : TaggedEvent) :
    Alike (s.handle e) (s.quiet.handle e) := by
  by_cases h : s.Hears e
  · have h' : s.quiet.Hears e := h
    rw [handle, handle, if_pos (show _ ∧ _ from h), if_pos (show _ ∧ _ from h')]
    exact perform_quiet _ _
  · have h' : ¬ s.quiet.Hears e := h
    rw [handle_of_not_hears h, handle_of_not_hears h']
    exact ⟨rfl, rfl⟩

/-- No operation reads the last message. -/
theorem operate_quiet (s : Session) (op : Operation) :
    Alike (s.operate op) (s.quiet.operate op) := by
  cases op with
  | connect server clientId username password =>
    rw [operate, operate, connect_eq, connect_eq, finish_eq, finish_eq]
    exact ⟨rfl, rfl⟩
  | handle e => exact handle_quiet s e
  | publish topic payload =>
    rw [operate, operate, publish_eq, publish_eq]
    exact ⟨rfl, rfl⟩
  | subscribe topic =>
    rw [operate, operate, subscribe_eq, subscribe_eq]
    exact ⟨rfl, rfl⟩
  | finish =>
    rw [operate, operate, finish_eq, finish_eq]
    exact ⟨rfl, rfl⟩

/-- An operation keeps sessions alike. -/
theorem operate {s s' : Session} (h : s.quiet = s'.quiet) (op : Operation) :
    Alike (s.operate op) (s'.operate op) := by
  have hs := operate_quiet s op
  rw [h] at hs
  exact hs.trans (operate_quiet s' op).symm

/-- A message only delivers. -/
theorem handle_message (s : Session) {e : TaggedEvent} (h : Queue.isMessage e = true) :
    Alike (s.handle e) (s, []) := by
  obtain ⟨g, event⟩ := e
  obtain ⟨topic, payload, rfl⟩ := Event.exists_of_isMessage h
  by_cases hears : s.Hears ⟨g, .message topic payload⟩
  · rw [handle, if_pos (show _ ∧ _ from hears)]
    cases hlive : s.state.isLive with
    | true =>
      simp only [step, hlive, if_true]
      exact ⟨rfl, rfl⟩
    | false =>
      simp only [step_of_not_live hlive]
      exact ⟨rfl, rfl⟩
  · rw [handle_of_not_hears hears]
    exact .refl _

/-- What is done in two steps is alike if each step is. -/
theorem append {r r' q q' : Session × List Effect} (h : Alike r r') (hq : Alike q q') :
    Alike (q.1, r.2 ++ q.2) (q'.1, r'.2 ++ q'.2) := by
  refine ⟨hq.session, ?_⟩
  rw [withoutHats_append, withoutHats_append, h.effects, hq.effects]

/-- Events one after the other keep sessions alike. -/
theorem handleAll {s s' : Session} (h : s.quiet = s'.quiet) (es : List TaggedEvent) :
    Alike (s.handleAll es) (s'.handleAll es) := by
  induction es generalizing s s' with
  | nil => exact ⟨h, rfl⟩
  | cons e es ih =>
    have hfirst : Alike (s.handle e) (s'.handle e) := .operate h (.handle e)
    exact hfirst.append (ih hfirst.session)

end Alike

/-- The events that are no messages. -/
def controls (es : List TaggedEvent) : List TaggedEvent :=
  es.filter fun e => !Queue.isMessage e

/-- **Messages among events only deliver.** -/
theorem Alike.handleAll_controls (s : Session) (es : List TaggedEvent) :
    Alike (s.handleAll es) (s.handleAll (controls es)) := by
  induction es generalizing s with
  | nil => exact .refl _
  | cons e es ih =>
    cases h : Queue.isMessage e with
    | true =>
      have hcontrols : controls (e :: es) = controls es := List.filter_cons_of_neg (by simp [h])
      have hfirst := handle_message s h
      rw [hcontrols]
      exact hfirst.append ((ih _).trans (.handleAll hfirst.session (controls es)))
    | false =>
      have hcontrols : controls (e :: es) = e :: controls es :=
        List.filter_cons_of_pos (by simp [h])
      rw [hcontrols]
      exact (Alike.refl (s.handle e)).append (ih _)

end Session

namespace Host

/-! ### Hosts that differ in messages -/

/-- Hosts that differ in messages only. -/
structure Agree (h h' : Host) : Prop where
  session : h.session.quiet = h'.session.quiet
  clients : h.clients = h'.clients
  requests : h.requests = h'.requests
  waiting : Session.controls h.queue.events = Session.controls h'.queue.events

/-- The clients and requests that effects leave do not depend on started hats. -/
theorem note_withoutHats (effects : List Effect) {h h' : Host} (hclients : h.clients = h'.clients)
    (hrequests : h.requests = h'.requests) :
    (effects.foldl note h).clients = ((withoutHats effects).foldl note h').clients ∧
      (effects.foldl note h).requests = ((withoutHats effects).foldl note h').requests := by
  induction effects generalizing h h' with
  | nil => exact ⟨hclients, hrequests⟩
  | cons e effects ih =>
    cases e with
    | opened g url options =>
      exact ih (congrArg (· ++ [g]) hclients) (congrArg (· ++ [Request.waiting]) hrequests)
    | settled request result =>
      exact ih hclients (congrArg (·.set request (.settled result)) hrequests)
    | _ => exact ih hclients hrequests

/-- Sending adds the event to those that are no messages, unless it is one. -/
theorem controls_send (q : Queue) (e : TaggedEvent) :
    Session.controls (q.send e).2.events = Session.controls q.events ++ Session.controls [e] := by
  rw [Queue.send_eq]
  split
  · rename_i hrefused
    have hnone : Session.controls [e] = [] := List.filter_cons_of_neg (by simp [hrefused.1])
    rw [hnone, List.append_nil]
  · exact List.filter_append _ _

namespace Agree

variable {h h' : Host}

theorem refl (h : Host) : Agree h h :=
  ⟨rfl, rfl, rfl, rfl⟩

/-- Following what came of the session keeps hosts alike. -/
theorem after (ha : Agree h h') {r r' : Session × List Effect} (hr : Session.Alike r r') :
    Agree (h.after r).1 (h'.after r').1 := by
  obtain ⟨hsession, hqueue, -⟩ := h.after_eq r
  obtain ⟨hsession', hqueue', -⟩ := h'.after_eq r'
  have hnote :=
    @note_withoutHats r.2 { h with session := r.1 } { h' with session := r'.1 } ha.clients
      ha.requests
  have hnote' :=
    @note_withoutHats r'.2 { h' with session := r'.1 } { h' with session := r'.1 } rfl rfl
  rw [hr.effects] at hnote
  refine ⟨?_, hnote.1.trans hnote'.1.symm, hnote.2.trans hnote'.2.symm, ?_⟩
  · rw [hsession, hsession']
    exact hr.session
  · rw [hqueue, hqueue']
    exact ha.waiting

/-- An operation of the session keeps hosts alike, and does the same but for hats. -/
theorem call (ha : Agree h h') (op : Session.Operation) :
    Agree (h.call op).1 (h'.call op).1 ∧
      withoutHats (h.call op).2 = withoutHats (h'.call op).2 := by
  have hop : Session.Alike (h.session.operate op) (h'.session.operate op) :=
    .operate ha.session op
  rw [call_eq, call_eq]
  exact ⟨ha.after hop, hop.effects⟩

/-- **What waits is handled alike**: the messages among it only deliver. -/
theorem process (ha : Agree h h') :
    Agree h.process.2.1 h'.process.2.1 ∧
      withoutHats h.process.2.2 = withoutHats h'.process.2.2 := by
  obtain ⟨htaken, hleft⟩ := h.queue.drain_eq
  obtain ⟨htaken', hleft'⟩ := h'.queue.drain_eq
  have hevents : Session.Alike (h.session.handleAll h.queue.drain.1)
      (h'.session.handleAll h'.queue.drain.1) := by
    rw [htaken, htaken']
    refine .trans (.handleAll_controls _ _) (.trans ?_ (.symm (.handleAll_controls _ _)))
    rw [ha.waiting]
    exact .handleAll ha.session _
  have hdrained : Agree { h with queue := h.queue.drain.2 } { h' with queue := h'.queue.drain.2 } :=
    ⟨ha.session, ha.clients, ha.requests, by rw [hleft, hleft']⟩
  exact ⟨hdrained.after hevents, hevents.effects⟩

/-- The same event posted to both keeps hosts alike. -/
theorem post (ha : Agree h h') (client : Nat) (event : Event) :
    Agree (h.post client event).2 (h'.post client event).2 := by
  have hclient : h.clients[client]? = h'.clients[client]? := by rw [ha.clients]
  rw [Host.post, Host.post]
  cases hg : h'.clients[client]? with
  | none =>
    rw [hclient, hg]
    exact ha
  | some g =>
    rw [hclient, hg]
    refine ⟨ha.session, ha.clients, ha.requests, ?_⟩
    show Session.controls (Queue.send _ _).2.events = Session.controls (Queue.send _ _).2.events
    rw [controls_send, controls_send, ha.waiting]

/-- A message posted on one side only changes nothing. -/
theorem post_message (ha : Agree h h') (client : Nat) (topic payload : String) :
    Agree (h.post client (.message topic payload)).2 h' := by
  rw [Host.post]
  cases h.clients[client]? with
  | none => exact ha
  | some g =>
    refine ⟨ha.session, ha.clients, ha.requests, ?_⟩
    show Session.controls (Queue.send _ _).2.events = _
    rw [controls_send, ha.waiting]
    exact List.append_nil _

/-- The same result taken from both keeps hosts alike. -/
theorem take (ha : Agree h h') (request : Nat) :
    Agree (h.take request).2 (h'.take request).2 := by
  rw [Host.take, Host.take, ← ha.requests]
  split
  · exact ⟨ha.session, ha.clients, rfl, ha.waiting⟩
  · exact ha

end Agree

/-! ### Runs -/

/-- Whether an operation leaves the queue alone, but for posting to it and handling all that
waits. -/
def Operation.isOrdinary : Operation → Bool
  | .call _ | .process | .post .. | .take _ => true
  | .pump | .receive => false

/-- One operation on hosts that agree. -/
theorem Agree.operate {h h' : Host} (ha : Agree h h') {op : Operation}
    (hop : op.isOrdinary = true) :
    Agree (h.operate op).1 (h'.operate op).1 ∧
      withoutHats (h.operate op).2 = withoutHats (h'.operate op).2 := by
  cases op with
  | call op => exact ha.call op
  | process => exact ha.process
  | post client event => exact ⟨ha.post client event, rfl⟩
  | take request => exact ⟨ha.take request, rfl⟩
  | pump => exact nomatch hop
  | receive => exact nomatch hop

/-- The second run is the first one without some of its posts of messages. -/
inductive Thinned : List Operation → List Operation → Prop
  | nil : Thinned [] []
  | keep {ops ops' : List Operation} (op : Operation) (hop : op.isOrdinary = true)
      (h : Thinned ops ops') : Thinned (op :: ops) (op :: ops')
  | drop {ops ops' : List Operation} (client : Nat) (topic payload : String)
      (h : Thinned ops ops') : Thinned (.post client (.message topic payload) :: ops) ops'

namespace Thinned

/-- Each point of the first run has its point in the second. -/
theorem split {before after ops' : List Operation} (h : Thinned (before ++ after) ops') :
    ∃ before' after', ops' = before' ++ after' ∧ Thinned before before' ∧ Thinned after after' := by
  induction before generalizing ops' with
  | nil => exact ⟨[], ops', rfl, .nil, h⟩
  | cons op before ih =>
    cases h with
    | keep _ hop h =>
      obtain ⟨before', after', rfl, hbefore, hafter⟩ := ih h
      exact ⟨op :: before', after', rfl, .keep op hop hbefore, hafter⟩
    | drop client topic payload h =>
      obtain ⟨before', after', rfl, hbefore, hafter⟩ := ih h
      exact ⟨before', after', rfl, .drop client topic payload hbefore, hafter⟩

/-- **Runs that differ in posts of messages keep hosts in agreement.** -/
theorem run {ops ops' : List Operation} (h : Thinned ops ops') {host host' : Host}
    (ha : Agree host host') :
    Agree (host.run ops).1 (host'.run ops').1 ∧
      withoutHats (host.run ops).2.flatten = withoutHats (host'.run ops').2.flatten := by
  induction h generalizing host host' with
  | nil => exact ⟨ha, rfl⟩
  | keep op hop _ ih =>
    obtain ⟨hfirst, heffects⟩ := ha.operate hop
    obtain ⟨hothers, heffects'⟩ := ih hfirst
    refine ⟨hothers, ?_⟩
    rw [run_cons, run_cons, List.flatten_cons, List.flatten_cons, withoutHats_append,
      withoutHats_append, heffects, heffects']
  | drop client topic payload _ ih => exact ih (ha.post_message client topic payload)

end Thinned

/-- **Message traffic does not influence the connection.**  Leave out any of the posts of messages
in a run of a fresh host.  Then every point of the run has a point in the shorter one at which

* the sessions differ in nothing but the last message, so state, retries, generation, client and
  pending request are the same,
* the same clients have been opened, and each connect request stands the same,
* the same calls were made on the connector and the clients, and the same requests were settled, in
  the same order. -/
theorem run_thinned (settings : SessionSettings) {before after ops' : List Operation}
    (h : Thinned (before ++ after) ops') :
    ∃ before' after', ops' = before' ++ after' ∧ Thinned before before' ∧ Thinned after after' ∧
      let full := (start settings).run before
      let thin := (start settings).run before'
      thin.1.session = { full.1.session with message := thin.1.session.message } ∧
        thin.1.clients = full.1.clients ∧ thin.1.requests = full.1.requests ∧
        withoutHats thin.2.flatten = withoutHats full.2.flatten := by
  obtain ⟨before', after', rfl, hbefore, hafter⟩ := h.split
  obtain ⟨hagree, heffects⟩ := hbefore.run (.refl (start settings))
  exact ⟨before', after', rfl, hbefore, hafter, Session.eq_of_quiet_eq hagree.session,
    hagree.clients.symm, hagree.requests.symm, heffects.symm⟩

/-- An acknowledgement behind a message settles the request as it does without the message. -/
theorem run_thinned_acknowledgement :
    Thinned [.call (.connect "a" "id" none none), .post 0 (.message "t" "p"), .post 0 .connected,
        .process] [.call (.connect "a" "id" none none), .post 0 .connected, .process] ∧
      ((start {}).run [.call (.connect "a" "id" none none), .post 0 (.message "t" "p"),
        .post 0 .connected, .process]).1.requests = [.settled none] := by
  have hthinned : Thinned ([.call (.connect "a" "id" none none), .post 0 (.message "t" "p"),
        .post 0 .connected, .process] ++ [])
      [.call (.connect "a" "id" none none), .post 0 .connected, .process] :=
    .keep _ rfl (.drop 0 "t" "p" (.keep _ rfl (.keep _ rfl .nil)))
  obtain ⟨before', after', hops, -, hafter, -, -, hrequests, -⟩ := run_thinned {} hthinned
  cases hafter
  rw [List.append_nil] at hops
  subst hops
  exact ⟨hthinned, hrequests.symm.trans (by decide +kernel)⟩

end Host
end Link
end BoardBlocks
