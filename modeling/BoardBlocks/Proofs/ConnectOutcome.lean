/-
# How a connect request ends

The first decisive one of the operations after a connect settles its request, and nothing else does.

| operation | result |
| --- | --- |
| the client of the request is connected | the connection is up |
| that client reconnects once more than is tolerated | the retry budget is exceeded |
| another connect, or an end | superseded |
-/

import BoardBlocks.Proofs.SessionRuns

namespace BoardBlocks
namespace Link
namespace Session

/-- How often the client of a generation reported a reconnect. -/
def reconnects (g : UInt32) (ops : List Operation) : Nat :=
  ops.countP fun op => op = .handle ⟨g, .reconnect⟩

/-- What an operation decides about the request of generation `g`; `seen` are the operations between
the connect and this one. -/
def decision (limit g : UInt32) (seen : List Operation) : Operation → Option Settlement
  | .connect .. | .finish => some (some .superseded)
  | .handle ⟨g', .connected⟩ => if g' = g then some none else none
  | .handle ⟨g', .reconnect⟩ =>
    if g' = g ∧ reconnects g seen = limit.toNat then some (some .retryBudgetExceeded) else none
  | _ => none

/-- The place of the first decisive operation after a connect, and what it decides. -/
def firstDecision (limit g : UInt32) (seen : List Operation) :
    List Operation → Option (Nat × Settlement)
  | [] => none
  | op :: ops =>
    match decision limit g seen op with
    | some result => some (seen.length, result)
    | none => firstDecision limit g (seen ++ [op]) ops

/-- The results that effects settle a request with. -/
def settledBy (k : Nat) (effects : List Effect) : List Settlement :=
  effects.filterMap fun
    | .settled request result => if request = k then some result else none
    | _ => none

/-- The results that a run settles a request with, each with the place of its operation. -/
def settlements (k : Nat) (effects : List (List Effect)) : List (Nat × Settlement) :=
  effects.zipIdx.flatMap fun (es, i) => (settledBy k es).map (i, ·)

/-- One more operation decides only if none before it has. -/
theorem firstDecision_concat (limit g : UInt32) (seen ops : List Operation) (op : Operation) :
    firstDecision limit g seen (ops ++ [op]) =
      (firstDecision limit g seen ops).or
        ((decision limit g (seen ++ ops) op).map ((seen ++ ops).length, ·)) := by
  induction ops generalizing seen with
  | nil =>
    rw [List.nil_append, firstDecision, firstDecision, List.append_nil]
    cases decision limit g seen op <;> rfl
  | cons op' ops ih =>
    rw [List.cons_append, firstDecision, firstDecision]
    cases decision limit g seen op' with
    | some result => rfl
    | none =>
      show firstDecision limit g (seen ++ [op']) (ops ++ [op]) = _
      rw [ih, List.append_assoc, List.singleton_append]

/-- Results of a run that comes later are found that much later. -/
theorem settlements_append (k : Nat) (effects effects' : List (List Effect)) :
    settlements k (effects ++ effects') =
      settlements k effects ++
        (settlements k effects').map fun (i, result) => (effects.length + i, result) := by
  rw [settlements, List.zipIdx_append, List.flatMap_append, Nat.zero_add,
    List.zipIdx_eq_map_add (l := effects')]
  simp only [settlements, List.flatMap_map, List.map_flatMap, List.map_map, Function.comp_def,
    Nat.add_comm]

theorem settlements_singleton (k : Nat) (es : List Effect) :
    settlements k [es] = (settledBy k es).map (0, ·) := by
  simp [settlements]

/-- One more operation adds its results at its own place. -/
theorem settlements_concat (k : Nat) (effects : List (List Effect)) (es : List Effect) :
    settlements k (effects ++ [es]) =
      settlements k effects ++ (settledBy k es).map (effects.length, ·) := by
  rw [settlements_append, settlements_singleton, List.map_map]
  rfl

theorem settledBy_append (k : Nat) (es es' : List Effect) :
    settledBy k (es ++ es') = settledBy k es ++ settledBy k es' :=
  List.filterMap_append

@[simp] theorem settledBy_ended (k : Nat) (client : Option UInt32) :
    settledBy k (client.toList.map .ended) = [] := by
  cases client <;> rfl

/-- Settling the request that waits is a result for it and for no other. -/
theorem settledBy_pending (k : Nat) (pending : Option Nat) (result : Settlement) :
    settledBy k (pending.toList.map (.settled · result)) =
      if pending = some k then [result] else [] := by
  cases pending with
  | none => rfl
  | some request => by_cases h : request = k <;> simp [settledBy, h]

/-! ### Requests that do not wait -/

/-- An end supersedes the request that waits. -/
theorem settledBy_finish (s : Session) (k : Nat) :
    settledBy k s.finish.2 = if s.pending = some k then [some .superseded] else [] := by
  rw [finish_eq, settledBy_append, settledBy_ended, List.nil_append, settledBy_pending]

/-- So does another connect. -/
theorem settledBy_connect (s : Session) (k : Nat) (server clientId : String)
    (username password : Option String) :
    settledBy k (s.connect server clientId username password).2 =
      if s.pending = some k then [some .superseded] else [] := by
  rw [connect_eq, settledBy_append, settledBy_finish]
  exact List.append_nil _

theorem settledBy_publish (s : Session) (k : Nat) (topic payload : String) :
    settledBy k (s.publish topic payload).2 = [] := by
  rw [publish_eq]
  cases s.client <;> rfl

theorem settledBy_subscribe (s : Session) (k : Nat) (topic : String) :
    settledBy k (s.subscribe topic).2 = [] := by
  rw [subscribe_eq]
  cases s.client <;> rfl

/-- What an event does to a request that does not wait: nothing. -/
theorem perform_of_pending_ne {s : Session} {k : Nat} (h : s.pending ≠ some k) (action : Action) :
    settledBy k (s.perform action).2 = [] ∧ (s.perform action).1.pending ≠ some k := by
  cases action with
  | none => exact ⟨rfl, h⟩
  | deliver topic payload => exact ⟨rfl, h⟩
  | resolve =>
    rw [perform, settle_eq, settledBy_pending, if_neg h]
    exact ⟨rfl, (Option.some_ne_none k).symm⟩
  | giveUp attempts =>
    simp only [perform, endClient_eq, settle_eq, settledBy_append, settledBy_ended,
      settledBy_pending, if_neg h]
    exact ⟨rfl, (Option.some_ne_none k).symm⟩

/-- An event settles no request but the one that waits, and makes none wait. -/
theorem handle_of_pending_ne {s : Session} {k : Nat} (h : s.pending ≠ some k) (e : TaggedEvent) :
    settledBy k (s.handle e).2 = [] ∧ (s.handle e).1.pending ≠ some k := by
  unfold handle
  split
  · obtain ⟨state, action⟩ := step s.settings.maxReconnectAttempts s.state e.event
    exact perform_of_pending_ne (s := { s with state }) h action
  · exact ⟨rfl, h⟩

/-- Only a request that waits is settled. -/
theorem settledBy_operate_of_ne {s : Session} {k : Nat} (h : s.pending ≠ some k) (op : Operation) :
    settledBy k (s.operate op).2 = [] := by
  cases op with
  | connect server clientId username password => exact (settledBy_connect s k ..).trans (if_neg h)
  | handle e => exact (handle_of_pending_ne h e).1
  | publish topic payload => exact settledBy_publish s k topic payload
  | subscribe topic => exact settledBy_subscribe s k topic
  | finish => exact (settledBy_finish s k).trans (if_neg h)

/-- A request that has been made and does not wait never waits again. -/
theorem pending_operate_ne {s : Session} {k : Nat} (h : s.pending ≠ some k) (hk : k < s.requests)
    (op : Operation) : (s.operate op).1.pending ≠ some k := by
  cases op with
  | connect server clientId username password =>
    rw [operate, connect_eq]
    exact fun h => Nat.lt_irrefl k (Option.some.inj h ▸ hk)
  | handle e => exact (handle_of_pending_ne h e).2
  | publish topic payload => exact h
  | subscribe topic => exact h
  | finish =>
    rw [operate, finish_eq]
    exact (Option.some_ne_none k).symm

/-- Before its connect comes, a request is settled by nothing. -/
theorem settlements_run_of_le {s : Session} (h : s.Sound) {k : Nat} {ops : List Operation}
    (hk : s.requests + connects ops ≤ k) : settlements k (s.run ops).2 = [] := by
  induction ops using List.reverseRecOn with
  | nil => rfl
  | append_singleton ops op ih =>
    have hcount : connects (ops ++ [op]) = connects ops + connects [op] := List.countP_append
    have hrequests := (s.run_counters ops).2.1
    have hpending : (s.run ops).1.pending ≠ some k := fun hp => by
      have := (h.run ops).pending_lt k hp
      omega
    rw [run_concat, settlements_concat, ih (by omega), settledBy_operate_of_ne hpending]
    rfl

/-! ### The request that waits -/

/-- The session while request `k` waits for the client of generation `g`, and `seen` came after the
connect. -/
structure Awaits (s : Session) (k : Nat) (g : UInt32) (seen : List Operation) : Prop where
  pending : s.pending = some k
  client : s.client = some g
  generation : s.generation = g
  isLive : s.state.isLive = true
  retryCount : s.state.retryCount.toNat = reconnects g seen
  retryCount_le : s.state.retryCount ≤ s.settings.maxReconnectAttempts
  request_lt : k < s.requests

/-- A connect makes its request wait for the client that it opens. -/
theorem Awaits.connect (s : Session) (server clientId : String)
    (username password : Option String) :
    (s.connect server clientId username password).1.Awaits s.requests (s.generation + 1) [] := by
  rw [connect_eq]
  exact ⟨rfl, rfl, rfl, rfl, rfl, UInt32.zero_le, Nat.lt_succ_self _⟩

/-- An operation that is no reconnect of the client is only one more seen. -/
theorem Awaits.concat {s : Session} {k : Nat} {g : UInt32} {seen : List Operation}
    (h : s.Awaits k g seen) {op : Operation} (hop : op ≠ .handle ⟨g, .reconnect⟩) :
    s.Awaits k g (seen ++ [op]) := by
  have hcount : reconnects g (seen ++ [op]) = reconnects g seen := by
    simp [reconnects, hop]
  exact { h with retryCount := hcount ▸ h.retryCount }

theorem reconnects_concat (g : UInt32) (seen : List Operation) :
    reconnects g (seen ++ [.handle ⟨g, .reconnect⟩]) = reconnects g seen + 1 := by
  simp [reconnects]

/-- The next number, where there is one. -/
theorem toNat_saturatingSucc {n : UInt32} (h : n < 0xFFFFFFFF) :
    (saturatingSucc n).toNat = n.toNat + 1 := by
  have hlt : n.toNat < 4294967295 := h
  rw [saturatingSucc, if_neg (UInt32.ne_of_lt h), UInt32.toNat_add, UInt32.toNat_one]
  exact Nat.mod_eq_of_lt (by omega)

/-- What an operation does while a request waits: it settles the request as it decides, or leaves it
waiting. -/
def Continues (s : Session) (k : Nat) (g : UInt32) (seen : List Operation) (op : Operation) :
    Prop :=
  match decision s.settings.maxReconnectAttempts g seen op with
  | some result => settledBy k (s.operate op).2 = [result] ∧ (s.operate op).1.pending ≠ some k
  | none => settledBy k (s.operate op).2 = [] ∧ (s.operate op).1.Awaits k g (seen ++ [op])

variable {s : Session} {k : Nat} {g : UInt32} {seen : List Operation}

/-- One reconnect. -/
theorem Awaits.reconnect (h : s.Awaits k g seen)
    (hlimit : s.settings.maxReconnectAttempts < 0xFFFFFFFF) :
    s.Continues k g seen (.handle ⟨g, .reconnect⟩) := by
  have hears : s.Hears ⟨g, .reconnect⟩ := ⟨h.generation.symm, by rw [h.client]; rfl⟩
  have hsucc := toNat_saturatingSucc (UInt32.lt_of_le_of_lt h.retryCount_le hlimit)
  have hle := UInt32.le_iff_toNat_le.1 h.retryCount_le
  rw [h.retryCount] at hsucc hle
  simp only [Continues, decision, true_and, operate, handle_of_hears hears h.isLive,
    UInt32.lt_iff_toNat_lt, hsucc]
  by_cases hn : reconnects g seen = s.settings.maxReconnectAttempts.toNat
  · rw [if_pos hn, if_pos (by omega)]
    simp only [settledBy_append, settledBy_ended, settledBy_pending, h.pending, if_pos]
    exact ⟨rfl, (Option.some_ne_none k).symm⟩
  · rw [if_neg hn, if_neg (by omega)]
    refine ⟨rfl, h.pending, h.client, h.generation, rfl, ?_, ?_, h.request_lt⟩
    · rw [reconnects_concat]
      exact hsucc
    · refine UInt32.le_iff_toNat_le.2 ?_
      show (saturatingSucc _).toNat ≤ s.settings.maxReconnectAttempts.toNat
      omega

/-- An event of another client decides nothing. -/
theorem decision_of_ne {limit g : UInt32} {e : TaggedEvent} (h : e.generation ≠ g)
    (seen : List Operation) : decision limit g seen (.handle e) = none := by
  obtain ⟨g', event⟩ := e
  cases event with
  | connected => exact if_neg h
  | reconnect => exact if_neg fun h' => h h'.1
  | _ => rfl

/-- One event. -/
theorem Awaits.handle (h : s.Awaits k g seen)
    (hlimit : s.settings.maxReconnectAttempts < 0xFFFFFFFF) (e : TaggedEvent) :
    s.Continues k g seen (.handle e) := by
  by_cases hg : e.generation = g
  · obtain ⟨g', event⟩ := e
    obtain rfl : g' = g := hg
    have hears : s.Hears ⟨g', event⟩ := ⟨h.generation.symm, by rw [h.client]; rfl⟩
    cases event with
    | connected =>
      rw [Continues, decision, if_pos rfl, operate, handle_of_hears hears h.isLive]
      exact ⟨(settledBy_pending k _ _).trans (if_pos h.pending),
        (Option.some_ne_none k).symm⟩
    | reconnect => exact h.reconnect hlimit
    | message topic payload =>
      simp only [Continues, decision, operate, handle_of_hears hears h.isLive]
      refine ⟨rfl, Awaits.concat ?_ (by simp)⟩
      exact ⟨h.pending, h.client, h.generation, h.isLive, h.retryCount, h.retryCount_le,
        h.request_lt⟩
    | error text =>
      simp only [Continues, decision, operate, handle_of_hears hears h.isLive]
      exact ⟨rfl, h.concat (by simp)⟩
    | closed =>
      simp only [Continues, decision, operate, handle_of_hears hears h.isLive]
      exact ⟨rfl, h.concat (by simp)⟩
  · have hears : ¬ s.Hears e := fun hears => hg (hears.1.trans h.generation)
    have hop : Operation.handle e ≠ .handle ⟨g, .reconnect⟩ := by
      rintro heq
      obtain rfl := Operation.handle.inj heq
      exact hg rfl
    simp only [Continues, decision_of_ne hg, operate, handle_of_not_hears hears]
    exact ⟨rfl, h.concat hop⟩

/-- **One operation after a connect** settles its request exactly if it is decisive. -/
theorem Awaits.operate (h : s.Awaits k g seen)
    (hlimit : s.settings.maxReconnectAttempts < 0xFFFFFFFF) (op : Operation) :
    s.Continues k g seen op := by
  cases op with
  | connect server clientId username password =>
    refine ⟨(settledBy_connect s k ..).trans (if_pos h.pending), ?_⟩
    rw [Session.operate, connect_eq]
    exact fun hk => Nat.lt_irrefl k (Option.some.inj hk ▸ h.request_lt)
  | handle e => exact h.handle hlimit e
  | publish topic payload => exact ⟨settledBy_publish s k topic payload, h.concat (by simp)⟩
  | subscribe topic => exact ⟨settledBy_subscribe s k topic, h.concat (by simp)⟩
  | finish =>
    refine ⟨(settledBy_finish s k).trans (if_pos h.pending), ?_⟩
    rw [Session.operate, finish_eq]
    exact (Option.some_ne_none k).symm

/-- The settlements in a run from a session whose request waits. -/
theorem Awaits.run (h : s.Awaits k g []) (hlimit : s.settings.maxReconnectAttempts < 0xFFFFFFFF)
    (ops : List Operation) :
    settlements k (s.run ops).2 =
        (firstDecision s.settings.maxReconnectAttempts g [] ops).toList ∧
      match firstDecision s.settings.maxReconnectAttempts g [] ops with
      | none => (s.run ops).1.Awaits k g ops
      | some _ => (s.run ops).1.pending ≠ some k := by
  induction ops using List.reverseRecOn with
  | nil => exact ⟨rfl, h⟩
  | append_singleton ops op ih =>
    obtain ⟨hsettled, hstate⟩ := ih
    have hsettings := (s.run_counters ops).1
    rw [run_concat, settlements_concat, hsettled, firstDecision_concat, List.nil_append,
      length_run]
    cases hfirst : firstDecision s.settings.maxReconnectAttempts g [] ops with
    | some first =>
      -- Decided before: the request is past, and no operation settles it again.
      rw [hfirst] at hstate
      have hrequest : k < (s.run ops).1.requests := by
        have := (s.run_counters ops).2.1
        have := h.request_lt
        omega
      rw [settledBy_operate_of_ne hstate]
      exact ⟨rfl, pending_operate_ne hstate hrequest op⟩
    | none =>
      -- The request still waits, so this operation decides it or leaves it waiting.
      rw [hfirst] at hstate
      have hnext := hstate.operate (hsettings ▸ hlimit) op
      unfold Continues at hnext
      rw [hsettings] at hnext
      cases hdecision : decision s.settings.maxReconnectAttempts g ops op with
      | some result =>
        rw [hdecision] at hnext
        exact ⟨by rw [hnext.1]; rfl, hnext.2⟩
      | none =>
        rw [hdecision] at hnext
        exact ⟨by rw [hnext.1]; rfl, hnext.2⟩

/-- Once another connect has come, something has decided. -/
theorem firstDecision_ne_none {limit : UInt32} {seen ops : List Operation}
    (h : 0 < connects ops) : firstDecision limit g seen ops ≠ none := by
  induction ops generalizing seen with
  | nil => exact absurd h (Nat.lt_irrefl 0)
  | cons op ops ih =>
    rw [firstDecision]
    cases hdecision : decision limit g seen op with
    | some result => exact Option.some_ne_none _
    | none =>
      refine ih ?_
      cases op with
      | connect server clientId username password => exact nomatch hdecision
      | _ => exact h

/-- The settlements in a run that starts with a connect. -/
theorem Sound.run_connect (h : s.Sound) (hlimit : s.settings.maxReconnectAttempts < 0xFFFFFFFF)
    (server clientId : String) (username password : Option String) (after : List Operation) :
    let final := s.run (.connect server clientId username password :: after)
    let first := firstDecision s.settings.maxReconnectAttempts (s.generation + 1) [] after
    settlements s.requests final.2 = first.toList.map (fun (i, result) => (1 + i, result)) ∧
      (final.1.pending = some s.requests ↔ first = none) := by
  intro final first
  obtain ⟨op, hop⟩ : ∃ op, op = Operation.connect server clientId username password := ⟨_, rfl⟩
  have hsettings := (s.operate_counters op).1
  have hnew : (s.operate op).1.Awaits s.requests (s.generation + 1) [] :=
    hop ▸ Awaits.connect s server clientId username password
  have hrun := hnew.run (hsettings ▸ hlimit) after
  rw [hsettings] at hrun
  obtain ⟨hsettled, hstate⟩ := hrun
  have hold : s.pending ≠ some s.requests := fun hp => Nat.lt_irrefl _ (h.pending_lt _ hp)
  have hfinal : final = s.run (op :: after) := by rw [hop]
  rw [hfinal, Session.run_cons]
  constructor
  · show settlements s.requests ([_] ++ _) = _
    rw [settlements_append, settlements_singleton, settledBy_operate_of_ne hold, hsettled]
    rfl
  · show ((s.operate op).1.run after).1.pending = _ ↔ _
    cases hfirst : firstDecision s.settings.maxReconnectAttempts (s.generation + 1) [] after with
    | none =>
      rw [hfirst] at hstate
      exact iff_of_true hstate.pending hfirst
    | some first =>
      rw [hfirst] at hstate
      exact iff_of_false hstate fun hnone => nomatch hfirst.symm.trans hnone

/-- **How a connect request ends.**  Over any run of a fresh session the request of a connect is
settled by the first decisive operation after it, with the result that this operation decides, and
by no other.  Until there is one it waits; where another connect follows there is one. -/
theorem settlements_connect {settings : SessionSettings}
    (hlimit : settings.maxReconnectAttempts < 0xFFFFFFFF) (before after : List Operation)
    (server clientId : String) (username password : Option String) :
    let connected := run { settings } (before ++ [.connect server clientId username password])
    let final := run { settings } (before ++ .connect server clientId username password :: after)
    let first := firstDecision settings.maxReconnectAttempts connected.1.generation [] after
    settlements (connects before) final.2 =
        first.toList.map (fun (i, result) => (before.length + (1 + i), result)) ∧
      (final.1.pending = some (connects before) ↔ first = none) ∧
      (0 < connects after → first ≠ none) := by
  intro connected final first
  have hsound := (Sound.start settings).run before
  obtain ⟨hsettings, hrequests, -⟩ := run_counters { settings } before
  rw [Nat.zero_add] at hrequests
  obtain ⟨hsettled, hpending⟩ :=
    hsound.run_connect (hsettings ▸ hlimit) server clientId username password after
  have hfirst : firstDecision (run { settings } before).1.settings.maxReconnectAttempts
      ((run { settings } before).1.generation + 1) [] after = first := by
    rw [hsettings]
    show _ = firstDecision _ (run _ (_ ++ _)).1.generation _ _
    rw [run_concat, Session.operate, connect_eq]
  rw [hfirst, hrequests] at hsettled hpending
  have hfinal : final = _ := run_append _ _ _
  refine ⟨?_, ?_, firstDecision_ne_none⟩
  · rw [hfinal, settlements_append, hsettled, length_run,
      settlements_run_of_le (Sound.start settings) (Nat.le_of_eq (Nat.zero_add _)), List.map_map]
    rfl
  · rw [hfinal]
    exact hpending

/-- With one reconnect tolerated, the second one of the present client gives the second request up;
the report of the client before, and the end that comes later, settle nothing. -/
theorem settlements_connect_second_reconnect :
    ({ maxReconnectAttempts := 1 } : SessionSettings).maxReconnectAttempts < 0xFFFFFFFF ∧
      settlements 1 (run { settings := { maxReconnectAttempts := 1 } }
        [.connect "a" "id" none none, .connect "b" "id" none none, .handle ⟨1, .connected⟩,
          .handle ⟨2, .reconnect⟩, .handle ⟨2, .message "t" "p"⟩, .handle ⟨2, .reconnect⟩,
          .finish]).2 = [(5, some .retryBudgetExceeded)] := by
  refine ⟨by decide, ?_⟩
  have h := @settlements_connect { maxReconnectAttempts := 1 } (by decide)
    [.connect "a" "id" none none]
    [.handle ⟨1, .connected⟩, .handle ⟨2, .reconnect⟩, .handle ⟨2, .message "t" "p"⟩,
      .handle ⟨2, .reconnect⟩, .finish] "b" "id" none none
  exact h.1.trans (by decide +kernel)

end Session
end Link
end BoardBlocks
