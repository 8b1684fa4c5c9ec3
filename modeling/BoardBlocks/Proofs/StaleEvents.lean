/-
# Events of clients that are past

A client goes on posting events after another one has taken its place.  Such events are not those of
the client at work, and they do nothing: a run is the same without them.

They are told by their generation.  The clients of a run are numbered 1, 2, 3 and so on, up to 2³²,
so a client that is past is taken for the one at work only if 2³² connects, or a multiple of that,
came after its own.
-/

import BoardBlocks.Proofs.HostRuns

namespace BoardBlocks
namespace Link

/-- The generations of the clients that effects open, in order. -/
def openedBy (effects : List Effect) : List UInt32 :=
  effects.filterMap fun
    | .opened generation _ _ => some generation
    | _ => none

theorem openedBy_append (effects effects' : List Effect) :
    openedBy (effects ++ effects') = openedBy effects ++ openedBy effects' :=
  List.filterMap_append

namespace Session

theorem openedBy_of_isClosing {effects : List Effect} (h : ∀ e ∈ effects, e.isClosing = true) :
    openedBy effects = [] := by
  refine List.filterMap_eq_nil_iff.2 fun e he => ?_
  have hclosing := h e he
  cases e with
  | ended g => rfl
  | settled request result => rfl
  | _ => exact nomatch hclosing

/-- An action opens no client. -/
theorem openedBy_perform (s : Session) (action : Action) : openedBy (s.perform action).2 = [] := by
  cases action with
  | none => rfl
  | deliver topic payload => rfl
  | resolve =>
    rw [perform, settle_eq]
    exact openedBy_of_isClosing (isClosing_settled _ _)
  | giveUp attempts =>
    simp only [perform, endClient_eq, settle_eq]
    exact openedBy_of_isClosing (isClosing_ended_settled _ _ _)

/-- Events open no client. -/
theorem openedBy_handle (s : Session) (e : TaggedEvent) : openedBy (s.handle e).2 = [] := by
  unfold handle
  split
  · exact openedBy_perform _ _
  · rfl

/-- A connect opens one client, and nothing else does. -/
theorem openedBy_operate (s : Session) (op : Operation) :
    openedBy (s.operate op).2 = if op.isConnect then [s.generation + 1] else [] := by
  cases op with
  | connect server clientId username password =>
    rw [operate, connect_eq, openedBy_append, openedBy_of_isClosing s.isClosing_finish]
    rfl
  | handle e => exact s.openedBy_handle e
  | publish topic payload =>
    rw [operate, publish_eq]
    cases s.client <;> rfl
  | subscribe topic =>
    rw [operate, subscribe_eq]
    cases s.client <;> rfl
  | finish => exact openedBy_of_isClosing s.isClosing_finish

/-- **The clients of a run are numbered.** -/
theorem openedBy_run (s : Session) (ops : List Operation) :
    openedBy (s.run ops).2.flatten =
      (List.range (connects ops)).map fun i => s.generation + .ofNat (i + 1) := by
  induction ops using List.reverseRecOn with
  | nil => rfl
  | append_singleton ops op ih =>
    have hgeneration := (s.run_counters ops).2.2
    have hconnects : connects (ops ++ [op]) = connects ops + if op.isConnect then 1 else 0 := by
      rw [connects, List.countP_append, List.countP_singleton, connects]
    rw [run_concat, List.flatten_concat, openedBy_append, ih, openedBy_operate, hconnects,
      hgeneration]
    cases op.isConnect with
    | true => simp [List.range_succ, UInt32.ofNat_add, UInt32.add_assoc]
    | false => simp

end Session

namespace Host

/-! ### The clients of a host -/

/-- The clients of a host grow by those that its session opens. -/
theorem clients_after (h : Host) (result : Session × List Effect) :
    (h.after result).1.clients = h.clients ++ openedBy result.2 := by
  have hfold (effects : List Effect) (h : Host) :
      (effects.foldl note h).clients = h.clients ++ openedBy effects := by
    induction effects generalizing h with
    | nil => exact (List.append_nil _).symm
    | cons e effects ih =>
      rw [List.foldl_cons, ih]
      cases e with
      | opened generation url options =>
        exact List.append_assoc _ _ _
      | _ => rfl
  exact hfold _ _

/-- Pumping lets the clients grow by those that are opened on the way. -/
theorem clients_pumpMany (count : Nat) (h : Host) :
    (pumpMany count h).2.1.clients = h.clients ++ openedBy (pumpMany count h).2.2 := by
  induction count generalizing h with
  | zero => exact (List.append_nil _).symm
  | succ count ih =>
    rw [pumpMany]
    obtain ⟨e, queue⟩ := h.queue.poll
    cases e with
    | none => exact (List.append_nil _).symm
    | some e =>
      show (pumpMany count _).2.1.clients = h.clients ++ openedBy (_ ++ _)
      rw [ih, openedBy_append, ← List.append_assoc]
      exact congrArg (· ++ _) (clients_after { h with queue } (h.session.handle e))

/-- An operation lets the clients grow by those that it opens. -/
theorem clients_operate (h : Host) (op : Operation) :
    (h.operate op).1.clients = h.clients ++ openedBy (h.operate op).2 := by
  cases op with
  | call op =>
    rw [operate, call_eq]
    exact h.clients_after _
  | process => exact clients_after { h with queue := h.queue.drain.2 } _
  | pump => exact clients_pumpMany _ h
  | post client event =>
    rw [operate, post]
    cases h.clients[client]? <;> exact (List.append_nil _).symm
  | receive => exact (List.append_nil _).symm
  | take request =>
    rw [operate, take]
    split <;> exact (List.append_nil _).symm

/-- A run lets the clients grow by those that it opens. -/
theorem clients_run (h : Host) (ops : List Operation) :
    (h.run ops).1.clients = h.clients ++ openedBy (h.run ops).2.flatten := by
  induction ops generalizing h with
  | nil => exact (List.append_nil _).symm
  | cons op ops ih =>
    rw [run_cons, List.flatten_cons, openedBy_append, ih, clients_operate, List.append_assoc]

/-- The clients of a host have the numbers from 1 on as generations, and the last one has the
present generation. -/
structure Numbered (h : Host) : Prop where
  generation_eq : h.session.generation = .ofNat h.clients.length
  getElem?_clients : ∀ i < h.clients.length, h.clients[i]? = some (.ofNat (i + 1))

/-- **The clients of a host are numbered.** -/
theorem Numbered.run (settings : SessionSettings) (ops : List Operation) :
    ((start settings).run ops).1.Numbered := by
  obtain ⟨hsession, heffects⟩ := (start settings).run_eq_run ops
  have hgeneration :=
    ((start settings).session.run_counters ((start settings).sessionRun ops)).2.2
  have hclients : ((start settings).run ops).1.clients =
      (List.range (Session.connects ((start settings).sessionRun ops))).map
        fun i => .ofNat (i + 1) := by
    rw [clients_run, heffects, Session.openedBy_run]
    simp [start]
  refine ⟨?_, fun i hi => ?_⟩
  · rw [hsession, hgeneration, hclients, List.length_map, List.length_range]
    exact UInt32.zero_add _
  · rw [hclients, List.length_map, List.length_range] at hi
    rw [hclients, List.getElem?_map, List.getElem?_range hi]
    rfl

/-- Numbers fewer than 2³² apart are different generations. -/
theorem ofNat_ne_ofNat {i j : Nat} (hij : i < j) (hj : j < i + UInt32.size) :
    UInt32.ofNat i ≠ UInt32.ofNat j := by
  intro h
  have hmod := congrArg UInt32.toNat h
  rw [UInt32.toNat_ofNat', UInt32.toNat_ofNat'] at hmod
  have hsize : UInt32.size = 2 ^ 32 := rfl
  omega

/-! ### Stale events -/

/-- Whether an operation gives the session an event that is not one of the client at work. -/
def isStale (h : Host) : Operation → Bool
  | .call (.handle e) => h.session.client ≠ some e.generation
  | _ => false

/-- The operations of a run without those that are stale when their turn comes. -/
def withoutStale (h : Host) : List Operation → List Operation
  | [] => []
  | op :: ops =>
    if h.isStale op then (h.operate op).1.withoutStale ops
    else op :: (h.operate op).1.withoutStale ops

/-- After every run the session of the host is sound. -/
theorem sound_run (settings : SessionSettings) (ops : List Operation) :
    ((start settings).run ops).1.session.Sound := by
  rw [((start settings).run_eq_run ops).1]
  exact (Session.Sound.start settings).run _

/-- An operation of the host keeps its session sound. -/
theorem sound_operate {h : Host} (hs : h.session.Sound) (op : Operation) :
    (h.operate op).1.session.Sound := by
  rw [(h.operate_eq_run op).1]
  exact hs.run _

/-- **A stale event does nothing.** -/
theorem operate_of_isStale {h : Host} (hs : h.session.Sound) {op : Operation}
    (hstale : h.isStale op = true) : h.operate op = (h, []) := by
  unfold isStale at hstale
  split at hstale
  · rename_i e
    have hother : h.session.client ≠ some e.generation := of_decide_eq_true hstale
    have hears : ¬ h.session.Hears e := by
      rintro ⟨hgeneration, hclient⟩
      obtain ⟨g, hg⟩ := Option.isSome_iff_exists.1 hclient
      rw [hs.client_eq g hg, ← hgeneration] at hg
      exact hother hg
    show h.after (h.session.handle e) = _
    rw [Session.handle_of_not_hears hears]
    rfl
  · exact nomatch hstale

/-- A run from a sound host is the same without its stale events. -/
theorem run_withoutStale {h : Host} (hs : h.session.Sound) (ops : List Operation) :
    (h.run (h.withoutStale ops)).1 = (h.run ops).1 ∧
      (h.run (h.withoutStale ops)).2.flatten = (h.run ops).2.flatten := by
  induction ops generalizing h with
  | nil => exact ⟨rfl, rfl⟩
  | cons op ops ih =>
    obtain ⟨hhost, heffects⟩ := ih (sound_operate hs op)
    rw [withoutStale, run_cons]
    split
    · rename_i hstale
      rw [operate_of_isStale hs hstale] at hhost heffects ⊢
      exact ⟨hhost, heffects⟩
    · rw [run_cons, List.flatten_cons, List.flatten_cons, hhost, heffects]
      exact ⟨rfl, rfl⟩

/-- A client that later ones came after, fewer than 2³² of them, is not the one at work. -/
theorem Numbered.isStale {h : Host} (hn : h.Numbered) (hs : h.session.Sound) {i : Nat}
    {e : TaggedEvent} (hlater : i + 1 < h.clients.length)
    (hwrapped : h.clients.length ≤ i + UInt32.size) (hclient : h.clients[i]? = some e.generation) :
    h.isStale (.call (.handle e)) = true := by
  have hold : e.generation = .ofNat (i + 1) :=
    Option.some.inj (hclient.symm.trans (hn.getElem?_clients i (by omega)))
  refine decide_eq_true fun hwork => ?_
  have hpresent := hs.client_eq _ hwork
  rw [hold, hn.generation_eq] at hpresent
  exact ofNat_ne_ofNat hlater (by omega) hpresent

/-- **Clients that are past cannot touch the session.**  Over any run of a fresh host:

* Without the events that the session is given while their client is not at work, the run ends in
  the same host, with the same session, requests and started hats, and has the same effects in the
  same order.
* Clients of connects fewer than 2³² apart have different generations.
* An event of a client that later ones came after, fewer than 2³² of them, does nothing. -/
theorem run_without_stale_events (settings : SessionSettings) (ops : List Operation) :
    let full := (start settings).run ops
    let heard := (start settings).run ((start settings).withoutStale ops)
    heard.1 = full.1 ∧ heard.2.flatten = full.2.flatten ∧
      (∀ i j, i < j → j < i + UInt32.size → j < full.1.clients.length →
        full.1.clients[i]? ≠ full.1.clients[j]?) ∧
      ∀ i e, i + 1 < full.1.clients.length → full.1.clients.length ≤ i + UInt32.size →
        full.1.clients[i]? = some e.generation → full.1.handle e = (full.1, []) := by
  intro full heard
  have hstart : (start settings).session.Sound := .start settings
  obtain ⟨hhost, heffects⟩ := run_withoutStale hstart ops
  have hs : full.1.session.Sound := sound_run settings ops
  have hn : full.1.Numbered := .run settings ops
  refine ⟨hhost, heffects, fun i j hij hwrapped hj heq => ?_, fun i e hlater hwrapped hclient => ?_⟩
  · rw [hn.getElem?_clients i (by omega), hn.getElem?_clients j hj] at heq
    exact ofNat_ne_ofNat (by omega) (by omega) (Option.some.inj heq)
  · exact operate_of_isStale hs (hn.isStale hs hlater hwrapped hclient)

example : (start {}).withoutStale [.call (.connect "a" "id" none none),
    .call (.connect "b" "id" none none), .call (.handle ⟨1, .connected⟩),
    .call (.handle ⟨2, .message "t" "p"⟩), .call .finish, .call (.handle ⟨2, .connected⟩)] =
      [.call (.connect "a" "id" none none), .call (.connect "b" "id" none none),
        .call (.handle ⟨2, .message "t" "p"⟩), .call .finish] := by
  decide +kernel

end Host
end Link
end BoardBlocks
