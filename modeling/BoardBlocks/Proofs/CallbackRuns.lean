/-
# Runs of registrations

A table of callbacks takes registrations one after the other, and goes on after one that fails.
What a registration comes to is told by the bindings that are there:

| the name of the topic's routine | gives | the table |
| --- | --- | --- |
| is bound to its key | the name | stays |
| is bound to another key | the collision with that key | stays |
| is free | the name | has the key bound at its end |

So over any run the table has the keys of the registrations that succeed, each at the place where
it first did, with pairwise different names (`run_registers`).
-/

import BoardBlocks.Proofs.CallbackTable
import BoardBlocks.Proofs.FlatGeneration
import BoardBlocks.Proofs.Runs

namespace BoardBlocks
namespace Callbacks

/-- The table after a registration and what the registration gives.  One that fails leaves the
table. -/
def enter (t : Callbacks) (topic : String) : Callbacks × Except Collision String :=
  match t.register topic with
  | .ok (name, t') => (t', .ok name)
  | .error e => (t, .error e)

/-- The table after topics were registered in order, and what each registration gives. -/
def run (topics : List String) : Callbacks × List (Except Collision String) :=
  runWith enter {} topics

/-- The keys of the registrations of a run that succeed, in order. -/
def accepted (topics : List String) : List String :=
  ((topics.zip (run topics).2).filter fun call => call.2.isOk).map fun call => topicKey call.1

theorem run_concat (topics : List String) (topic : String) :
    run (topics ++ [topic]) = (((run topics).1.enter topic).1,
      (run topics).2 ++ [((run topics).1.enter topic).2]) :=
  runWith_append enter {} topics [topic]

/-- A registration that succeeds is one more accepted topic. -/
theorem accepted_concat (topics : List String) (topic : String) :
    accepted (topics ++ [topic]) =
      if ((run topics).1.enter topic).2.isOk then accepted topics ++ [topicKey topic]
      else accepted topics := by
  have hlength : topics.length = (run topics).2.length := (length_runWith enter {} topics).symm
  rw [accepted, run_concat, List.zip_append hlength, List.filter_append, List.map_append,
    ← accepted]
  cases ((run topics).1.enter topic).2 with
  | ok name => rfl
  | error e => exact List.append_nil _

/-! ### One registration -/

section Table

variable {t : Callbacks} {keys : List String} (h : t.Holds keys)
include h

/-- A callback is held exactly if its topic was registered and its name is the one of that topic. -/
theorem Holds.mem_bindings_iff {b : Binding} :
    b ∈ t.bindings ↔ b.topic ∈ keys ∧ b.name = callbackName b.topic := by
  rw [h.bindings_eq, bindingsOf, List.mem_map]
  constructor
  · rintro ⟨key, hkey, rfl⟩
    exact ⟨List.mem_eraseDups.1 hkey, rfl⟩
  · rintro ⟨htopic, hname⟩
    exact ⟨b.topic, List.mem_eraseDups.2 htopic, hname ▸ rfl⟩

/-- The topics of a table are the registered ones, each once, in the order of their first time. -/
theorem Holds.map_topic : t.bindings.map (·.topic) = keys.eraseDups := by
  rw [h.bindings_eq, bindingsOf, List.map_map]
  exact List.map_id _

/-- A topic is in the table, quoted or not, if its key is. -/
theorem Holds.containsTopic_iff (topic : String) :
    t.containsTopic topic = true ↔ topicKey topic ∈ keys := by
  rw [containsTopic, List.any_eq_true]
  constructor
  · rintro ⟨b, hb, htopic⟩
    exact of_decide_eq_true htopic ▸ (h.mem_bindings_iff.1 hb).1
  · intro hkey
    refine ⟨⟨topicKey topic, callbackName (topicKey topic)⟩, ?_, decide_eq_true rfl⟩
    exact h.mem_bindings_iff.2 ⟨hkey, rfl⟩

/-- A registration for a key that the table has changes nothing. -/
theorem Holds.enter_known {topic : String} (hkey : topicKey topic ∈ keys) :
    t.enter topic = (t, .ok (callbackName topic)) := by
  rw [Callbacks.enter, h.register_known hkey]

/-- A registration for a name that another key has is refused. -/
theorem Holds.enter_taken {topic key : String} (hkey : key ∈ keys) (hne : key ≠ topicKey topic)
    (hname : callbackName key = callbackName topic) :
    t.enter topic = (t, .error ⟨callbackName topic, key, topicKey topic⟩) := by
  rw [Callbacks.enter, h.register_taken hkey hne hname]

/-- A registration for a name that no key has binds it. -/
theorem Holds.enter_free {topic : String}
    (hfree : ∀ key ∈ keys, callbackName key ≠ callbackName topic) :
    t.enter topic = (⟨t.bindings ++ [⟨topicKey topic, callbackName topic⟩]⟩,
      .ok (callbackName topic)) := by
  rw [Callbacks.enter, h.register_free hfree]

/-- What one registration leaves. -/
theorem Holds.enter (topic : String) : (t.enter topic).1.Holds
    (if (t.enter topic).2.isOk then keys ++ [topicKey topic] else keys) := by
  unfold Callbacks.enter
  cases hreg : t.register topic with
  | ok r => exact h.register hreg
  | error e => exact h

end Table

/-! ### Runs -/

/-- **What a run of registrations leaves**: the keys of those that succeed. -/
theorem holds_run (topics : List String) : (run topics).1.Holds (accepted topics) := by
  induction topics using List.reverseRecOn with
  | nil => exact .empty
  | append_singleton topics topic ih =>
    rw [run_concat, accepted_concat]
    exact ih.enter topic

/-- No key that is bound has a quote. -/
theorem isQuote_of_mem_accepted {topics : List String} {key : String} (h : key ∈ accepted topics) :
    ∀ c ∈ key.toList, isQuote c = false := by
  obtain ⟨call, -, rfl⟩ := List.mem_map.1 h
  exact fun c hc => isQuote_of_mem_topicKey hc

/-- **When a registration fails**: another key has the name of its routine. -/
theorem Holds.enter_fails_iff {t : Callbacks} {keys : List String} (h : t.Holds keys)
    (topic : String) : (∃ e, (t.enter topic).2 = .error e) ↔
      ∃ b ∈ t.bindings, b.name = callbackName topic ∧ b.topic ≠ topicKey topic := by
  constructor
  · rintro ⟨e, he⟩
    rw [Callbacks.enter] at he
    rcases h.register_cases topic with ⟨-, heq⟩ | ⟨key, hkey, hne, hname, -⟩ | ⟨-, heq⟩
    · rw [heq] at he
      exact nomatch he
    · exact ⟨⟨key, callbackName key⟩, h.mem_bindings_iff.2 ⟨hkey, rfl⟩, hname, hne⟩
    · rw [heq] at he
      exact nomatch he
  · rintro ⟨b, hb, hname, hne⟩
    obtain ⟨hkey, hb⟩ := h.mem_bindings_iff.1 hb
    exact ⟨_, congrArg Prod.snd (h.enter_taken hkey hne (hb.symm.trans hname))⟩

/-- A generation registers its callbacks in this way. -/
theorem runGen_registerCallback_enter (topic : String) (c : Generation.Context) :
    Generation.runGen (Generation.registerCallback topic) c =
      ((c.callbacks.enter topic).2.mapError .collision,
        { c with callbacks := (c.callbacks.enter topic).1 }) := by
  rw [Generation.Flat.runGen_registerCallback, enter]
  cases c.callbacks.register topic <;> rfl

/-- **Runs of registrations**, over any topics in any order and whatever of them fails.

* The table has pairwise different names and pairwise different topics.  Its topics have no quotes,
  and stand in the order in which they were first registered with success.
* The next registration fails exactly if another topic has its name.  Then it gives the collision
  with that topic, and the table stays.
* A registration for a topic that is bound gives its name, and the table stays as well.
* A registration for a free name binds it at the end.
* A topic is found in the table exactly if a registration with its key has succeeded.
* A generation registers its callbacks in this way, and touches nothing else for it. -/
theorem run_registers (before : List String) (topic : String) :
    let t := (run before).1
    ((t.bindings.map (·.name)).Nodup ∧ (t.bindings.map (·.topic)).Nodup ∧
      (∀ b ∈ t.bindings, (∀ c ∈ b.topic.toList, isQuote c = false) ∧
        b.name = callbackName b.topic) ∧
      t.bindings.map (·.topic) = (accepted before).eraseDups) ∧
    ((∃ e, (t.enter topic).2 = .error e) ↔
      ∃ b ∈ t.bindings, b.name = callbackName topic ∧ b.topic ≠ topicKey topic) ∧
    (∀ b ∈ t.bindings, b.name = callbackName topic → b.topic ≠ topicKey topic →
      t.enter topic = (t, .error ⟨b.name, b.topic, topicKey topic⟩)) ∧
    (∀ b ∈ t.bindings, b.topic = topicKey topic → t.enter topic = (t, .ok b.name)) ∧
    ((∀ b ∈ t.bindings, b.name ≠ callbackName topic) → t.enter topic =
      (⟨t.bindings ++ [⟨topicKey topic, callbackName topic⟩]⟩, .ok (callbackName topic))) ∧
    (t.containsTopic topic = true ↔ topicKey topic ∈ accepted before) ∧
    ∀ c : Generation.Context,
      Generation.runGen (Generation.registerCallback topic) { c with callbacks := t } =
        ((t.enter topic).2.mapError .collision, { c with callbacks := (t.enter topic).1 }) := by
  intro t
  have h : t.Holds (accepted before) := holds_run before
  refine ⟨⟨h.nodup_names, ?_, ?_, h.map_topic⟩, h.enter_fails_iff topic, ?_, ?_, ?_,
    h.containsTopic_iff topic, fun c => ?_⟩
  · rw [h.map_topic]
    exact nodup_eraseDups _
  · intro b hb
    obtain ⟨hkey, hname⟩ := h.mem_bindings_iff.1 hb
    exact ⟨isQuote_of_mem_accepted hkey, hname⟩
  · intro b hb hname hne
    obtain ⟨hkey, hb⟩ := h.mem_bindings_iff.1 hb
    rw [hname, h.enter_taken hkey hne (hb.symm.trans hname)]
  · intro b hb htopic
    obtain ⟨hkey, hname⟩ := h.mem_bindings_iff.1 hb
    rw [htopic] at hkey
    rw [h.enter_known hkey, hname, htopic, callbackName_topicKey]
  · intro hfree
    refine h.enter_free fun key hkey => ?_
    exact hfree ⟨key, callbackName key⟩ (h.mem_bindings_iff.2 ⟨hkey, rfl⟩)
  · exact runGen_registerCallback_enter topic { c with callbacks := t }

-- The second topic has the routine name of the first, and the third its key.
example : run ["/a/b", "/a_b", "'/a/b'", "/z"] =
    (⟨[⟨"/a/b", "GOT_a_b"⟩, ⟨"/z", "GOT_z"⟩]⟩,
      [.ok "GOT_a_b", .error ⟨"GOT_a_b", "/a/b", "/a_b"⟩, .ok "GOT_a_b", .ok "GOT_z"]) := by
  decide +kernel

end Callbacks
end BoardBlocks
