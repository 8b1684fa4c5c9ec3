/-
# The callbacks registered in a run

Registering topics one after the other binds each of them, without its quotes, at the place where it
came first.  A run of registrations that succeeds has told apart all routine names: two topics of
the table with one name are the same topic (`Holds.registerAll`).  A run that fails does so at the
first topic whose routine name another topic before it has (`Holds.registerAll_error`).
-/

import BoardBlocks.Callback
import Mathlib.Data.List.Induction
import Mathlib.Data.List.Nodup

namespace BoardBlocks
namespace Callbacks

/-- Registers topics in order. -/
def registerAll : Callbacks → List String → Except Collision Callbacks
  | t, [] => .ok t
  | t, topic :: topics =>
    match t.register topic with
    | .ok (_, t') => t'.registerAll topics
    | .error e => .error e

/-- Each key, a topic without quotes, bound to its routine. -/
def bindingsOf (keys : List String) : List Binding :=
  keys.map fun key => ⟨key, callbackName key⟩

/-- The table after the keys of a list were registered in order. -/
structure Holds (t : Callbacks) (keys : List String) : Prop where
  bindings_eq : t.bindings = bindingsOf keys.eraseDups
  eq_of_name_eq : ∀ k ∈ keys, ∀ k' ∈ keys, callbackName k = callbackName k' → k = k'

theorem Holds.empty : Holds {} [] :=
  ⟨rfl, fun _ h => nomatch h⟩

/-- Topics in two lists are registered one list after the other, up to the first collision. -/
theorem registerAll_append (t : Callbacks) (xs ys : List String) :
    t.registerAll (xs ++ ys) =
      match t.registerAll xs with
      | .ok t' => t'.registerAll ys
      | .error e => .error e := by
  induction xs generalizing t with
  | nil => rfl
  | cons x xs ih =>
    rw [List.cons_append, registerAll, registerAll]
    cases t.register x with
    | ok r => exact ih r.2
    | error e => rfl

/-- The name that a registration gives is that of the topic. -/
theorem name_of_register {t t' : Callbacks} {topic name : String}
    (h : t.register topic = .ok (name, t')) : name = callbackName (topicKey topic) := by
  simp only [register] at h
  split at h
  · split at h <;> simp_all
  · simp_all

/-- One more key is new, or it was there. -/
theorem eraseDups_concat (keys : List String) (key : String) :
    (keys ++ [key]).eraseDups =
      if key ∈ keys then keys.eraseDups else keys.eraseDups ++ [key] := by
  rw [List.eraseDups_append]
  by_cases h : key ∈ keys <;> simp [List.removeAll, h, List.eraseDups_cons]

theorem nodup_eraseDups (keys : List String) : keys.eraseDups.Nodup := by
  induction keys using List.reverseRecOn with
  | nil => exact List.nodup_nil
  | append_singleton keys key ih =>
    rw [eraseDups_concat]
    split
    · exact ih
    · rename_i hnew
      refine List.nodup_append.2 ⟨ih, List.nodup_singleton _, fun k hk k' hk' => ?_⟩
      rintro rfl
      obtain rfl := List.mem_singleton.1 hk'
      exact hnew (List.mem_eraseDups.1 hk)

/-- Dropping repetitions and dropping keys by a test can change places. -/
theorem filter_eraseDups (p : String → Bool) (keys : List String) :
    keys.eraseDups.filter p = (keys.filter p).eraseDups := by
  induction keys using List.reverseRecOn with
  | nil => rfl
  | append_singleton keys key ih =>
    rw [eraseDups_concat, List.filter_append]
    cases hp : p key with
    | false =>
      rw [List.filter_singleton, hp, cond_false, List.append_nil, ← ih]
      split
      · rfl
      · rw [List.filter_append, List.filter_singleton, hp, cond_false, List.append_nil]
    | true =>
      rw [List.filter_singleton, hp, cond_true, eraseDups_concat, ← ih]
      by_cases hkey : key ∈ keys <;> simp [hkey, hp]

/-- Copies of one key are one key without their repetitions. -/
theorem eraseDups_of_forall_eq {key : String} {keys : List String} (h : ∀ k ∈ keys, k = key) :
    keys.eraseDups = if key ∈ keys then [key] else [] := by
  cases keys with
  | nil => rfl
  | cons k keys =>
    obtain ⟨rfl, hrest⟩ := List.forall_mem_cons.1 h
    have hnone : (keys.filter fun b => !b == k) = [] :=
      List.filter_eq_nil_iff.2 fun b hb => by simp [hrest b hb]
    rw [List.eraseDups_cons, hnone, List.eraseDups_nil, if_pos List.mem_cons_self]

/-- The routine names of a table are pairwise different. -/
theorem Holds.nodup_names {t : Callbacks} {keys : List String} (h : t.Holds keys) :
    (t.bindings.map (·.name)).Nodup := by
  rw [h.bindings_eq, bindingsOf, List.map_map]
  refine (nodup_eraseDups keys).map_on fun k hk k' hk' hname => ?_
  exact h.eq_of_name_eq k (List.mem_eraseDups.1 hk) k' (List.mem_eraseDups.1 hk') hname

/-- The callback under a name is the one of the first key with that name. -/
theorem Holds.find?_eq {t : Callbacks} {keys : List String} (h : t.Holds keys) (name : String) :
    t.find? name =
      (keys.eraseDups.find? fun k => callbackName k = name).map fun k => ⟨k, callbackName k⟩ := by
  rw [find?, h.bindings_eq, bindingsOf, List.find?_map]
  rfl

/-! ### One registration -/

section Register

variable {t : Callbacks} {keys : List String} {topic : String} (h : t.Holds keys)
include h

/-- The key that has a name is found under it. -/
theorem Holds.find?_of_mem {key : String} (hkey : key ∈ keys) :
    t.find? (callbackName key) = some ⟨key, callbackName key⟩ := by
  rw [h.find?_eq]
  cases hf : keys.eraseDups.find? fun k => callbackName k = callbackName key with
  | none => simpa using List.find?_eq_none.1 hf key (List.mem_eraseDups.2 hkey)
  | some k =>
    have hk : k ∈ keys := List.mem_eraseDups.1 (List.mem_of_find?_eq_some hf)
    have hname : callbackName k = callbackName key := by simpa using List.find?_some hf
    obtain rfl := h.eq_of_name_eq k hk key hkey hname
    rfl

/-- A registration for a key that the table has changes nothing. -/
theorem Holds.register_known (hkey : topicKey topic ∈ keys) :
    t.register topic = .ok (callbackName topic, t) := by
  have hfound := h.find?_of_mem hkey
  rw [callbackName_topicKey] at hfound
  simp [Callbacks.register, callbackName_topicKey, hfound]

/-- A registration for a name that another key has is refused. -/
theorem Holds.register_taken {key : String} (hkey : key ∈ keys) (hne : key ≠ topicKey topic)
    (hname : callbackName key = callbackName topic) :
    t.register topic = .error ⟨callbackName topic, key, topicKey topic⟩ := by
  have hfound := h.find?_of_mem hkey
  rw [hname] at hfound
  simp [Callbacks.register, callbackName_topicKey, hfound, hne]

/-- A registration for a name that no key has binds it. -/
theorem Holds.register_free (hfree : ∀ key ∈ keys, callbackName key ≠ callbackName topic) :
    t.register topic = .ok (callbackName topic,
      ⟨t.bindings ++ [⟨topicKey topic, callbackName topic⟩]⟩) := by
  have hnone : t.find? (callbackName topic) = none := by
    rw [h.find?_eq, Option.map_eq_none_iff, List.find?_eq_none]
    intro key hkey
    simpa using hfree key (List.mem_eraseDups.1 hkey)
  simp [Callbacks.register, callbackName_topicKey, hnone]

/-- **All that a registration can come to.** -/
theorem Holds.register_cases (topic : String) :
    (topicKey topic ∈ keys ∧ t.register topic = .ok (callbackName topic, t)) ∨
    (∃ key ∈ keys, key ≠ topicKey topic ∧ callbackName key = callbackName topic ∧
      t.register topic = .error ⟨callbackName topic, key, topicKey topic⟩) ∨
    ((∀ key ∈ keys, callbackName key ≠ callbackName topic) ∧
      t.register topic = .ok (callbackName topic,
        ⟨t.bindings ++ [⟨topicKey topic, callbackName topic⟩]⟩)) := by
  by_cases hfree : ∀ key ∈ keys, callbackName key ≠ callbackName topic
  · exact .inr (.inr ⟨hfree, h.register_free hfree⟩)
  · simp only [not_forall, not_not] at hfree
    obtain ⟨key, hkey, hname⟩ := hfree
    by_cases hsame : key = topicKey topic
    · rw [hsame] at hkey
      exact .inl ⟨hkey, h.register_known hkey⟩
    · exact .inr (.inl ⟨key, hkey, hsame, hname, h.register_taken hkey hsame hname⟩)

/-- A key of the table may be counted again. -/
theorem Holds.concat_known (hkey : topicKey topic ∈ keys) : t.Holds (keys ++ [topicKey topic]) := by
  have hsub : ∀ key ∈ keys ++ [topicKey topic], key ∈ keys := by
    intro key hmem
    rcases List.mem_append.1 hmem with hmem | hmem
    · exact hmem
    · exact List.mem_singleton.1 hmem ▸ hkey
  refine ⟨?_, fun k hk k' hk' => h.eq_of_name_eq k (hsub k hk) k' (hsub k' hk')⟩
  rw [eraseDups_concat, if_pos hkey]
  exact h.bindings_eq

/-- A key with a name of its own is new to the table, and told apart from the others. -/
theorem Holds.concat_free (hfree : ∀ key ∈ keys, callbackName key ≠ callbackName topic) :
    Holds ⟨t.bindings ++ [⟨topicKey topic, callbackName topic⟩]⟩ (keys ++ [topicKey topic]) := by
  simp only [← callbackName_topicKey topic] at hfree ⊢
  refine ⟨?_, fun k hk k' hk' hname => ?_⟩
  · rw [eraseDups_concat, if_neg fun hmem => hfree _ hmem rfl, bindingsOf, List.map_append]
    exact congrArg (· ++ _) h.bindings_eq
  · rcases List.mem_append.1 hk with hk | hk <;> rcases List.mem_append.1 hk' with hk' | hk'
    · exact h.eq_of_name_eq k hk k' hk' hname
    · exact absurd (List.mem_singleton.1 hk' ▸ hname) (hfree k hk)
    · exact absurd (List.mem_singleton.1 hk ▸ hname.symm) (hfree k' hk')
    · exact (List.mem_singleton.1 hk).trans (List.mem_singleton.1 hk').symm

/-- One registration that succeeds. -/
theorem Holds.register {t' : Callbacks} {name : String} (hr : t.register topic = .ok (name, t')) :
    t'.Holds (keys ++ [topicKey topic]) := by
  rcases h.register_cases topic with ⟨hkey, heq⟩ | ⟨key, -, -, -, heq⟩ | ⟨hfree, heq⟩
  · obtain ⟨-, rfl⟩ := Prod.mk.inj (Except.ok.inj (heq.symm.trans hr))
    exact h.concat_known hkey
  · exact nomatch heq.symm.trans hr
  · obtain ⟨-, rfl⟩ := Prod.mk.inj (Except.ok.inj (heq.symm.trans hr))
    exact h.concat_free hfree

/-- A registration that fails names a key of the table and the key it could not register. -/
theorem Holds.register_error {c : Collision} (hr : t.register topic = .error c) :
    c.second = topicKey topic ∧ c.first ∈ keys ∧ c.first ≠ c.second ∧
      callbackName c.first = c.name ∧ callbackName c.second = c.name := by
  rcases h.register_cases topic with ⟨-, heq⟩ | ⟨key, hkey, hne, hname, heq⟩ | ⟨-, heq⟩
  · exact nomatch heq.symm.trans hr
  · obtain rfl := Except.error.inj (heq.symm.trans hr)
    exact ⟨rfl, hkey, hne, hname, callbackName_topicKey topic⟩
  · exact nomatch heq.symm.trans hr

end Register

/-! ### Runs that succeed -/

/-- **What a run of registrations leaves.** -/
theorem Holds.registerAll {t t' : Callbacks} {keys topics : List String} (h : t.Holds keys)
    (hr : t.registerAll topics = .ok t') : t'.Holds (keys ++ topics.map topicKey) := by
  induction topics generalizing t keys with
  | nil =>
    obtain rfl := Except.ok.inj hr
    simpa using h
  | cons topic topics ih =>
    rw [Callbacks.registerAll] at hr
    cases hreg : t.register topic with
    | ok r =>
      rw [hreg] at hr
      simpa using ih (h.register hreg) hr
    | error e =>
      rw [hreg] at hr
      simp at hr

/-! ### Runs that fail -/

/-- No two different keys of a list share a routine name. -/
def ToldApart (keys : List String) : Prop :=
  ∀ k ∈ keys, ∀ k' ∈ keys, callbackName k = callbackName k' → k = k'

/-- Keys are not told apart exactly if two different ones have one name. -/
theorem not_toldApart_iff {keys : List String} :
    ¬ ToldApart keys ↔ ∃ k ∈ keys, ∃ k' ∈ keys, k ≠ k' ∧ callbackName k = callbackName k' := by
  constructor
  · intro h
    refine Classical.byContradiction fun hnone => h fun k hk k' hk' hname => ?_
    refine Classical.byContradiction fun hne => ?_
    exact hnone ⟨k, hk, k', hk', hne, hname⟩
  · rintro ⟨k, hk, k', hk', hne, hname⟩ h
    exact hne (h k hk k' hk' hname)

/-- The collision at the earliest position of a list where a key has the routine name of another
key before it: the keys before that position are told apart, and one of them has the name. -/
def CollidesFirst (keys : List String) (c : Collision) : Prop :=
  ∃ before after, keys = before ++ c.second :: after ∧ ToldApart before ∧ c.first ∈ before ∧
    c.first ≠ c.second ∧ callbackName c.first = c.name ∧ callbackName c.second = c.name

/-- A list with a first collision does not tell its keys apart. -/
theorem CollidesFirst.not_toldApart {keys : List String} {c : Collision}
    (h : CollidesFirst keys c) : ¬ ToldApart keys := by
  obtain ⟨before, after, rfl, -, hfirst, hne, hname, hname'⟩ := h
  intro hapart
  have hmem : c.first ∈ before ++ c.second :: after := List.mem_append_left _ hfirst
  have hmem' : c.second ∈ before ++ c.second :: after := by simp
  exact hne (hapart _ hmem _ hmem' (hname.trans hname'.symm))

/-- The position of one first collision is not before that of another. -/
theorem CollidesFirst.length_le {before before' after after' : List String} {c c' : Collision}
    (hkeys : before ++ c.second :: after = before' ++ c'.second :: after')
    (hfirst : c.first ∈ before) (hne : c.first ≠ c.second) (hname : callbackName c.first = c.name)
    (hname' : callbackName c.second = c.name) (hapart : ToldApart before') :
    before'.length ≤ before.length := by
  refine Nat.le_of_not_lt fun hlt => ?_
  have hget : before'[before.length]? = some c.second := by
    have := congrArg (fun l : List String => l[before.length]?) hkeys
    rw [List.getElem?_append_right (Nat.le_refl _), List.getElem?_append_left (by omega)] at this
    simpa using this.symm
  have hsub : ∀ k ∈ before, k ∈ before' := by
    have htake := congrArg (List.take before.length) hkeys
    rw [List.take_left, List.take_append_of_le_length (by omega)] at htake
    intro k hk
    rw [htake] at hk
    exact List.mem_of_mem_take hk
  exact hne (hapart _ (hsub _ hfirst) _ (List.mem_of_getElem? hget) (hname.trans hname'.symm))

/-- **A list has one first collision at most.** -/
theorem CollidesFirst.unique {keys : List String} {c c' : Collision} (h : CollidesFirst keys c)
    (h' : CollidesFirst keys c') : c = c' := by
  obtain ⟨before, after, rfl, hapart, hfirst, hne, hname, hsecond⟩ := h
  obtain ⟨before', after', hkeys, hapart', hfirst', hne', hname', hsecond'⟩ := h'
  have hle := CollidesFirst.length_le hkeys hfirst hne hname hsecond hapart'
  have hle' := CollidesFirst.length_le hkeys.symm hfirst' hne' hname' hsecond' hapart
  obtain ⟨rfl, htail⟩ := List.append_inj hkeys (by omega)
  have hkey : c.second = c'.second := (List.cons.inj htail).1
  have hnames : c.name = c'.name := by rw [← hsecond, ← hsecond', hkey]
  have hkey' : c.first = c'.first :=
    hapart _ hfirst _ hfirst' (by rw [hname, hname', hnames])
  obtain ⟨name, first, second⟩ := c
  obtain ⟨name', first', second'⟩ := c'
  simp_all

/-- **A run of registrations that fails does so at the first collision of its keys.** -/
theorem Holds.registerAll_error {t : Callbacks} {keys topics : List String} {c : Collision}
    (h : t.Holds keys) (hr : t.registerAll topics = .error c) :
    CollidesFirst (keys ++ topics.map topicKey) c := by
  induction topics generalizing t keys with
  | nil => exact nomatch hr
  | cons topic topics ih =>
    rw [Callbacks.registerAll] at hr
    cases hreg : t.register topic with
    | ok r =>
      rw [hreg] at hr
      have hrest := ih (h.register hreg) hr
      rwa [List.append_assoc, List.singleton_append] at hrest
    | error e =>
      rw [hreg] at hr
      obtain rfl := Except.error.inj hr
      obtain ⟨hsecond, hfirst, hne, hname, hname'⟩ := h.register_error hreg
      refine ⟨keys, topics.map topicKey, ?_, h.eq_of_name_eq, hfirst, hne, hname, hname'⟩
      rw [hsecond, List.map_cons]

end Callbacks
end BoardBlocks
