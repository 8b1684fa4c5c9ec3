/-
# What a sketch holds after any changes

The contents of a sketch can be read off the changes that put it together, however fragments and
statements came mixed:

| part | holds |
| --- | --- |
| keys of a section | the keys contributed to it, each at the place where it came first |
| fragment under a key | the one contributed there last |
| body of a stage | the statements of the codes pushed to it, without the blank ones |

No part depends on what went to another one.  So changes that agree on these three (`Agree`) put
together one sketch, and with it one text (`changeAll_contents`).
-/

import BoardBlocks.Proofs.RoutineLines
import BoardBlocks.Proofs.SectionKeys

namespace BoardBlocks

namespace Keyed

variable {α : Type}

/-- Entries with different keys are known from their keys and what is found under each. -/
theorem ext_get? {es es' : List (String × α)} (hnodup : (keys es).Nodup)
    (hkeys : keys es = keys es') (hget : ∀ key, get? key es = get? key es') : es = es' := by
  induction es generalizing es' with
  | nil => exact (List.map_eq_nil_iff.1 hkeys.symm).symm
  | cons e es ih =>
    cases es' with
    | nil => exact nomatch hkeys
    | cons e' es' =>
      rw [keys_cons, keys_cons, List.cons.injEq] at hkeys
      obtain ⟨hkey, hrest⟩ := hkeys
      obtain ⟨hnew, hnodup⟩ := List.nodup_cons.1 hnodup
      have hhead : some e.2 = some e'.2 := by simpa [get?_cons, hkey] using hget e.1
      have htail : ∀ key, get? key es = get? key es' := fun key => by
        by_cases h : e.1 = key
        · -- Neither rest has the key of the first entry.
          have hnone : ∀ {xs : List (String × α)}, key ∉ keys xs → get? key xs = none :=
            fun hxs => Option.not_isSome_iff_eq_none.1 (mt isSome_get?_iff.1 hxs)
          rw [hnone (h ▸ hnew), hnone (hrest ▸ h ▸ hnew)]
        · simpa [get?_cons, h, ← hkey] using hget key
      rw [ih hnodup hrest htail, Prod.ext hkey (Option.some.inj hhead)]

/-- Putting an entry once more changes nothing. -/
theorem put_put_self (key : String) (value : α) (es : List (String × α)) :
    put key value (put key value es) = put key value es := by
  induction es with
  | nil => simp [put]
  | cons e es ih => by_cases h : e.1 = key <;> simp [put, h, ih]

end Keyed

namespace Sketch

/-! ### What changes say -/

/-- The key and the fragment that a change contributes to a section. -/
def Change.entry? (x : Section) : Change → Option (String × String)
  | .contribute y key fragment => if y = x then some (key, fragment) else none
  | .push .. => none

/-- The keys and fragments that changes contribute to a section, in order. -/
def contributedTo (x : Section) (changes : List Change) : List (String × String) :=
  changes.filterMap (Change.entry? x)

/-- The keys that changes contribute to a section, each where it came first. -/
def firstKeys (x : Section) (changes : List Change) : List String :=
  (Keyed.keys (contributedTo x changes)).eraseDups

/-- The fragment that changes contribute last under a key of a section. -/
def lastFragment? (x : Section) (key : String) (changes : List Change) : Option String :=
  (((contributedTo x changes).filter fun e => e.1 = key).map (·.2)).getLast?

/-- Changes that agree on the first places of the keys and the last fragments in every section, and
on what is pushed to every stage. -/
structure Agree (changes changes' : List Change) : Prop where
  firstKeys_eq : ∀ x, firstKeys x changes = firstKeys x changes'
  lastFragment?_eq : ∀ x key, lastFragment? x key changes = lastFragment? x key changes'
  codesFor_eq : ∀ stage, codesFor stage changes = codesFor stage changes'

/-! ### Sections -/

/-- A change puts its fragment, if it has one for the section, among the entries. -/
theorem entries_change (s : Sketch) (change : Change) (x : Section) :
    (s.change change).entries x = Keyed.putAll (change.entry? x).toList (s.entries x) := by
  cases change with
  | contribute y key fragment =>
    by_cases h : y = x
    · subst h
      rw [Sketch.change, entries_contribute_self, Change.entry?, if_pos rfl]
      rfl
    · rw [Sketch.change, entries_contribute_of_ne s (Ne.symm h), Change.entry?, if_neg h]
      rfl
  | push stage code => exact entries_push s stage code x

/-- **A section holds what was contributed to it**, put there in order. -/
theorem entries_changeAll (s : Sketch) (changes : List Change) (x : Section) :
    (s.changeAll changes).entries x =
      Keyed.putAll (contributedTo x changes) (s.entries x) := by
  induction changes generalizing s with
  | nil => rfl
  | cons c changes ih =>
    have hcons : contributedTo x (c :: changes) =
        (c.entry? x).toList ++ contributedTo x changes := by
      rw [contributedTo, List.filterMap_cons]
      cases c.entry? x <;> rfl
    rw [changeAll, List.foldl_cons, ← changeAll, ih, entries_change, hcons, Keyed.putAll_append]

/-- A key of a section stands where it was first contributed. -/
theorem keys_changeAll (target : Target) (changes : List Change) (x : Section) :
    (changeAll { target } changes).keys x = firstKeys x changes := by
  rw [keys, entries_changeAll, entries_empty, Keyed.keys_putAll, firstKeys]

/-- Under a key of a section stands what was contributed last. -/
theorem fragment?_changeAll (target : Target) (changes : List Change) (x : Section)
    (key : String) : (changeAll { target } changes).fragment? x key = lastFragment? x key changes := by
  rw [fragment?, entries_changeAll, entries_empty, Keyed.get?_putAll, Keyed.get?_nil, Option.or_none,
    lastFragment?, List.getLast?_map, List.getLast?_eq_head?_reverse, ← List.filter_reverse,
    List.head?_filter]

/-! ### Changes with the same contents -/

/-- **Changes that agree put together one sketch.** -/
theorem Agree.changeAll_eq {changes changes' : List Change} (h : Agree changes changes')
    (target : Target) : changeAll { target } changes = changeAll { target } changes' := by
  refine ext_views (by simp) (fun x => ?_) fun stage => ?_
  · refine Keyed.ext_get? ?_ ?_ fun key => ?_
    · rw [← keys, keys_changeAll, firstKeys]
      exact Callbacks.nodup_eraseDups _
    · rw [← keys, ← keys, keys_changeAll, keys_changeAll, h.firstKeys_eq]
    · rw [← fragment?, ← fragment?, fragment?_changeAll, fragment?_changeAll, h.lastFragment?_eq]
  · rw [body_changeAll, body_changeAll, h.codesFor_eq]

theorem changeAll_append (s : Sketch) (changes changes' : List Change) :
    s.changeAll (changes ++ changes') = (s.changeAll changes).changeAll changes' :=
  List.foldl_append

/-- **A contribution changes nothing elsewhere**, whatever comes after it. -/
theorem contribute_frame (s : Sketch) (x : Section) (key fragment : String)
    (after : List Change) :
    let t := s.changeAll (.contribute x key fragment :: after)
    (∀ y, y ≠ x → t.entries y = (s.changeAll after).entries y) ∧
      ∀ stage, t.body stage = (s.changeAll after).body stage := by
  refine ⟨fun y hy => ?_, fun stage => ?_⟩
  · have hnone : Change.entry? y (.contribute x key fragment) = none := if_neg (Ne.symm hy)
    rw [entries_changeAll, entries_changeAll, contributedTo, List.filterMap_cons_none hnone,
      ← contributedTo]
  · have hnone : Change.code? stage (.contribute x key fragment) = none := rfl
    rw [body_changeAll, body_changeAll, codesFor, List.filterMap_cons_none hnone, ← codesFor]

/-- A contribution made twice is made once. -/
theorem contribute_contribute_self (s : Sketch) (x : Section) (key fragment : String) :
    (s.contribute x key fragment).contribute x key fragment = s.contribute x key fragment := by
  cases x <;> simp [contribute, Keyed.put_put_self]

/-- Contributing a fragment again and again is contributing it once. -/
theorem changeAll_replicate (s : Sketch) (x : Section) (key fragment : String) (n : Nat) :
    s.changeAll (List.replicate (n + 1) (.contribute x key fragment)) =
      s.contribute x key fragment := by
  induction n generalizing s with
  | zero => rfl
  | succ n ih =>
    rw [List.replicate_succ, changeAll, List.foldl_cons, ← changeAll, ih, change,
      contribute_contribute_self]

/-- **What a sketch holds after any changes.**

* The keys of a section are those contributed to it, each at the place where it came first, with the
  fragment that came last; the body of a stage has the statements of the codes pushed to it, without
  the blank ones.
* A contribution more, wherever it comes, changes nothing in the other sections and in the bodies.
* Changes that agree on the first places of the keys, the last fragments and the pushed codes give
  one text.
* Contributing a fragment again at once, however often, changes nothing. -/
theorem changeAll_contents (target : Target) (changes : List Change) :
    let s := changeAll { target } changes
    (∀ x, s.keys x = firstKeys x changes ∧
      ∀ key, s.fragment? x key = lastFragment? x key changes) ∧
    (∀ stage, s.body stage =
      ((codesFor stage changes).filter fun code => !Text.blank code).map
        (Snippet.statement target)) ∧
    (∀ x key fragment after,
      let t := s.changeAll (.contribute x key fragment :: after)
      (∀ y, y ≠ x → t.entries y = (s.changeAll after).entries y) ∧
        ∀ stage, t.body stage = (s.changeAll after).body stage) ∧
    (∀ changes', Agree changes changes' → s.render = (changeAll { target } changes').render) ∧
    ∀ x key fragment n after,
      s.changeAll (List.replicate (n + 1) (.contribute x key fragment) ++ after) =
        s.changeAll (.contribute x key fragment :: after) := by
  intro s
  refine ⟨fun x => ⟨keys_changeAll target changes x, fragment?_changeAll target changes x⟩,
    fun stage => ?_, s.contribute_frame,
    fun changes' h => congrArg render (h.changeAll_eq target), fun x key fragment n after => ?_⟩
  · rw [← Snippet.statements_eq]
    exact (body_changeAll { target } changes stage).trans (by rw [body_empty, List.nil_append])
  · rw [changeAll_append, changeAll_replicate]
    rfl

/-- Contributions and statements in one order. -/
def mixedChanges : List Change :=
  [.contribute .setup "a" "first();", .push .loop "x() ", .contribute .setup "b" "second();",
    .contribute .loop "a" "tick();", .contribute .setup "a" "again();", .push .setup " "]

/-- The same keys, last fragments and statements, with other fragments before them. -/
def sortedChanges : List Change :=
  [.contribute .setup "a" "never();", .contribute .setup "b" "nor();",
    .contribute .setup "b" "second();", .contribute .setup "a" "again();",
    .contribute .loop "a" "tick();", .push .setup " ", .push .loop "x() "]

/-- Both orders give one text.  The key that came first stands first, and one more key in one
section leaves the other ones alone. -/
theorem changeAll_contents_mixedChanges :
    Agree mixedChanges sortedChanges ∧ Section.loop ≠ .setup ∧
      (changeAll { target := .arduino } mixedChanges).render =
        (changeAll { target := .arduino } sortedChanges).render ∧
      (changeAll { target := .arduino } mixedChanges).keys .setup = ["a", "b"] ∧
      (changeAll { target := .arduino } mixedChanges).fragment? .setup "a" = some "again();" ∧
      (changeAll { target := .arduino } mixedChanges).body .loop = ["x();"] ∧
      ((changeAll { target := .arduino } mixedChanges).changeAll
        [.contribute .setup "c" "more();"]).entries .loop = [("a", "tick();")] := by
  have hlast : ∀ (x : Section) (key : String),
      lastFragment? x key mixedChanges = lastFragment? x key sortedChanges := by
    intro x key
    cases x with
    | setup =>
      have hmixed : contributedTo .setup mixedChanges =
          [("a", "first();"), ("b", "second();"), ("a", "again();")] := rfl
      have hsorted : contributedTo .setup sortedChanges =
          [("a", "never();"), ("b", "nor();"), ("b", "second();"), ("a", "again();")] := rfl
      rw [lastFragment?, lastFragment?, hmixed, hsorted]
      by_cases ha : "a" = key <;> by_cases hb : "b" = key <;> simp [ha, hb]
    | _ => rfl
  have hagree : Agree mixedChanges sortedChanges :=
    ⟨fun x => by cases x <;> decide, hlast, fun stage => by cases stage <;> decide⟩
  have hne : Section.loop ≠ .setup := by decide
  obtain ⟨hkeys, hbody, hframe, hrender, -⟩ := changeAll_contents .arduino mixedChanges
  refine ⟨hagree, hne, hrender sortedChanges hagree, ?_, ?_, ?_, ?_⟩
  · rw [(hkeys .setup).1]
    decide
  · rw [(hkeys .setup).2]
    decide
  · rw [hbody .loop]
    decide
  · rw [(hframe .setup "c" "more();" []).1 .loop hne]
    decide

end Sketch
end BoardBlocks
