/-
# Runs of a connection state

Where a connection stands after any events, said by counting.  Let `n` be the number of reconnects
since the connection last came up, or since it was opened.

| so far | state | answers |
| --- | --- | --- |
| `0 < n` | `reconnecting n` | `resolve` to `connected`, `deliver` to a message, else none |
| `n = 0` | `connected` if it ever came up, else `connecting` | the same |
| `n` has ever passed the limit | `failed`, for good | `giveUp` to the reconnect that did it, then none |

The counter has 32 bits, so the largest limit is never passed.
-/

import BoardBlocks.Link.State
import BoardBlocks.Proofs.Runs
import Mathlib.Data.List.DropRight
import Mathlib.Data.List.Induction
import Mathlib.Data.List.Infix

namespace BoardBlocks
namespace Link

/-- What an event asks for while a client is at work and not given up. -/
def Event.action : Event → Action
  | .connected => .resolve
  | .message topic payload => .deliver topic payload
  | .reconnect | .error _ | .closed => .none

namespace State

/-- The state after events in order and what each of them asks for. -/
def run (limit : UInt32) (s : State) (es : List Event) : State × List Action :=
  runWith (step limit) s es

theorem run_append (limit : UInt32) (s : State) (es es' : List Event) :
    run limit s (es ++ es') =
      ((run limit (run limit s es).1 es').1,
        (run limit s es).2 ++ (run limit (run limit s es).1 es').2) :=
  runWith_append (step limit) s es es'

theorem run_cons (limit : UInt32) (s : State) (e : Event) (es : List Event) :
    run limit s (e :: es) =
      ((run limit (step limit s e).1 es).1,
        (step limit s e).2 :: (run limit (step limit s e).1 es).2) :=
  rfl

/-! ### Reconnects in a row -/

/-- The reconnects since the connection last came up, or since the start. -/
def reconnectsInRow (es : List Event) : Nat :=
  (es.rtakeWhile (· ≠ .connected)).count .reconnect

/-- A connection that comes up ends the row. -/
theorem reconnectsInRow_connected (es : List Event) : reconnectsInRow (es ++ [.connected]) = 0 := by
  rw [reconnectsInRow, List.rtakeWhile_concat_neg _ _ _ (by decide)]
  rfl

/-- Any other event leaves the row, and a reconnect is one more of it. -/
theorem reconnectsInRow_concat (es : List Event) {e : Event} (h : e ≠ .connected) :
    reconnectsInRow (es ++ [e]) = reconnectsInRow es + [e].count .reconnect := by
  rw [reconnectsInRow, List.rtakeWhile_concat_pos _ _ _ (by simpa using h), List.count_append,
    reconnectsInRow]

/-- Only a reconnect makes it more. -/
theorem eq_reconnect_of_lt {es : List Event} {e : Event}
    (h : reconnectsInRow es < reconnectsInRow (es ++ [e])) : e = .reconnect := by
  by_cases hconnected : e = .connected
  · rw [hconnected, reconnectsInRow_connected] at h
    exact absurd h (Nat.not_lt_zero _)
  · rw [reconnectsInRow_concat es hconnected] at h
    exact (List.mem_singleton.1 (List.count_pos_iff.1 (by omega))).symm

/-- There were never more reconnects in a row than the limit. -/
def Tolerated (limit : UInt32) (es : List Event) : Prop :=
  ∀ p ∈ es.inits, reconnectsInRow p ≤ limit.toNat

instance (limit : UInt32) (es : List Event) : Decidable (Tolerated limit es) :=
  inferInstanceAs (Decidable (∀ p ∈ es.inits, _))

theorem tolerated_nil (limit : UInt32) : Tolerated limit [] := by
  intro p hp
  obtain rfl := List.mem_singleton.1 hp
  exact Nat.zero_le _

/-- What holds at every point of a longer list holds at those of the shorter one and at its end. -/
theorem forall_inits_concat {P : List Event → Prop} {es : List Event} {e : Event} :
    (∀ p ∈ (es ++ [e]).inits, P p) ↔ (∀ p ∈ es.inits, P p) ∧ P (es ++ [e]) := by
  simp only [List.mem_inits, List.prefix_concat_iff]
  constructor
  · exact fun h => ⟨fun p hp => h p (.inr hp), h _ (.inl rfl)⟩
  · rintro ⟨hes, he⟩ p (rfl | hp)
    · exact he
    · exact hes p hp

/-- **The first reconnect too many.**  Events that were not tolerated have a first reconnect that
was not. -/
theorem exists_of_not_tolerated {limit : UInt32} {es : List Event} (h : ¬ Tolerated limit es) :
    ∃ before after, es = before ++ .reconnect :: after ∧ Tolerated limit before ∧
      reconnectsInRow before = limit.toNat := by
  induction es using List.reverseRecOn with
  | nil => exact absurd (tolerated_nil limit) h
  | append_singleton es e ih =>
    by_cases hes : Tolerated limit es
    · have hlast : reconnectsInRow es ≤ limit.toNat :=
        hes es ((List.mem_inits _ _).2 List.prefix_rfl)
      have hover : limit.toNat < reconnectsInRow (es ++ [e]) :=
        Nat.lt_of_not_le fun hle => h (forall_inits_concat.2 ⟨hes, hle⟩)
      obtain rfl := eq_reconnect_of_lt (Nat.lt_of_le_of_lt hlast hover)
      rw [reconnectsInRow_concat es (by decide), List.count_singleton_self] at hover
      exact ⟨es, [], rfl, hes, by omega⟩
    · obtain ⟨before, after, rfl, hbefore⟩ := ih hes
      exact ⟨before, after ++ [e], by simp, hbefore⟩

/-! ### The state by counting -/

/-- The state of a connection within the limit, after events that end in `n` reconnects in a row. -/
def counting (n : Nat) (es : List Event) : State :=
  if 0 < n then .reconnecting (.ofNat n) else if .connected ∈ es then .connected else .connecting

theorem isLive_counting (n : Nat) (es : List Event) : (counting n es).isLive = true := by
  unfold counting
  split
  · rfl
  · split <;> rfl

theorem retryCount_counting (n : Nat) (es : List Event) :
    (counting n es).retryCount = .ofNat n := by
  unfold counting
  split
  · rfl
  · rename_i hn
    obtain rfl : n = 0 := by omega
    split <;> rfl

/-- The reconnects in a row as a counter of 32 bits knows them. -/
def counted (es : List Event) : Nat :=
  min (reconnectsInRow es) 0xFFFFFFFF

/-- The next number is that of the next natural number, up to the largest word. -/
theorem saturatingSucc_ofNat {n : Nat} (h : n ≤ 0xFFFFFFFF) :
    saturatingSucc (.ofNat n) = .ofNat (min (n + 1) 0xFFFFFFFF) := by
  unfold saturatingSucc
  rcases Nat.lt_or_eq_of_le h with hlt | rfl
  · have hsize : n < UInt32.size := Nat.lt_succ_of_lt hlt
    have hne : UInt32.ofNat n ≠ 0xFFFFFFFF := by
      intro heq
      have hnat : (UInt32.ofNat n).toNat = 0xFFFFFFFF := congrArg UInt32.toNat heq
      rw [UInt32.toNat_ofNat_of_lt' hsize] at hnat
      omega
    rw [if_neg hne, Nat.min_eq_left (by omega), UInt32.ofNat_add]
    rfl
  · rfl

/-- Only `connected` and reconnects change what is counted. -/
theorem counting_concat (es : List Event) {e : Event} (hconnected : e ≠ .connected)
    (hreconnect : e ≠ .reconnect) :
    counting (counted (es ++ [e])) (es ++ [e]) = counting (counted es) es := by
  have hcounted : counted (es ++ [e]) = counted es := by
    simp [counted, reconnectsInRow_concat es hconnected, hreconnect]
  simp [hcounted, counting, hconnected.symm]

/-- **One event within the limit.** -/
theorem step_counting {limit : UInt32} {es : List Event} {e : Event}
    (h : counted (es ++ [e]) ≤ limit.toNat) :
    step limit (counting (counted es) es) e =
      (counting (counted (es ++ [e])) (es ++ [e]), e.action) := by
  simp only [step, isLive_counting, if_true, retryCount_counting]
  cases e with
  | connected => simp [counted, counting, reconnectsInRow_connected, Event.action]
  | reconnect =>
    have hle : counted es ≤ 0xFFFFFFFF := Nat.min_le_right _ _
    have hcounted : min (counted es + 1) 0xFFFFFFFF = counted (es ++ [.reconnect]) := by
      rw [counted, counted, reconnectsInRow_concat es (by decide), List.count_singleton_self]
      omega
    have hstate : counting (counted (es ++ [.reconnect])) (es ++ [.reconnect]) =
        .reconnecting (.ofNat (counted (es ++ [.reconnect]))) :=
      if_pos (show 0 < counted (es ++ [.reconnect]) by omega)
    have hlt : counted (es ++ [.reconnect]) < UInt32.size :=
      Nat.lt_of_le_of_lt h limit.toNat_lt_size
    have hwithin : ¬ limit < .ofNat (counted (es ++ [.reconnect])) := by
      rw [UInt32.lt_iff_toNat_lt, UInt32.toNat_ofNat_of_lt' hlt]
      exact Nat.not_lt.2 h
    rw [saturatingSucc_ofNat hle, hcounted, if_neg hwithin, hstate]
    rfl
  | _ =>
    rw [counting_concat es (by simp) (by simp)]
    rfl

/-- **A run within the limit.** -/
theorem run_counting {limit : UInt32} {es : List Event}
    (h : ∀ p ∈ es.inits, counted p ≤ limit.toNat) :
    run limit .connecting es = (counting (counted es) es, es.map Event.action) := by
  induction es using List.reverseRecOn with
  | nil => rfl
  | append_singleton es e ih =>
    obtain ⟨hes, he⟩ := forall_inits_concat.1 h
    rw [run_append, ih hes, run_cons, step_counting he, List.map_append]
    rfl

/-- While reconnects are tolerated, the state counts them and every event does its own action. -/
theorem run_of_tolerated {limit : UInt32} (hlimit : limit < 0xFFFFFFFF) {es : List Event}
    (h : Tolerated limit es) :
    run limit .connecting es = (counting (reconnectsInRow es) es, es.map Event.action) := by
  have hlt : limit.toNat < 0xFFFFFFFF := hlimit
  have hes : reconnectsInRow es ≤ limit.toNat := h es ((List.mem_inits _ _).2 List.prefix_rfl)
  have hcounted : counted es = reconnectsInRow es := Nat.min_eq_left (by omega)
  rw [← hcounted]
  exact run_counting fun p hp => Nat.le_trans (Nat.min_le_left _ _) (h p hp)

/-! ### Past the limit -/

/-- **The reconnect that passes the limit.** -/
theorem step_reconnect_of_eq {limit : UInt32} (hlimit : limit < 0xFFFFFFFF) {es : List Event}
    (h : reconnectsInRow es = limit.toNat) :
    step limit (counting (reconnectsInRow es) es) .reconnect =
      (.failed (limit + 1), .giveUp (limit + 1)) := by
  have hlt : limit.toNat < 0xFFFFFFFF := hlimit
  have hsucc : saturatingSucc (.ofNat limit.toNat) = limit + 1 := by
    rw [UInt32.ofNat_toNat, saturatingSucc, if_neg (UInt32.ne_of_lt hlimit)]
  have hover : limit < limit + 1 := by
    rw [UInt32.lt_iff_toNat_lt, UInt32.toNat_add, UInt32.toNat_one]
    omega
  simp only [step, isLive_counting, if_true, retryCount_counting, h, hsucc, if_pos hover]

/-- A connection that was given up hears nothing. -/
theorem run_failed (limit attempts : UInt32) (es : List Event) :
    run limit (.failed attempts) es = (.failed attempts, es.map fun _ => .none) := by
  induction es with
  | nil => rfl
  | cons e es ih => rw [run_cons, step_of_not_live rfl, ih, List.map_cons]

/-- **The state of a connection by counting.**  Below the largest limit the state is the one that
the reconnects in a row tell, and every event gets what it asks for, as long as the reconnects in a
row do not pass the limit.  The first reconnect that passes it gives up, after `limit + 1` attempts;
whatever comes later, the state stays failed and nothing is asked for.  The largest limit is never
passed, and the counter stays at its largest value. -/
theorem run_connecting (es : List Event) :
    (∀ limit < 0xFFFFFFFF,
      (Tolerated limit es → run limit .connecting es =
        (counting (reconnectsInRow es) es, es.map Event.action)) ∧
      (¬ Tolerated limit es → ∃ before after, es = before ++ .reconnect :: after ∧
        Tolerated limit before ∧ reconnectsInRow (before ++ [.reconnect]) = limit.toNat + 1 ∧
        ∀ later, run limit .connecting (before ++ .reconnect :: later) = (.failed (limit + 1),
          before.map Event.action ++ .giveUp (limit + 1) :: later.map fun _ => .none))) ∧
    run 0xFFFFFFFF .connecting es =
      (counting (min (reconnectsInRow es) 0xFFFFFFFF) es, es.map Event.action) := by
  refine ⟨fun limit hlimit => ⟨run_of_tolerated hlimit, fun h => ?_⟩,
    run_counting fun p _ => Nat.min_le_right _ _⟩
  obtain ⟨before, after, rfl, hbefore, hcount⟩ := exists_of_not_tolerated h
  refine ⟨before, after, rfl, hbefore, ?_, fun later => ?_⟩
  · rw [reconnectsInRow_concat before (by decide), hcount, List.count_singleton_self]
  · rw [run_append, run_of_tolerated hlimit hbefore, run_cons, step_reconnect_of_eq hlimit hcount,
      run_failed]

example : run 1 .connecting [.reconnect, .connected, .reconnect, .closed, .reconnect, .connected] =
    (.failed 2, [.none, .resolve, .none, .none, .giveUp 2, .none]) := by
  decide

end State
end Link
end BoardBlocks
