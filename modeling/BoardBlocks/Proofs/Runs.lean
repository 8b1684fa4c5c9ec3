/-
# Runs

A machine takes operations one after the other; each changes its state and gives an output.
-/

import Mathlib.Data.List.Induction

namespace BoardBlocks

variable {σ ω ε : Type}

/-- The state after operations in order and the output of each of them. -/
def runWith (step : σ → ω → σ × ε) (s : σ) : List ω → σ × List ε
  | [] => (s, [])
  | op :: ops =>
    ((runWith step (step s op).1 ops).1, (step s op).2 :: (runWith step (step s op).1 ops).2)

/-- Operations later are a run from the state that those before leave. -/
theorem runWith_append (step : σ → ω → σ × ε) (s : σ) (ops ops' : List ω) :
    runWith step s (ops ++ ops') =
      ((runWith step (runWith step s ops).1 ops').1,
        (runWith step s ops).2 ++ (runWith step (runWith step s ops).1 ops').2) := by
  induction ops generalizing s with
  | nil => rfl
  | cons op ops ih =>
    rw [List.cons_append, runWith, ih]
    rfl

/-- Each operation gives one output. -/
theorem length_runWith (step : σ → ω → σ × ε) (s : σ) (ops : List ω) :
    (runWith step s ops).2.length = ops.length := by
  induction ops generalizing s with
  | nil => rfl
  | cons op ops ih => rw [runWith, List.length_cons, List.length_cons, ih]

/-- What `f` says of each operation and the ones before it, in order. -/
def eachAfter (f : List ω → ω → ε) (ops : List ω) : List ε :=
  ops.mapIdx fun i op => f (ops.take i) op

theorem eachAfter_concat (f : List ω → ω → ε) (ops : List ω) (op : ω) :
    eachAfter f (ops ++ [op]) = eachAfter f ops ++ [f ops op] := by
  have hbefore : (ops.mapIdx fun i op' => f ((ops ++ [op]).take i) op') = eachAfter f ops := by
    refine List.mapIdx_eq_mapIdx_iff.2 fun i hi => ?_
    rw [List.take_append_of_le_length (Nat.le_of_lt hi)]
  rw [eachAfter, List.mapIdx_concat, hbefore, List.take_left]

/-- Each output is what the operation gives in the state that those before it leave. -/
theorem runWith_outputs (step : σ → ω → σ × ε) (s : σ) (ops : List ω) :
    (runWith step s ops).2 =
      eachAfter (fun before op => (step (runWith step s before).1 op).2) ops := by
  induction ops using List.reverseRecOn with
  | nil => rfl
  | append_singleton ops op ih =>
    rw [runWith_append, eachAfter_concat, ih]
    rfl

/-- **What every operation preserves, every run preserves.** -/
theorem runWith_invariant {step : σ → ω → σ × ε} {P : σ → Prop}
    (hstep : ∀ s op, P s → P (step s op).1) {s : σ} (h : P s) (ops : List ω) :
    P (runWith step s ops).1 := by
  induction ops generalizing s with
  | nil => exact h
  | cons op ops ih => exact ih (hstep s op h)

end BoardBlocks
