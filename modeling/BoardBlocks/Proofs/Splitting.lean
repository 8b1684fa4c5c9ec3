/-
# Lists split at a separator

What becomes of the pieces when a list grows at its end, is put together from parts, or is joined
with separators.  A separator at the end leaves an empty piece behind it.
-/

import Mathlib.Data.List.Basic

namespace BoardBlocks

/-! ### An element more at the end -/

/-- A separator at the end leaves an empty last part. -/
theorem splitOn_concat_self {α : Type} [DecidableEq α] (a : α) (xs : List α) :
    (xs ++ [a]).splitOn a = xs.splitOn a ++ [[]] :=
  List.splitOn_append_cons_self xs []

/-- Another element than the separator goes to the last part. -/
theorem splitOn_concat_of_ne {α : Type} [DecidableEq α] {a b : α} (h : b ≠ a) (xs : List α) :
    ∃ init last, xs.splitOn a = init ++ [last] ∧
      (xs ++ [b]).splitOn a = init ++ [last ++ [b]] := by
  induction xs with
  | nil =>
    refine ⟨[], [], rfl, ?_⟩
    rw [List.nil_append, List.splitOn_eq_singleton (by simpa using h.symm)]
    rfl
  | cons x xs ih =>
    obtain ⟨init, last, hxs, hconcat⟩ := ih
    rw [List.cons_append, List.splitOn_cons_eq_if_modifyHead, List.splitOn_cons_eq_if_modifyHead,
      hxs, hconcat]
    by_cases hx : x = a
    · exact ⟨[] :: init, last, by simp [hx], by simp [hx]⟩
    · cases init with
      | nil => exact ⟨[], x :: last, by simp [hx], by simp [hx]⟩
      | cons first init => exact ⟨(x :: first) :: init, last, by simp [hx], by simp [hx]⟩

/-! ### Parts put together -/

/-- Joined pieces fall into the parts of each of them. -/
theorem splitOn_intercalate {α : Type} [DecidableEq α] (a : α) {xs : List (List α)} (h : xs ≠ []) :
    ([a].intercalate xs).splitOn a = xs.flatMap (·.splitOn a) := by
  induction xs with
  | nil => exact absurd rfl h
  | cons x xs ih =>
    cases xs with
    | nil => simp
    | cons y ys =>
      rw [List.intercalate_cons_cons, List.append_assoc, List.singleton_append,
        List.splitOn_append_cons_self, ih (List.cons_ne_nil y ys), ← List.flatMap_cons]

/-- Joined pieces hold what the pieces and the separator hold. -/
theorem not_mem_intercalate {α : Type} {a : α} {sep : List α} (hsep : a ∉ sep) {xs : List (List α)}
    (h : ∀ x ∈ xs, a ∉ x) : a ∉ sep.intercalate xs := by
  induction xs with
  | nil => simp
  | cons x xs ih =>
    obtain ⟨hx, hxs⟩ := List.forall_mem_cons.1 h
    cases xs with
    | nil => simpa using hx
    | cons y ys =>
      rw [List.intercalate_cons_cons, List.mem_append, List.mem_append]
      exact not_or.2 ⟨not_or.2 ⟨hx, hsep⟩, ih hxs⟩

/-- Parts that each end in a separator fall into the pieces of each of them. -/
theorem splitOn_flatMap_concat {α β : Type} [DecidableEq α] (a : α) (f : β → List α) (ys : List β)
    (rest : List α) :
    ((ys.flatMap fun y => f y ++ [a]) ++ rest).splitOn a =
      (ys.flatMap fun y => (f y).splitOn a) ++ rest.splitOn a := by
  induction ys with
  | nil => rfl
  | cons y ys ih =>
    rw [List.flatMap_cons, List.flatMap_cons, List.append_assoc, List.append_assoc,
      List.singleton_append, List.splitOn_append_cons_self, ih, List.append_assoc]

/-! ### Pieces -/

/-- No piece of a list holds the element that it was cut at. -/
theorem not_mem_of_mem_splitOn {α : Type} [DecidableEq α] {a : α} {xs x : List α}
    (h : x ∈ xs.splitOn a) : a ∉ x := by
  induction xs generalizing x with
  | nil =>
    rw [List.splitOn_nil, List.mem_singleton] at h
    simp [h]
  | cons y ys ih =>
    rw [List.splitOn_cons_eq_if_modifyHead] at h
    split at h
    · rcases List.mem_cons.1 h with rfl | h
      · exact List.not_mem_nil
      · exact ih h
    · rename_i hne
      cases hys : ys.splitOn a with
      | nil => exact absurd hys (List.splitOn_ne_nil a ys)
      | cons z zs =>
        rw [hys] at ih h
        rcases List.mem_cons.1 h with rfl | h
        · have hz : a ∉ z := ih List.mem_cons_self
          intro ha
          rcases List.mem_cons.1 ha with rfl | ha
          · exact hne (beq_self_eq_true a)
          · exact hz ha
        · exact ih (List.mem_cons_of_mem z h)

end BoardBlocks
