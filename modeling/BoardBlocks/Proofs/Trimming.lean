/-
# What trimming leaves

Trimming takes white space away at the two ends of a text and nothing else.  What is visible stays
(`mem_stripBlank`), and so does white space that has something visible on both sides
(`mem_stripBlank_iff`); what is left neither starts nor ends with white space.
-/

import BoardBlocks.Text.Blank
import Mathlib.Data.List.DropRight

namespace BoardBlocks

section Lists

variable {α : Type} {p : α → Bool} {x : α} {xs : List α}

/-- An element that is not dropped stays. -/
theorem mem_dropWhile (hx : p x = false) (h : x ∈ xs) : x ∈ xs.dropWhile p := by
  rw [← @List.takeWhile_append_dropWhile _ p xs, List.mem_append] at h
  rcases h with h | h
  · exact absurd (hx.symm.trans (List.mem_takeWhile_imp h)) Bool.false_ne_true
  · exact h

/-- What is dropped at the end of a list reaches into its first part only if nothing is left of its
second. -/
theorem rdropWhile_append (xs ys : List α) : (xs ++ ys).rdropWhile p =
    if ys.rdropWhile p = [] then xs.rdropWhile p else xs ++ ys.rdropWhile p := by
  rw [List.rdropWhile, List.reverse_append, List.dropWhile_append]
  by_cases hys : ys.reverse.dropWhile p = []
  · simp [List.rdropWhile, hys]
  · simp [List.rdropWhile, hys]

/-- What is left when the end of a list is dropped does not end so. -/
theorem getLast?_rdropWhile (xs : List α) : ∀ x ∈ (xs.rdropWhile p).getLast?, p x = false := by
  intro x hx
  have hhead := List.head?_dropWhile_not p xs.reverse
  rw [List.rdropWhile, List.getLast?_reverse] at hx
  rwa [Option.mem_def.1 hx] at hhead

/-- A list without an element is left alone when the element is taken out. -/
theorem filter_ne_of_not_mem [DecidableEq α] (h : x ∉ xs) : xs.filter (· ≠ x) = xs := by
  refine List.filter_eq_self.2 fun y hy => ?_
  have hne : y ≠ x := fun hyx => h (hyx ▸ hy)
  simpa using hne

end Lists

namespace Text

/-! ### The ends of a trimmed text -/

/-- A trimmed text does not end in white space. -/
theorem isBlank_getLast?_stripBlank (cs : List Char) :
    ∀ c ∈ (stripBlank cs).getLast?, isBlank c = false :=
  getLast?_rdropWhile (dropBlankStart cs)

/-- In particular it does not end in a line break. -/
theorem stripBlank_getLast? (cs : List Char) :
    ∀ c ∈ (stripBlank cs).getLast?, c ≠ '\r' ∧ c ≠ '\n' := by
  intro c hc
  have hblank := isBlank_getLast?_stripBlank cs c hc
  constructor <;> rintro rfl <;> exact absurd hblank (by decide)

/-- Nor does it start with white space. -/
theorem isBlank_head?_stripBlank (cs : List Char) :
    ∀ c ∈ (stripBlank cs).head?, isBlank c = false := by
  intro c hc
  obtain ⟨rest, hrest⟩ : stripBlank cs <+: dropBlankStart cs := List.rdropWhile_prefix _ _
  have hne : stripBlank cs ≠ [] := by
    rintro hnil
    simp [hnil] at hc
  have hhead := List.head?_dropWhile_not isBlank cs
  rw [← dropBlankStart, ← hrest, List.head?_append_of_ne_nil _ hne, Option.mem_def.1 hc] at hhead
  exact hhead

/-- A text that neither starts nor ends with white space is left alone. -/
theorem stripBlank_eq_self {cs : List Char} (hstart : ∀ c ∈ cs.head?, isBlank c = false)
    (hend : ∀ c ∈ cs.getLast?, isBlank c = false) : stripBlank cs = cs := by
  have hkeep : dropBlankStart cs = cs := by
    cases cs with
    | nil => rfl
    | cons c cs => exact List.dropWhile_cons_of_neg (by simp [hstart c rfl])
  rw [stripBlank, hkeep]
  refine List.rdropWhile_eq_self_iff.2 fun hne => ?_
  simp [hend _ (List.getLast?_eq_some_getLast hne)]

/-- A text that is trimmed does not start with white space. -/
theorem dropBlankStart_of_stripBlank {cs : List Char} (h : stripBlank cs = cs) :
    dropBlankStart cs = cs := by
  have hprefix : (stripBlank cs).length ≤ (dropBlankStart cs).length :=
    (List.rdropWhile_prefix isBlank (dropBlankStart cs)).length_le
  rw [h] at hprefix
  exact (List.dropWhile_sublist isBlank).eq_of_length_le hprefix

/-! ### What stays inside -/

/-- Only white space is lost at the ends of a text. -/
theorem mem_stripBlank {c : Char} (hc : isBlank c = false) {cs : List Char} (h : c ∈ cs) :
    c ∈ stripBlank cs := by
  have hstart : c ∈ dropBlankStart cs := mem_dropWhile hc h
  have hend := mem_dropWhile hc (List.mem_reverse.2 hstart)
  exact List.mem_reverse.2 hend

/-- Of a text that is not blank, trimming the start leaves the end. -/
theorem dropBlankStart_append {cs : List Char} (h : ∃ c ∈ cs, isBlank c = false)
    (rest : List Char) : dropBlankStart (cs ++ rest) = dropBlankStart cs ++ rest := by
  obtain ⟨c, hc, hvisible⟩ := h
  have hne : cs.dropWhile isBlank ≠ [] := List.ne_nil_of_mem (mem_dropWhile hvisible hc)
  rw [dropBlankStart, List.dropWhile_append, if_neg (by simpa using hne)]
  rfl

/-- Of a text that is not blank, trimming the end leaves the start. -/
theorem dropBlankEnd_append {cs : List Char} (h : ∃ c ∈ cs, isBlank c = false)
    (front : List Char) : dropBlankEnd (front ++ cs) = front ++ dropBlankEnd cs := by
  obtain ⟨c, hc, hvisible⟩ := h
  have hne : cs.rdropWhile isBlank ≠ [] := by
    intro hnil
    have hblank := List.rdropWhile_eq_nil_iff.1 hnil c hc
    exact absurd hblank (by simp [hvisible])
  exact (rdropWhile_append front cs).trans (if_neg hne)

/-- White space between visible characters stays, and so does what is between the two. -/
theorem stripBlank_append {before after : List Char} (c : Char)
    (hbefore : ∃ x ∈ before, isBlank x = false) (hafter : ∃ x ∈ after, isBlank x = false) :
    stripBlank (before ++ c :: after) = dropBlankStart before ++ c :: dropBlankEnd after := by
  rw [stripBlank, dropBlankStart_append hbefore, List.append_cons, dropBlankEnd_append hafter,
    List.append_assoc]
  rfl

/-- White space stays where something visible is before and behind it. -/
theorem mem_stripBlank_iff {c : Char} (hc : isBlank c = true) {cs : List Char} :
    c ∈ stripBlank cs ↔ ∃ before after, cs = before ++ c :: after ∧
      (∃ x ∈ before, isBlank x = false) ∧ ∃ x ∈ after, isBlank x = false := by
  constructor
  · intro hmem
    obtain ⟨before, after, hparts⟩ := List.append_of_mem hmem
    have hstart : cs.takeWhile isBlank ++ dropBlankStart cs = cs :=
      List.takeWhile_append_dropWhile
    have hend : stripBlank cs ++ (dropBlankStart cs).rtakeWhile isBlank = dropBlankStart cs :=
      List.rdropWhile_append_rtakeWhile
    rw [hparts, List.append_assoc, List.cons_append] at hend
    refine ⟨cs.takeWhile isBlank ++ before, after ++ (dropBlankStart cs).rtakeWhile isBlank,
      ?_, ?_, ?_⟩
    · rw [List.append_assoc, hend, hstart]
    · -- what is left starts with something visible, so it does not start with `c`
      have hhead := List.head?_dropWhile_not isBlank cs
      rw [← dropBlankStart, ← hend] at hhead
      cases before with
      | nil => exact absurd hhead (by simp [hc])
      | cons x before => exact ⟨x, by simp, by simpa using hhead⟩
    · -- nor does it end with `c`
      have hlast := isBlank_getLast?_stripBlank cs
      rw [hparts, List.getLast?_append, List.getLast?_cons] at hlast
      cases hafter : after.getLast? with
      | none => exact absurd (hlast c (by simp [hafter])) (by simp [hc])
      | some x =>
        have hx : x ∈ after := List.mem_of_getLast? hafter
        exact ⟨x, by simp [hx], hlast x (by simp [hafter])⟩
  · rintro ⟨before, after, rfl, hbefore, hafter⟩
    rw [stripBlank_append c hbefore hafter]
    simp

end Text
end BoardBlocks
