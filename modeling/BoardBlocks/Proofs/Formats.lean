/-
# Formats of a script

How Python fills a format from a tuple, as far as generated lines need it: `%s` takes the next
element, `%%` is one percent sign, and every element has to be taken.  A text whose percent signs
are doubled is filled as itself (`fill_double`), and a format may be filled piece by piece
(`fill_append`).

Doubling the percent signs of an argument and cleaning it commute (`cleanChars_double`).
-/

import BoardBlocks.Wire.Command
import Mathlib.Data.List.Basic

namespace BoardBlocks

/-! ### Formats -/

namespace Format

/-- A format filled with the elements of a tuple; `none` if it is malformed, takes more elements
than there are, or leaves some. -/
def fill : List Char → List (List Char) → Option (List Char)
  | [], [] => some []
  | [], _ :: _ => none
  | '%' :: '%' :: cs, vs => (fill cs vs).map ('%' :: ·)
  | '%' :: 's' :: cs, v :: vs => (fill cs vs).map (v ++ ·)
  | '%' :: _, _ => none
  | c :: cs, vs => (fill cs vs).map (c :: ·)

/-- How a character of a literal text is written in a format. -/
def double (c : Char) : List Char :=
  if c = '%' then ['%', '%'] else [c]

theorem fill_cons {c : Char} (h : c ≠ '%') (cs : List Char) (vs : List (List Char)) :
    fill (c :: cs) vs = (fill cs vs).map (c :: ·) := by
  rw [fill.eq_def]
  split <;> simp_all

/-- **A format is filled piece by piece.** -/
theorem fill_append {cs ds u w : List Char} {vs ws : List (List Char)}
    (h : fill cs vs = some u) (h' : fill ds ws = some w) :
    fill (cs ++ ds) (vs ++ ws) = some (u ++ w) := by
  fun_induction fill cs vs generalizing u with
  | case1 =>
    obtain rfl := Option.some.inj h
    exact h'
  | case2 => exact nomatch h
  | case3 cs vs ih =>
    obtain ⟨t, ht, rfl⟩ := Option.map_eq_some_iff.1 h
    simp [fill, ih ht]
  | case4 cs v vs ih =>
    obtain ⟨t, ht, rfl⟩ := Option.map_eq_some_iff.1 h
    simp [fill, ih ht]
  | case5 => exact nomatch h
  | case6 c cs vs _ _ hc ih =>
    obtain ⟨t, ht, rfl⟩ := Option.map_eq_some_iff.1 h
    rw [List.cons_append, fill_cons hc, ih ht]
    rfl

/-- **A text with doubled percent signs is filled as itself**, and takes no element. -/
theorem fill_double (cs : List Char) : fill (cs.flatMap double) [] = some cs := by
  induction cs with
  | nil => rfl
  | cons c cs ih =>
    rw [List.flatMap_cons, double]
    split_ifs with hc
    · obtain rfl := hc
      simp [fill, ih]
    · rw [List.singleton_append, fill_cons hc, ih]
      rfl

/-- A text without percent signs is filled as itself. -/
theorem fill_of_not_mem {cs : List Char} (h : '%' ∉ cs) : fill cs [] = some cs := by
  have hdouble : cs.flatMap double = cs := by
    induction cs with
    | nil => rfl
    | cons c cs ih =>
      obtain ⟨hc, hcs⟩ := not_or.1 (List.mem_cons.not.1 h)
      rw [List.flatMap_cons, ih hcs, double, if_neg (Ne.symm hc), List.singleton_append]
  rw [← hdouble]
  simpa only [hdouble] using fill_double cs

/-- A format put together from pieces with a separator between them. -/
theorem fill_intercalate {α : Type} {sep : List Char} (hsep : fill sep [] = some sep)
    {f g : α → List Char} {vs : α → List (List Char)} {xs : List α}
    (h : ∀ x ∈ xs, fill (f x) (vs x) = some (g x)) :
    fill (sep.intercalate (xs.map f)) (xs.flatMap vs) = some (sep.intercalate (xs.map g)) := by
  induction xs with
  | nil => rfl
  | cons x xs ih =>
    have hx := h x List.mem_cons_self
    have hrest := ih fun y hy => h y (List.mem_cons_of_mem _ hy)
    cases xs with
    | nil => simpa using hx
    | cons y ys =>
      have hhead := fill_append hx hsep
      rw [List.append_nil] at hhead
      rw [List.map_cons, List.map_cons, List.map_cons, List.map_cons, List.intercalate_cons_cons,
        List.intercalate_cons_cons, List.flatMap_cons]
      exact fill_append hhead hrest

theorem fill_slot (v : List Char) : fill ['%', 's'] [v] = some v := by
  simp [fill]

end Format

/-! ### Cleaned arguments -/

namespace Wire

open Format (double)

/-- Doubling percent signs and dropping leading blanks can change places. -/
theorem dropWhile_double (cs : List Char) : (cs.flatMap double).dropWhile Text.isBlank =
    (cs.dropWhile Text.isBlank).flatMap double := by
  induction cs with
  | nil => rfl
  | cons c cs ih =>
    by_cases hc : c = '%'
    · obtain rfl := hc
      rfl
    · have hdouble : double c = [c] := if_neg hc
      rw [List.flatMap_cons, hdouble, List.singleton_append, List.dropWhile_cons,
        List.dropWhile_cons]
      split_ifs
      · exact ih
      · rw [List.flatMap_cons, hdouble, List.singleton_append]

/-- Doubling percent signs and reversing can change places. -/
theorem reverse_double (cs : List Char) :
    (cs.flatMap double).reverse = cs.reverse.flatMap double := by
  have hsym : List.reverse ∘ double = double := by
    funext c
    unfold Function.comp double
    split_ifs <;> rfl
  rw [List.reverse_flatMap, hsym]

/-- **Doubling percent signs and cleaning commute.** -/
theorem cleanChars_double (cs : List Char) :
    cleanChars (cs.flatMap double) = (cleanChars cs).flatMap double := by
  have hfilter : (cs.flatMap double).filter (· ≠ '"') =
      (cs.filter (· ≠ '"')).flatMap double := by
    induction cs with
    | nil => rfl
    | cons c cs ih =>
      rw [List.flatMap_cons, List.filter_append, ih, List.filter_cons]
      by_cases hquote : c = '"'
      · obtain rfl := hquote
        rfl
      · have hkeep : (double c).filter (· ≠ '"') = double c := by
          unfold double
          split_ifs <;> simp [hquote]
        rw [hkeep, if_pos (by simpa using hquote), List.flatMap_cons]
  rw [cleanChars, cleanChars, hfilter, Text.stripBlank, Text.stripBlank, Text.dropBlankStart,
    Text.dropBlankStart, dropWhile_double, Text.dropBlankEnd, Text.dropBlankEnd, reverse_double,
    dropWhile_double, reverse_double]

end Wire
end BoardBlocks
