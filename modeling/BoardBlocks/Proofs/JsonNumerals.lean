/-
# Numerals read back

A numeral has no end mark: it ends where the text stops being one.  In a document a value is
followed by a comma, a closing bracket or nothing, and none of them can be taken for a further
character of the numeral.  So a text that is a numeral as a whole is the numeral that is found in
front of whatever may follow a value (`scan_append`), and the numeral found is spelled by just the
characters that were passed over (`chars_scan`).

A natural number is written in digits without leading zeros, and reads back as itself
(`natBelow?_ofNat`).
-/

import BoardBlocks.Json.Record
import Mathlib.Data.List.Basic
import Mathlib.Data.List.TakeWhile

namespace BoardBlocks

/-- Whether a text may follow a value inside a document. -/
def Json.Ends (cs : List Char) : Prop :=
  ∀ c ∈ cs.head?, c = ',' ∨ c = ']' ∨ c = '\x7d'

theorem Json.ends_nil : Ends [] := by simp [Ends]

namespace Decimal

open Json (Ends)
open Text (digitsOf natOf)

variable {cs rest : List Char}

/-! ### Cutting a text in front of what follows a value -/

/-- What follows a value fails every test that the characters after a value fail. -/
theorem head?_of_ends (h : Ends rest) {p : Char → Bool}
    (hp : p ',' = false ∧ p ']' = false ∧ p '\x7d' = false) : ∀ c ∈ rest.head?, p c = false := by
  intro c hc
  rcases h c hc with rfl | rfl | rfl
  · exact hp.1
  · exact hp.2.1
  · exact hp.2.2

/-- A text that stops a run of characters does not change the run that comes before it. -/
theorem takeWhile_append_ends {p : Char → Bool} (h : ∀ c ∈ rest.head?, p c = false) :
    (cs ++ rest).takeWhile p = cs.takeWhile p ∧
      (cs ++ rest).dropWhile p = cs.dropWhile p ++ rest := by
  induction cs with
  | nil =>
    cases rest with
    | nil => exact ⟨rfl, rfl⟩
    | cons c rest =>
      have hc : p c = false := h c rfl
      simp [hc]
  | cons c cs ih =>
    by_cases hc : p c = true
    · simp [hc, ih]
    · simp [hc]

/-- In particular a text that may follow a value does not change the digits before it. -/
theorem digits_append_ends (cs : List Char) (h : Ends rest) :
    (cs ++ rest).takeWhile Char.isDigit = cs.takeWhile Char.isDigit ∧
      (cs ++ rest).dropWhile Char.isDigit = cs.dropWhile Char.isDigit ++ rest :=
  takeWhile_append_ends (head?_of_ends h (by decide))

/-! ### The parts of a numeral -/

theorem scanWhole_zero (cs : List Char) : scanWhole ('0' :: cs) = some (['0'], cs) := rfl

/-- A whole part that does not start with a zero is all the digits there are. -/
theorem scanWhole_of_ne {c : Char} (h : c ≠ '0') (cs : List Char) : scanWhole (c :: cs) =
    if c.isDigit then some ((c :: cs).takeWhile Char.isDigit, (c :: cs).dropWhile Char.isDigit)
    else none := by
  rw [scanWhole]
  exact h

/-- A point needs a digit behind it. -/
theorem scanFraction_point (cs : List Char) : scanFraction ('.' :: cs) =
    if (cs.takeWhile Char.isDigit).isEmpty then none
    else some (cs.takeWhile Char.isDigit, cs.dropWhile Char.isDigit) := rfl

theorem scanFraction_of_head? (h : cs.head? ≠ some '.') : scanFraction cs = some ([], cs) := by
  cases cs with
  | nil => rfl
  | cons c cs =>
    rw [scanFraction]
    rintro _ heq
    obtain ⟨rfl, -⟩ := List.cons.inj heq
    exact h rfl

/-- A whole part is read the same with a text behind it that may follow a value. -/
theorem scanWhole_append {w r : List Char} (h : scanWhole cs = some (w, r)) (hrest : Ends rest) :
    scanWhole (cs ++ rest) = some (w, r ++ rest) := by
  cases cs with
  | nil => simp [scanWhole] at h
  | cons c cs =>
    rw [List.cons_append]
    by_cases hc : c = '0'
    · subst hc
      rw [scanWhole_zero] at h ⊢
      obtain ⟨rfl, rfl⟩ := Prod.mk.inj (Option.some.inj h)
      rfl
    · rw [scanWhole_of_ne hc] at h ⊢
      obtain ⟨htake, hdrop⟩ := digits_append_ends (c :: cs) hrest
      rw [← List.cons_append, htake, hdrop]
      split at h
      · obtain ⟨rfl, rfl⟩ := Prod.mk.inj (Option.some.inj h)
        rw [if_pos (by assumption)]
      · simp at h

/-- A fraction is read the same with a text behind it that may follow a value. -/
theorem scanFraction_append {f r : List Char} (h : scanFraction cs = some (f, r))
    (hrest : Ends rest) : scanFraction (cs ++ rest) = some (f, r ++ rest) := by
  by_cases hpoint : cs.head? = some '.'
  · obtain ⟨tail, rfl⟩ := List.head?_eq_some_iff.1 hpoint
    obtain ⟨htake, hdrop⟩ := digits_append_ends tail hrest
    rw [scanFraction_point] at h
    rw [List.cons_append, scanFraction_point, htake, hdrop]
    split at h
    · simp at h
    · obtain ⟨rfl, rfl⟩ := Prod.mk.inj (Option.some.inj h)
      rw [if_neg (by assumption)]
  · rw [scanFraction_of_head? hpoint] at h
    obtain ⟨rfl, rfl⟩ := Prod.mk.inj (Option.some.inj h)
    refine scanFraction_of_head? fun hhead => ?_
    rw [List.head?_append, Option.or_eq_some_iff] at hhead
    rcases hhead with hhead | ⟨-, hhead⟩
    · exact hpoint hhead
    · rcases hrest _ hhead with h | h | h <;> exact absurd h (by decide)

/-- An exponent letter at the very end of a text could take a sign from what follows. -/
theorem scanMark_append (h : (scanMark cs).1 = [] ∨ (scanMark cs).2 ≠ []) (hrest : Ends rest) :
    scanMark (cs ++ rest) = ((scanMark cs).1, (scanMark cs).2 ++ rest) := by
  rcases cs with _ | ⟨e, _ | ⟨s, cs⟩⟩
  · cases rest with
    | nil => rfl
    | cons c rest =>
      have hc : ¬(c = 'e' ∨ c = 'E') := by
        rcases hrest c rfl with rfl | rfl | rfl <;> decide
      simp [scanMark, hc]
  · by_cases he : e = 'e' ∨ e = 'E'
    · simp [scanMark, he] at h
    · simp [scanMark, he]
  · by_cases he : e = 'e' ∨ e = 'E'
    · by_cases hs : s = '+' ∨ s = '-' <;> simp [scanMark, he, hs]
    · simp [scanMark, he]

/-- The mark and the digits of an exponent at the head of a text, with what follows them; both are
empty if there is no mark. -/
def scanExponent (cs : List Char) : Option (List Char × List Char × List Char) :=
  if (scanMark cs).1.isEmpty then some ((scanMark cs).1, [], (scanMark cs).2)
  else if ((scanMark cs).2.takeWhile Char.isDigit).isEmpty then none
  else some ((scanMark cs).1, (scanMark cs).2.takeWhile Char.isDigit,
    (scanMark cs).2.dropWhile Char.isDigit)

/-- An exponent is read the same with a text behind it that may follow a value. -/
theorem scanExponent_append {m e r : List Char} (h : scanExponent cs = some (m, e, r))
    (hrest : Ends rest) : scanExponent (cs ++ rest) = some (m, e, r ++ rest) := by
  unfold scanExponent at h ⊢
  split at h
  · rename_i hmark
    have happend := scanMark_append (.inl (List.isEmpty_iff.1 hmark)) hrest
    simp only [Option.some.injEq, Prod.mk.injEq] at h
    obtain ⟨rfl, rfl, rfl⟩ := h
    rw [happend, if_pos hmark]
  · rename_i hmark
    split at h
    · simp at h
    · rename_i hdigits
      have hleft : (scanMark cs).2 ≠ [] := by
        intro hnil
        simp [hnil] at hdigits
      obtain ⟨htake, hdrop⟩ := digits_append_ends (scanMark cs).2 hrest
      simp only [Option.some.injEq, Prod.mk.injEq] at h
      obtain ⟨rfl, rfl, rfl⟩ := h
      rw [scanMark_append (.inr hleft) hrest, htake, hdrop, if_neg hmark, if_neg hdigits]

/-- What is found is what is passed over. -/
theorem scanWhole_eq {w r : List Char} (h : scanWhole cs = some (w, r)) : w ++ r = cs := by
  cases cs with
  | nil => simp [scanWhole] at h
  | cons c cs =>
    by_cases hc : c = '0'
    · subst hc
      obtain ⟨rfl, rfl⟩ := Prod.mk.inj (Option.some.inj h)
      rfl
    · rw [scanWhole_of_ne hc] at h
      split at h
      · obtain ⟨rfl, rfl⟩ := Prod.mk.inj (Option.some.inj h)
        exact List.takeWhile_append_dropWhile
      · simp at h

/-- The point, the digits of a fraction and the rest are the text that was read. -/
theorem scanFraction_eq {f r : List Char} (h : scanFraction cs = some (f, r)) :
    (if f = [] then [] else '.' :: f) ++ r = cs := by
  by_cases hpoint : cs.head? = some '.'
  · obtain ⟨tail, rfl⟩ := List.head?_eq_some_iff.1 hpoint
    rw [scanFraction_point] at h
    split at h
    · simp at h
    · rename_i hdigits
      obtain ⟨rfl, rfl⟩ := Prod.mk.inj (Option.some.inj h)
      rw [if_neg (by simpa using hdigits), List.cons_append, List.takeWhile_append_dropWhile]
  · rw [scanFraction_of_head? hpoint] at h
    obtain ⟨rfl, rfl⟩ := Prod.mk.inj (Option.some.inj h)
    rfl

/-- The letter and sign of an exponent and the rest are the text that was read. -/
theorem scanMark_eq (cs : List Char) : (scanMark cs).1 ++ (scanMark cs).2 = cs := by
  rcases cs with _ | ⟨e, _ | ⟨s, cs⟩⟩
  · rfl
  · by_cases he : e = 'e' ∨ e = 'E' <;> simp [scanMark, he]
  · by_cases he : e = 'e' ∨ e = 'E'
    · by_cases hs : s = '+' ∨ s = '-' <;> simp [scanMark, he, hs]
    · simp [scanMark, he]

/-- The mark and the digits of an exponent and the rest are the text that was read. -/
theorem scanExponent_eq {m e r : List Char} (h : scanExponent cs = some (m, e, r)) :
    m ++ e ++ r = cs := by
  unfold scanExponent at h
  split at h
  · simp only [Option.some.injEq, Prod.mk.injEq] at h
    obtain ⟨rfl, rfl, rfl⟩ := h
    rw [List.append_nil, scanMark_eq]
  · split at h
    · simp at h
    · simp only [Option.some.injEq, Prod.mk.injEq] at h
      obtain ⟨rfl, rfl, rfl⟩ := h
      rw [List.append_assoc, List.takeWhile_append_dropWhile, scanMark_eq]

/-! ### Whole numerals -/

/-- The text behind a minus sign, if there is one. -/
def unsigned (cs : List Char) : List Char :=
  if cs.head? = some '-' then cs.tail else cs

/-- **What a scan finds**: behind the sign a whole part, a fraction and an exponent. -/
theorem scan_eq_some_iff {n : Numeral} {r : List Char} : Numeral.scan cs = some (n, r) ↔
    ∃ w r₁ f r₂ m e, scanWhole (unsigned cs) = some (w, r₁) ∧ scanFraction r₁ = some (f, r₂) ∧
      scanExponent r₂ = some (m, e, r) ∧ n = ⟨cs.head? = some '-', w, f, m, e⟩ := by
  have hscan : Numeral.scan cs = (scanWhole (unsigned cs)).bind fun w =>
      (scanFraction w.2).bind fun f => (scanExponent f.2).bind fun e =>
        some (⟨cs.head? = some '-', w.1, f.1, e.1, e.2.1⟩, e.2.2) := by
    simp only [Numeral.scan, unsigned, Option.bind_eq_bind]
    refine Option.bind_congr fun p _ => Option.bind_congr fun q _ => ?_
    unfold scanExponent
    split
    · rename_i hmark
      rw [List.isEmpty_iff.1 hmark]
      rfl
    · split <;> rfl
  rw [hscan]
  simp only [Option.bind_eq_some_iff, Prod.exists, Option.some.injEq, Prod.mk.injEq]
  constructor
  · rintro ⟨w, r₁, hw, f, r₂, hf, m, e, r', he, rfl, rfl⟩
    exact ⟨w, r₁, f, r₂, m, e, hw, hf, he, rfl⟩
  · rintro ⟨w, r₁, f, r₂, m, e, hw, hf, he, rfl⟩
    exact ⟨w, r₁, hw, f, r₂, hf, m, e, r, he, rfl, rfl⟩

/-- **A numeral ends where a value may end.** -/
theorem scan_append {n : Numeral} (h : Numeral.scan cs = some (n, [])) (hrest : Ends rest) :
    Numeral.scan (cs ++ rest) = some (n, rest) := by
  obtain ⟨w, r₁, f, r₂, m, e, hw, hf, he, rfl⟩ := scan_eq_some_iff.1 h
  have hne : cs ≠ [] := by
    rintro rfl
    simp [unsigned, scanWhole] at hw
  have hhead : (cs ++ rest).head? = cs.head? := List.head?_append_of_ne_nil cs hne
  have hunsigned : unsigned (cs ++ rest) = unsigned cs ++ rest := by
    unfold unsigned
    rw [hhead]
    split
    · exact List.tail_append_of_ne_nil hne
    · rfl
  refine scan_eq_some_iff.2 ⟨w, r₁ ++ rest, f, r₂ ++ rest, m, e, ?_, scanFraction_append hf hrest,
    scanExponent_append he hrest, by rw [hhead]⟩
  rw [hunsigned]
  exact scanWhole_append hw hrest

/-- The numeral found is spelled by the characters passed over. -/
theorem chars_scan {n : Numeral} {r : List Char} (h : Numeral.scan cs = some (n, r)) :
    n.chars ++ r = cs := by
  obtain ⟨w, r₁, f, r₂, m, e, hw, hf, he, rfl⟩ := scan_eq_some_iff.1 h
  have hsign : (if cs.head? = some '-' then ['-'] else []) ++ unsigned cs = cs := by
    unfold unsigned
    split
    · rename_i hminus
      obtain ⟨tail, rfl⟩ := List.head?_eq_some_iff.1 hminus
      rfl
    · rfl
  calc (Numeral.chars ⟨cs.head? = some '-', w, f, m, e⟩) ++ r
      = (if cs.head? = some '-' then ['-'] else []) ++
          (w ++ ((if f = [] then [] else '.' :: f) ++ (m ++ e ++ r))) := by
        simp [Numeral.chars]
    _ = (if cs.head? = some '-' then ['-'] else []) ++ unsigned cs := by
        rw [scanExponent_eq he, scanFraction_eq hf, scanWhole_eq hw]
    _ = cs := hsign

/-- The numeral that a text is as a whole is found in front of whatever may follow a value. -/
theorem scan_ofString? {written : String} {n : Numeral}
    (h : Numeral.ofString? written = some n) (hrest : Ends rest) :
    Numeral.scan (written.toList ++ rest) = some (n, rest) ∧ n.chars = written.toList := by
  have hscan : Numeral.scan written.toList = some (n, []) := by
    unfold Numeral.ofString? at h
    split at h
    · rename_i heq
      rw [heq, Option.some.inj h]
    · simp at h
  have hchars := chars_scan hscan
  rw [List.append_nil] at hchars
  exact ⟨scan_append hscan hrest, hchars⟩

/-- A numeral starts with a minus sign or a digit. -/
theorem head?_of_scan {n : Numeral} {r : List Char} (h : Numeral.scan cs = some (n, r)) :
    ∃ c tail, cs = c :: tail ∧ (c = '-' ∨ c.isDigit = true) := by
  obtain ⟨w, r₁, -, -, -, -, hw, -⟩ := scan_eq_some_iff.1 h
  cases cs with
  | nil => simp [unsigned, scanWhole] at hw
  | cons c tail =>
    refine ⟨c, tail, rfl, ?_⟩
    by_cases hminus : c = '-'
    · exact .inl hminus
    · have hunsigned : unsigned (c :: tail) = c :: tail := by simp [unsigned, hminus]
      rw [hunsigned] at hw
      by_cases hzero : c = '0'
      · exact .inr (hzero ▸ by decide)
      · rw [scanWhole_of_ne hzero] at hw
        split at hw
        · exact .inr (by assumption)
        · simp at hw

/-! ### Natural numbers -/

theorem toList_toString (n : Nat) : (toString n).toList = Nat.toDigits 10 n := by
  rw [Nat.toString_eq_ofList_toDigits, String.toList_ofList]

/-- Only zero is written with a zero in front. -/
theorem toDigits_zero_cons {n : Nat} {ds : List Char} (h : Nat.toDigits 10 n = '0' :: ds) :
    ds = [] := by
  induction n using Nat.strongRecOn generalizing ds with
  | _ n ih =>
    rw [Nat.toDigits_eq_if (by decide)] at h
    split at h
    · exact (List.cons.inj h).2.symm
    · rename_i hlarge
      obtain ⟨c, tail, htail⟩ := List.exists_cons_of_ne_nil (Nat.toDigits_ne_nil (b := 10)
        (n := n / 10))
      rw [htail, List.cons_append] at h
      obtain ⟨rfl, -⟩ := List.cons.inj h
      have hnil := ih (n / 10) (by omega) htail
      have hvalue : Nat.ofDigitChars 10 (Nat.toDigits 10 (n / 10)) 0 = n / 10 :=
        Nat.ofDigitChars_ten_toDigits
      have hzero : Nat.ofDigitChars 10 ['0'] 0 = 0 := by decide
      rw [htail, hnil, hzero] at hvalue
      omega

/-- **A natural number is a numeral** of its digits alone. -/
theorem ofString?_toString (n : Nat) :
    Numeral.ofString? (toString n) = some ⟨false, digitsOf n, [], [], []⟩ := by
  have hdigits : ∀ c ∈ Nat.toDigits 10 n, c.isDigit = true :=
    fun c hc => Nat.isDigit_of_mem_toDigits (by decide) (by decide) hc
  obtain ⟨c, tail, htail⟩ := List.exists_cons_of_ne_nil (Nat.toDigits_ne_nil (b := 10) (n := n))
  have hc : c.isDigit = true := hdigits c (by simp [htail])
  have hminus : c ≠ '-' := by
    rintro rfl
    exact absurd hc (by decide)
  have hwhole : scanWhole (c :: tail) = some (c :: tail, []) := by
    by_cases hzero : c = '0'
    · subst hzero
      rw [toDigits_zero_cons htail]
      rfl
    · have hall : ∀ d ∈ c :: tail, d.isDigit = true := htail ▸ hdigits
      rw [scanWhole_of_ne hzero, if_pos hc, List.takeWhile_eq_self_iff.2 hall,
        List.dropWhile_eq_nil_iff.2 hall]
  have hscan : Numeral.scan (c :: tail) = some (⟨false, c :: tail, [], [], []⟩, []) := by
    refine scan_eq_some_iff.2 ⟨c :: tail, [], [], [], [], [], ?_, rfl, rfl, by simp [hminus]⟩
    simpa [unsigned, hminus] using hwhole
  rw [Numeral.ofString?, toList_toString, digitsOf, toList_toString, htail, hscan]

/-- The digits of a natural number give the number. -/
theorem natOf_digitsOf (n : Nat) : natOf (digitsOf n) = n := by
  rw [digitsOf, toList_toString]
  have h : Nat.ofDigitChars 10 (Nat.toDigits 10 n) 0 = n := Nat.ofDigitChars_ten_toDigits
  rwa [Nat.ofDigitChars_eq_foldl] at h

end Decimal

namespace Json

/-- A number below the bound of its width is read back. -/
theorem natBelow?_ofNat {n bound : Nat} (h : n < bound) : (ofNat n).natBelow? bound = some n := by
  have hnat : (Decimal.Numeral.ofString? (toString n)).bind (·.toNat?) = some n := by
    rw [Decimal.ofString?_toString]
    exact congrArg some (Decimal.natOf_digitsOf n)
  simp only [ofNat, natBelow?, hnat, Option.bind_eq_bind, Option.bind_some, if_pos h]

end Json
end BoardBlocks
