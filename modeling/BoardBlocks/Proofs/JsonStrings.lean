/-
# Strings read back

What stands between the quotes of a JSON string, written by `encode`, is read back as the text it
was made from, whatever the text holds (`decode?_encode`).  It runs to its closing quote and no
further, so that a reader of the whole document finds its end (`spanString_encodeChars`).

A character may be spelled in three ways, and what reads one of them reads a text of them:

| spelling | of |
| --- | --- |
| itself | all but `"`, `\` and the characters below U+0020 |
| a backslash and a letter | the characters that have a short escape |
| `\u` and four hexadecimal digits | every character of one UTF-16 code unit |

No character is a surrogate, so a text spelled character by character never holds one.
-/

import BoardBlocks.Json.Record
import BoardBlocks.Json.Token
import Mathlib.Data.List.Basic

namespace BoardBlocks
namespace Json

/-! ### How a character is spelled -/

/-- The ways to spell a character inside a string. -/
inductive Spelling (c : Char) : List Char → Prop where
  | plain (hquote : c ≠ '"') (hslash : c ≠ '\\') (hcontrol : 0x20 ≤ c.toNat) : Spelling c [c]
  | short {e : Char} (he : shortEscape? e = some c) : Spelling c ['\\', e]
  | unit {h₁ h₂ h₃ h₄ : Char} (hunit : unitOf? h₁ h₂ h₃ h₄ = some c.toNat) :
    Spelling c ['\\', 'u', h₁, h₂, h₃, h₄]

/-- A hexadecimal digit reads back as its value. -/
theorem hexValue?_hexDigit : ∀ n < 16, hexValue? (hexDigit n) = some n := by decide

/-- The code unit of a character below U+0020 is named by its two hexadecimal digits. -/
theorem unitOf?_hexDigit {n : Nat} (h : n < 0x20) :
    unitOf? '0' '0' (hexDigit (n / 16)) (hexDigit (n % 16)) = some n := by
  have hhigh := hexValue?_hexDigit (n / 16) (by omega)
  have hlow := hexValue?_hexDigit (n % 16) (by omega)
  have hzero : hexValue? '0' = some 0 := by decide
  have hsum : 4096 * 0 + 256 * 0 + 16 * (n / 16) + n % 16 = n := by omega
  simp only [unitOf?, hzero, hhigh, hlow, Option.pure_def, Option.bind_eq_bind, Option.bind_some,
    hsum]

/-- A text is written in spellings of its characters. -/
theorem escapeChar_spelling (c : Char) : Spelling c (escapeChar c) := by
  unfold escapeChar
  split_ifs with hquote hslash hback htab hfeed hform hreturn hcontrol
  · subst hquote; exact .short rfl
  · subst hslash; exact .short rfl
  · subst hback; exact .short rfl
  · subst htab; exact .short rfl
  · subst hfeed; exact .short rfl
  · subst hform; exact .short rfl
  · subst hreturn; exact .short rfl
  · exact .unit (unitOf?_hexDigit hcontrol)
  · exact .plain hquote hslash (by omega)

/-- A character is no half of a surrogate pair. -/
theorem toNat_not_surrogate (c : Char) : isHigh c.toNat = false ∧ isLow c.toNat = false := by
  have hvalid : c.toNat < 0xD800 ∨ 0xDFFF < c.toNat ∧ c.toNat < 0x110000 := c.valid
  simp only [isHigh, isLow, Bool.and_eq_false_iff, decide_eq_false_iff_not]
  omega

/-- The letter of a short escape is no `u`. -/
theorem ne_u_of_shortEscape? {e c : Char} (h : shortEscape? e = some c) : e ≠ 'u' := by
  have hu : shortEscape? 'u' = none := by decide
  rintro rfl
  rw [hu] at h
  exact absurd h (by simp)

/-! ### Reading a text back -/

/-- The element that stands for a character in front of further elements. -/
def Piece.IsOf (c : Char) (p : Piece) : Prop :=
  p = .char c ∨ p = .unit c.toNat

/-- A spelled character is one element. -/
theorem pieces?_spelling {c : Char} {written : List Char} (h : Spelling c written)
    (cs : List Char) :
    ∃ p, Piece.IsOf c p ∧ pieces? (written ++ cs) = (pieces? cs).map (p :: ·) := by
  cases h with
  | plain hquote hslash hcontrol =>
    refine ⟨.char c, .inl rfl, ?_⟩
    rw [List.singleton_append, pieces?, if_neg hslash]
    · rfl
    · simp [hslash]
    · simp [hslash]
  | @short e he =>
    refine ⟨.char c, .inl rfl, ?_⟩
    rw [List.cons_append, List.singleton_append, pieces?, he]
    · cases pieces? cs <;> rfl
    · simp [ne_u_of_shortEscape? he]
  | unit hunit =>
    refine ⟨.unit c.toNat, .inr rfl, ?_⟩
    simp only [List.cons_append, List.nil_append, pieces?, hunit]
    cases pieces? cs <;> rfl

/-- The element of a character is joined as that character. -/
theorem joinPieces?_cons {c : Char} {p : Piece} (h : Piece.IsOf c p) (ps : List Piece) :
    joinPieces? (p :: ps) = (joinPieces? ps).map (c :: ·) := by
  obtain ⟨hhigh, hlow⟩ := toNat_not_surrogate c
  rcases h with rfl | rfl
  · rfl
  · rcases ps with _ | ⟨_ | code, ps⟩ <;>
      simp [joinPieces?, hhigh, hlow]

/-- **A written text is read back**, whatever characters it is made of. -/
theorem decode?_encode (s : String) : decode? (encode s) = some s := by
  have hchars : ∀ cs : List Char, (pieces? (encodeChars cs)).bind joinPieces? = some cs := by
    intro cs
    induction cs with
    | nil => rfl
    | cons c cs ih =>
      obtain ⟨p, hp, hpieces⟩ := pieces?_spelling (escapeChar_spelling c) (encodeChars cs)
      obtain ⟨ps, hps, hjoin⟩ := Option.bind_eq_some_iff.1 ih
      rw [encodeChars, List.flatMap_cons, ← encodeChars, hpieces, hps, Option.map_some,
        Option.bind_some, joinPieces?_cons hp, hjoin]
      rfl
  obtain ⟨ps, hps, hjoin⟩ := Option.bind_eq_some_iff.1 (hchars s.toList)
  rw [decode?, encode, String.toList_ofList, hps]
  simp [hjoin]

@[simp] theorem text?_ofString (s : String) : (ofString s).text? = some s :=
  decode?_encode s

@[simp] theorem word?_ofString (s : String) : (ofString s).word? = some s :=
  decode?_encode s

/-! ### Finding the end of a string -/

/-- A spelled character belongs to the string that it stands in. -/
theorem spanString_spelling {c : Char} {written : List Char} (h : Spelling c written)
    (cs : List Char) :
    spanString (written ++ cs) = (spanString cs).map fun r => (written ++ r.1, r.2) := by
  cases h with
  | plain hquote hslash hcontrol =>
    rw [List.singleton_append, spanString, if_neg (by omega)]
    · cases spanString cs <;> rfl
    · simp [hquote]
    · simp [hslash]
    · simp [hslash]
  | @short e he =>
    rw [List.cons_append, List.singleton_append, spanString, he]
    · cases spanString cs <;> rfl
    · simp [ne_u_of_shortEscape? he]
  | unit hunit =>
    simp only [List.cons_append, List.nil_append, spanString, hunit]
    cases spanString cs <;> rfl

/-- **A string ends at its closing quote**, and there is no other quote that could be taken for
it. -/
theorem spanString_encodeChars (cs rest : List Char) :
    spanString (encodeChars cs ++ '"' :: rest) = some (encodeChars cs, rest) := by
  induction cs with
  | nil => rfl
  | cons c cs ih =>
    rw [encodeChars, List.flatMap_cons, ← encodeChars, List.append_assoc,
      spanString_spelling (escapeChar_spelling c), ih]
    rfl

end Json
end BoardBlocks
