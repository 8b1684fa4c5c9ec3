/-
# String literals read back

Both targets read a string literal alike.  It stands between double quotes; the escapes in it are
`\\`, `\"`, `\n`, `\r` and `\t`; a quote ends it, and no line may break inside it.

A quoted text is read back as it is, and reading stops at its closing quote, whatever comes behind
(`readLiteral_quoted`).  No text can close its literal early: read up to any earlier place, the
literal is still open (`readLiteral_front`).
-/

import BoardBlocks.Text.Quoted
import Mathlib.Data.List.Basic

namespace BoardBlocks
namespace Text

/-- The character that an escape in a literal stands for. -/
def unescape? (c : Char) : Option Char :=
  if c = '\\' ∨ c = '"' then some c
  else if c = 'n' then some '\n'
  else if c = 'r' then some '\r'
  else if c = 't' then some '\t'
  else none

/-- Reads a literal from behind its opening quote: the text it stands for, and what comes behind its
closing quote. -/
def readBody : List Char → Option (List Char × List Char)
  | [] => none
  | '"' :: cs => some ([], cs)
  | '\\' :: e :: cs => do
    let x ← unescape? e
    let (text, rest) ← readBody cs
    return (x :: text, rest)
  | c :: cs => do
    if c = '\\' ∨ c = '\n' ∨ c = '\r' then none
    let (text, rest) ← readBody cs
    return (c :: text, rest)

/-- Reads a string literal: the text it stands for, and what comes behind it. -/
def readLiteral : List Char → Option (List Char × List Char)
  | '"' :: cs => readBody cs
  | _ => none

/-- Inside a literal most characters stand for themselves. -/
theorem readBody_cons {c : Char} (hquote : c ≠ '"') (hplain : ¬(c = '\\' ∨ c = '\n' ∨ c = '\r'))
    (cs : List Char) : readBody (c :: cs) = (readBody cs).map fun r => (c :: r.1, r.2) := by
  rw [readBody.eq_def]
  split
  · simp_all
  · simp_all
  · simp_all
  · rename_i heq
    obtain ⟨rfl, rfl⟩ := List.cons.inj heq
    rw [if_neg hplain]
    cases readBody cs <;> rfl

/-- A character is read back from the way it is written in a literal. -/
theorem readBody_escapeChar (c : Char) (cs : List Char) :
    readBody (escapeChar c ++ cs) = (readBody cs).map fun r => (c :: r.1, r.2) := by
  have hescape : ∀ e x : Char, unescape? e = some x →
      readBody ('\\' :: e :: cs) = (readBody cs).map fun r => (x :: r.1, r.2) := by
    intro e x hx
    rw [readBody, hx]
    cases readBody cs <;> rfl
  unfold escapeChar
  split_ifs with hslash hquote hfeed hreturn htab
  · exact hslash ▸ hescape '\\' '\\' rfl
  · exact hquote ▸ hescape '"' '"' rfl
  · exact hfeed ▸ hescape 'n' '\n' rfl
  · exact hreturn ▸ hescape 'r' '\r' rfl
  · exact htab ▸ hescape 't' '\t' rfl
  · have hplain : ¬(c = '\\' ∨ c = '\n' ∨ c = '\r') := by simp [hslash, hfeed, hreturn]
    rw [List.singleton_append, readBody_cons hquote hplain]

/-- **A literal is read back as the text it was made from**, and reading stops at its end. -/
theorem readLiteral_quoted (cs rest : List Char) :
    readLiteral (quoted cs ++ rest) = some (cs, rest) := by
  have hbody : ∀ cs : List Char, readBody (cs.flatMap escapeChar ++ '"' :: rest) =
      some (cs, rest) := by
    intro cs
    induction cs with
    | nil => rfl
    | cons c cs ih =>
      rw [List.flatMap_cons, List.append_assoc, readBody_escapeChar, ih]
      rfl
  rw [quoted, List.cons_append, List.append_assoc, List.singleton_append, readLiteral]
  exact hbody cs

/-! ### Where a literal ends -/

/-- What is read as a literal is read so with more text behind it, too. -/
theorem readBody_append {cs text rest : List Char} (h : readBody cs = some (text, rest))
    (more : List Char) : readBody (cs ++ more) = some (text, rest ++ more) := by
  fun_induction readBody cs generalizing text with
  | case1 => exact nomatch h
  | case2 cs =>
    obtain ⟨rfl, rfl⟩ := Prod.mk.inj (Option.some.inj h)
    rfl
  | case3 e cs ih =>
    obtain ⟨x, hx, h⟩ := Option.bind_eq_some_iff.1 h
    obtain ⟨⟨text', rest'⟩, hread, h⟩ := Option.bind_eq_some_iff.1 h
    obtain ⟨rfl, rfl⟩ := Prod.mk.inj (Option.some.inj h)
    simp [readBody, hx, ih hread]
  | case4 c cs _ _ hplain => exact nomatch h
  | case5 c cs hquote _ _ hplain =>
    rename_i ih
    obtain ⟨⟨text', rest'⟩, hread, h⟩ := Option.bind_eq_some_iff.1 h
    obtain ⟨rfl, rfl⟩ := Prod.mk.inj (Option.some.inj h)
    rw [List.cons_append, readBody_cons hquote hplain, ih hread]
    rfl

/-- A literal is read the same with more text behind it. -/
theorem readLiteral_append {cs text rest : List Char} (h : readLiteral cs = some (text, rest))
    (more : List Char) : readLiteral (cs ++ more) = some (text, rest ++ more) := by
  unfold readLiteral at h
  split at h
  · exact readBody_append h more
  · exact nomatch h

/-- **Before its closing quote a literal is open.** -/
theorem readLiteral_front {cs front back : List Char} (h : quoted cs = front ++ back)
    (hback : back ≠ []) : readLiteral front = none := by
  rw [Option.eq_none_iff_forall_ne_some]
  rintro ⟨text, rest⟩ hread
  have hwhole := readLiteral_append hread back
  have hquoted := readLiteral_quoted cs []
  rw [List.append_nil, h, hwhole] at hquoted
  have hrest : rest ++ back = [] := congrArg Prod.snd (Option.some.inj hquoted)
  exact hback (List.append_eq_nil_iff.1 hrest).2

/-- Literals with something behind them can be told apart into the two. -/
theorem quoted_append_inj {cs ds rest rest' : List Char}
    (h : quoted cs ++ rest = quoted ds ++ rest') : cs = ds ∧ rest = rest' := by
  have hread := (readLiteral_quoted cs rest).symm.trans (h ▸ readLiteral_quoted ds rest')
  exact Prod.mk.inj (Option.some.inj hread)

/-- Different texts have different literals. -/
theorem quote_injective {s t : String} (h : quote s = quote t) : s = t := by
  have hquoted : quoted s.toList ++ [] = quoted t.toList ++ [] := by
    rw [← toList_quote, ← toList_quote, h]
  exact String.toList_inj.1 (quoted_append_inj hquoted).1

/-- A literal stands on one line. -/
theorem break_not_mem_quoted (cs : List Char) : '\n' ∉ quoted cs ∧ '\r' ∉ quoted cs := by
  have hescape : ∀ c, '\n' ∉ escapeChar c ∧ '\r' ∉ escapeChar c := by
    intro c
    unfold escapeChar
    split_ifs with hslash hquote hfeed hreturn htab
    · decide
    · decide
    · decide
    · decide
    · decide
    · exact ⟨by simpa using Ne.symm hfeed, by simpa using Ne.symm hreturn⟩
  constructor
  · simp [quoted, (hescape _).1]
  · simp [quoted, (hescape _).2]

/-- **String literals are exact and closed.**  Whatever the text:

* Read with anything behind it, its literal gives the text, and what is behind.
* Up to any place before its end, the literal is open.
* Other texts have other literals, and no literal is the start of another one.
* There is no raw line feed or carriage return in the literal. -/
theorem quote_closed (s : String) :
    (∀ rest, readLiteral ((quote s).toList ++ rest) = some (s.toList, rest)) ∧
      (∀ front back, (quote s).toList = front ++ back → back ≠ [] → readLiteral front = none) ∧
      (∀ t rest, quote s ++ rest = quote t ↔ s = t ∧ rest = "") ∧
      '\n' ∉ (quote s).toList ∧ '\r' ∉ (quote s).toList := by
  rw [toList_quote]
  refine ⟨readLiteral_quoted s.toList, fun front back h => readLiteral_front h,
    fun t rest => ⟨fun h => ?_, ?_⟩, break_not_mem_quoted s.toList⟩
  · have hquoted : quoted s.toList ++ rest.toList = quoted t.toList ++ [] := by
      rw [← toList_quote, ← toList_quote, ← String.toList_append, h, List.append_nil]
    obtain ⟨hs, hrest⟩ := quoted_append_inj hquoted
    exact ⟨String.toList_inj.1 hs, String.toList_inj.1 hrest⟩
  · rintro ⟨rfl, rfl⟩
    exact String.append_empty

end Text
end BoardBlocks
