/-
# Documents read back

A document in the compact layout is read back as the tree that was written (`read?_compact`).  The
way goes through its tokens: the text of a document falls into them (`lexes_compactChars`), and the
tree is the one that its tokens spell (`readValue_tokens`).  Both are said of a document with
anything behind it, so that they hold of the parts of a document too.

What a tree must be for this: its numerals are numerals and its strings are encoded texts
(`Written`).  A tree that is built from numbers and texts is, as far as all of its numbers have a
numeral.
-/

import BoardBlocks.Json.Printer
import BoardBlocks.Json.Reader
import BoardBlocks.Proofs.JsonNumerals
import BoardBlocks.Proofs.JsonStrings

namespace BoardBlocks
namespace Json

/-- Trees whose numerals are numerals and whose strings and keys are encoded texts. -/
inductive Written : Json → Prop where
  | null : Written .null
  | bool (value : Bool) : Written (.bool value)
  | number {written : String} {n : Decimal.Numeral}
    (h : Decimal.Numeral.ofString? written = some n) : Written (.number written)
  | string (s : String) : Written (.string (encode s))
  | array {items : List Json} (h : ∀ item ∈ items, Written item) : Written (.array items)
  | object {members : List (String × Json)}
    (hkeys : ∀ m ∈ members, ∃ key, m.1 = encode key) (h : ∀ m ∈ members, Written m.2) :
    Written (.object members)

/-! ### The tokens of a document -/

mutual
/-- The tokens that a document is made of. -/
def tokens : Json → List Token
  | .null => [.null]
  | .bool value => [.bool value]
  | .number written => [.number written]
  | .string written => [.string written]
  | .array [] => [.openArray, .closeArray]
  | .array (v :: vs) => .openArray :: (tokens v ++ itemTokens vs ++ [.closeArray])
  | .object [] => [.openObject, .closeObject]
  | .object ((k, v) :: ms) =>
    .openObject :: .string k :: .colon :: (tokens v ++ memberTokens ms ++ [.closeObject])
termination_by structural j => j
/-- The tokens of further items, each after a comma. -/
def itemTokens : List Json → List Token
  | [] => []
  | v :: vs => .comma :: (tokens v ++ itemTokens vs)
termination_by structural vs => vs
/-- The tokens of further members, each after a comma. -/
def memberTokens : List (String × Json) → List Token
  | [] => []
  | (k, v) :: ms => .comma :: .string k :: .colon :: (tokens v ++ memberTokens ms)
termination_by structural ms => ms
end

/-- A text that is read as one token in front of a further text. -/
structure Token.Spells (text : List Char) (t : Token) (rest : List Char) : Prop where
  start : ∀ c ∈ text.head?, isSpace c = false
  ne_nil : text ≠ []
  next : Token.next? (text ++ rest) = some (t, rest)

/-- A sign or a digit is no other character. -/
theorem ne_of_startsNumeral {c : Char} (hc : c = '-' ∨ c.isDigit = true) (d : Char)
    (hd : d ≠ '-' ∧ d.isDigit = false) : c ≠ d := by
  rintro rfl
  rcases hc with rfl | hc
  · exact hd.1 rfl
  · rw [hd.2] at hc
    exact absurd hc (by simp)

/-- A sign or a digit starts a numeral. -/
theorem Token.next?_numeral {c : Char} (hc : c = '-' ∨ c.isDigit = true) (cs : List Char) :
    Token.next? (c :: cs) =
      (Decimal.Numeral.scan (c :: cs)).map fun r => (.number (String.ofList r.1.chars), r.2) := by
  have hne := ne_of_startsNumeral hc
  rw [Token.next?]
  · cases Decimal.Numeral.scan (c :: cs) <;> rfl
  all_goals exact hne _ (by decide)

/-- A text that falls into tokens. -/
inductive Lexes : List Char → List Token → Prop where
  | nil : Lexes [] []
  | cons {text rest : List Char} {t : Token} {ts : List Token} (h : t.Spells text rest)
    (hrest : Lexes rest ts) : Lexes (text ++ rest) (t :: ts)

namespace Lexes

variable {cs rest : List Char} {ts : List Token}

/-- A token takes up a character at least. -/
theorem length_le (h : Lexes cs ts) : ts.length ≤ cs.length := by
  induction h with
  | nil => exact Nat.le_refl 0
  | @cons text rest t ts htext hrest ih =>
    have hpos : 0 < text.length := List.length_pos_iff.2 htext.ne_nil
    rw [List.length_append, List.length_cons]
    omega

/-- The tokens that a text falls into are those that a scan finds. -/
theorem scan (h : Lexes cs ts) {count : Nat} (hcount : ts.length ≤ count) :
    Token.scan count cs = some ts := by
  induction h generalizing count with
  | nil => cases count <;> rfl
  | @cons text rest t ts htext hrest ih =>
    obtain ⟨hstart, hne, hnext⟩ := htext
    obtain ⟨c, tail, rfl⟩ := List.exists_cons_of_ne_nil hne
    have hspace : isSpace c = false := hstart c rfl
    cases count with
    | zero => simp at hcount
    | succ count =>
      have hscan := ih (Nat.le_of_succ_le_succ hcount)
      have hdrop : (c :: (tail ++ rest)).dropWhile isSpace = c :: (tail ++ rest) :=
        List.dropWhile_cons_of_neg (by simp [hspace])
      rw [List.cons_append] at hnext ⊢
      unfold Token.scan
      rw [hdrop]
      simp [hnext, hscan]

/-- A text that falls into tokens is read as these tokens. -/
theorem tokens? {s : String} (h : Lexes s.toList ts) : Json.tokens? s = some ts :=
  h.scan h.length_le

/-- A token of one character, which is a bracket or a separator. -/
theorem mark {c : Char} {t : Token} (hnext : ∀ cs, Token.next? (c :: cs) = some (t, cs))
    (hspace : isSpace c = false) (h : Lexes rest ts) : Lexes (c :: rest) (t :: ts) :=
  have hspells : t.Spells [c] rest := ⟨by simpa using hspace, by simp, hnext rest⟩
  .cons hspells h

theorem openArray (h : Lexes rest ts) : Lexes ('[' :: rest) (.openArray :: ts) :=
  h.mark (fun _ => rfl) rfl

theorem closeArray (h : Lexes rest ts) : Lexes (']' :: rest) (.closeArray :: ts) :=
  h.mark (fun _ => rfl) rfl

theorem openObject (h : Lexes rest ts) : Lexes ('\x7b' :: rest) (.openObject :: ts) :=
  h.mark (fun _ => rfl) rfl

theorem closeObject (h : Lexes rest ts) : Lexes ('\x7d' :: rest) (.closeObject :: ts) :=
  h.mark (fun _ => rfl) rfl

theorem comma (h : Lexes rest ts) : Lexes (',' :: rest) (.comma :: ts) :=
  h.mark (fun _ => rfl) rfl

theorem colon (h : Lexes rest ts) : Lexes (':' :: rest) (.colon :: ts) :=
  h.mark (fun _ => rfl) rfl

/-- An encoded text between its quotes. -/
theorem string (s : String) (h : Lexes rest ts) :
    Lexes (quotedChars (encode s) ++ rest) (.string (encode s) :: ts) := by
  refine .cons ⟨by simp [quotedChars, isSpace], by simp [quotedChars], ?_⟩ h
  have hspan := spanString_encodeChars s.toList rest
  simp [quotedChars, encode, Token.next?, hspan]

/-- A numeral in front of what may follow a value. -/
theorem number {written : String} {n : Decimal.Numeral}
    (hn : Decimal.Numeral.ofString? written = some n) (hends : Ends rest) (h : Lexes rest ts) :
    Lexes (written.toList ++ rest) (.number written :: ts) := by
  have hwhole := (Decimal.scan_ofString? hn ends_nil).1
  obtain ⟨hscan, hchars⟩ := Decimal.scan_ofString? hn hends
  obtain ⟨c, tail, hcons, hc⟩ := Decimal.head?_of_scan hwhole
  rw [List.append_nil] at hcons
  have hspace : isSpace c = false := by
    have hne := ne_of_startsNumeral hc
    simp [isSpace, hne ' ' (by decide), hne '\t' (by decide), hne '\n' (by decide),
      hne '\r' (by decide)]
  refine .cons ⟨by simpa [hcons] using hspace, by simp [hcons], ?_⟩ h
  rw [hcons] at hscan ⊢
  rw [List.cons_append, Token.next?_numeral hc, ← List.cons_append, hscan, Option.map_some, hchars,
    String.ofList_toList]

end Lexes

/-! ### The text of a document -/

/-- Items may follow a value, if what is behind them may. -/
theorem ends_compactItems {vs : List Json} {rest : List Char} (h : Ends rest) :
    Ends (compactItems vs ++ rest) := by
  cases vs with
  | nil => exact h
  | cons v vs => simp [Ends, compactItems]

/-- Members may follow a value, if what is behind them may. -/
theorem ends_compactMembers {ms : List (String × Json)} {rest : List Char} (h : Ends rest) :
    Ends (compactMembers ms ++ rest) := by
  cases ms with
  | nil => exact h
  | cons m ms => simp [Ends, compactMembers]

mutual
/-- **The text of a document falls into its tokens**, in front of whatever may follow a value. -/
theorem lexes_compactChars {rest : List Char} {ts : List Token} (hends : Ends rest)
    (hrest : Lexes rest ts) :
    (j : Json) → Written j → Lexes (compactChars j ++ rest) (tokens j ++ ts)
  | .null, _ => .cons ⟨by simp [compactChars, isSpace], by decide, rfl⟩ hrest
  | .bool true, _ => .cons ⟨by simp [compactChars, isSpace], by decide, rfl⟩ hrest
  | .bool false, _ => .cons ⟨by simp [compactChars, isSpace], by decide, rfl⟩ hrest
  | .number written, h => by
    cases h with
    | number hn => exact hrest.number hn hends
  | .string written, h => by
    cases h with
    | string s => exact hrest.string s
  | .array [], _ => hrest.closeArray.openArray
  | .array (v :: vs), h => by
    cases h with
    | array h =>
      have hclose : Ends (']' :: rest) := by simp [Ends]
      have hitems := lexes_compactItems hclose hrest.closeArray vs
        fun item hmem => h item (List.mem_cons_of_mem v hmem)
      have hitem := lexes_compactChars (ends_compactItems hclose) hitems v
        (h v List.mem_cons_self)
      simpa [compactChars, tokens] using hitem.openArray
  | .object [], _ => hrest.closeObject.openObject
  | .object ((k, v) :: ms), h => by
    cases h with
    | object hkeys h =>
      have hclose : Ends ('\x7d' :: rest) := by simp [Ends]
      have hmembers := lexes_compactMembers hclose hrest.closeObject ms
        (fun m hmem => hkeys m (List.mem_cons_of_mem _ hmem))
        fun m hmem => h m (List.mem_cons_of_mem _ hmem)
      have hmember := lexes_compactChars (ends_compactMembers hclose) hmembers v
        (h _ List.mem_cons_self)
      obtain ⟨key, hkey⟩ := hkeys _ List.mem_cons_self
      have hall := (hmember.colon.string key).openObject
      simp only at hkey
      simpa [compactChars, tokens, hkey] using hall
termination_by structural j => j
/-- Further items of an array fall into their tokens, each behind its comma. -/
theorem lexes_compactItems {rest : List Char} {ts : List Token} (hends : Ends rest)
    (hrest : Lexes rest ts) :
    (vs : List Json) → (∀ v ∈ vs, Written v) →
      Lexes (compactItems vs ++ rest) (itemTokens vs ++ ts)
  | [], _ => hrest
  | v :: vs, h => by
    have hitems := lexes_compactItems hends hrest vs
      fun item hmem => h item (List.mem_cons_of_mem v hmem)
    have hitem := lexes_compactChars (ends_compactItems hends) hitems v (h v List.mem_cons_self)
    simpa [compactItems, itemTokens] using hitem.comma
termination_by structural vs => vs
/-- Further members of an object fall into their tokens, each behind its comma. -/
theorem lexes_compactMembers {rest : List Char} {ts : List Token} (hends : Ends rest)
    (hrest : Lexes rest ts) :
    (ms : List (String × Json)) → (∀ m ∈ ms, ∃ key, m.1 = encode key) →
      (∀ m ∈ ms, Written m.2) → Lexes (compactMembers ms ++ rest) (memberTokens ms ++ ts)
  | [], _, _ => hrest
  | (k, v) :: ms, hkeys, h => by
    have hmembers := lexes_compactMembers hends hrest ms
      (fun m hmem => hkeys m (List.mem_cons_of_mem _ hmem))
      fun m hmem => h m (List.mem_cons_of_mem _ hmem)
    have hmember := lexes_compactChars (ends_compactMembers hends) hmembers v
      (h _ List.mem_cons_self)
    obtain ⟨key, hkey⟩ := hkeys _ List.mem_cons_self
    have hall := (hmember.colon.string key).comma
    simp only at hkey
    simpa [compactMembers, memberTokens, hkey] using hall
termination_by structural ms => ms
end

/-! ### The tree of a document -/

/-- No value starts with the bracket that ends an array. -/
theorem tokens_ne_closeArray (j : Json) (ts us : List Token) :
    tokens j ++ ts ≠ .closeArray :: us := by
  cases j with
  | array items => cases items <;> simp [tokens]
  | object members => rcases members with _ | ⟨⟨k, v⟩, ms⟩ <;> simp [tokens]
  | _ => simp [tokens]

/-- A value has at least one token. -/
theorem tokens_pos (j : Json) : 0 < (tokens j).length := by
  cases j with
  | array items => cases items <;> simp [tokens]
  | object members => rcases members with _ | ⟨⟨k, v⟩, ms⟩ <;> simp [tokens]
  | _ => simp [tokens]

/-- Whether a value is found at the head of its tokens, if there are two steps for each of them. -/
def ReadsBack (j : Json) : Prop :=
  ∀ (fuel : Nat) (ts : List Token), 2 * (tokens j).length ≤ fuel →
    readValue fuel (tokens j ++ ts) = some (j, ts)

/-- A value that one step reads is found at the head of its tokens. -/
theorem readsBack_scalar {j : Json} {us : List Token} (hus : tokens j = us)
    (h : ∀ fuel ts, readValue (fuel + 1) (us ++ ts) = some (j, ts)) : ReadsBack j := by
  intro fuel ts hfuel
  have hpos := tokens_pos j
  obtain ⟨fuel, rfl⟩ : ∃ k, fuel = k + 1 := ⟨fuel - 1, by omega⟩
  rw [hus]
  exact h fuel ts

mutual
/-- **A tree is read off its tokens**, in front of any other tokens. -/
theorem readValue_tokens : (j : Json) → ReadsBack j
  | .null => readsBack_scalar rfl fun _ _ => rfl
  | .bool _ => readsBack_scalar rfl fun _ _ => rfl
  | .number _ => readsBack_scalar rfl fun _ _ => rfl
  | .string _ => readsBack_scalar rfl fun _ _ => rfl
  | .array [] => readsBack_scalar rfl fun _ _ => rfl
  | .array (v :: vs) => fun fuel ts hfuel => by
    simp only [tokens, List.length_cons, List.length_append, List.length_nil] at hfuel
    obtain ⟨fuel, rfl⟩ : ∃ k, fuel = k + 1 := ⟨fuel - 1, by omega⟩
    have hitems := readItems_tokens vs v (readValue_tokens v) fuel ts (by omega)
    have hfirst := tokens_ne_closeArray v (itemTokens vs ++ .closeArray :: ts)
    simp only [tokens, List.cons_append, List.append_assoc, List.nil_append]
    rw [readValue]
    · simp [hitems]
    · exact hfirst
  | .object [] => readsBack_scalar rfl fun _ _ => rfl
  | .object ((k, v) :: ms) => fun fuel ts hfuel => by
    simp only [tokens, List.length_cons, List.length_append, List.length_nil] at hfuel
    obtain ⟨fuel, rfl⟩ : ∃ k, fuel = k + 1 := ⟨fuel - 1, by omega⟩
    have hmembers := readMembers_tokens ms k v (readValue_tokens v) fuel ts (by omega)
    simp only [tokens, List.cons_append, List.append_assoc, List.nil_append]
    rw [readValue]
    · simp [hmembers]
    · simp
termination_by structural j => j
/-- The items of an array are found in their tokens, one after the other up to the bracket that
closes it. -/
theorem readItems_tokens : (vs : List Json) → (v : Json) → ReadsBack v →
    ∀ (fuel : Nat) (ts : List Token), 2 * ((tokens v).length + (itemTokens vs).length) < fuel →
      readItems fuel (tokens v ++ (itemTokens vs ++ .closeArray :: ts)) = some (v :: vs, ts)
  | [], v, hv => fun fuel ts hfuel => by
    obtain ⟨fuel, rfl⟩ : ∃ k, fuel = k + 1 := ⟨fuel - 1, by omega⟩
    have hitem := hv fuel (.closeArray :: ts) (by omega)
    simp [readItems, itemTokens, hitem]
  | w :: ws, v, hv => fun fuel ts hfuel => by
    simp only [itemTokens, List.length_cons, List.length_append] at hfuel
    obtain ⟨fuel, rfl⟩ : ∃ k, fuel = k + 1 := ⟨fuel - 1, by omega⟩
    have hitems := readItems_tokens ws w (readValue_tokens w) fuel ts (by omega)
    have hitem := hv fuel (.comma :: (tokens w ++ (itemTokens ws ++ .closeArray :: ts))) (by omega)
    simp [readItems, itemTokens, hitem, hitems]
termination_by structural vs => vs
/-- The members of an object are found in their tokens, one after the other up to the brace that
closes it. -/
theorem readMembers_tokens : (ms : List (String × Json)) → (k : String) → (v : Json) →
    ReadsBack v → ∀ (fuel : Nat) (ts : List Token),
      2 * ((tokens v).length + (memberTokens ms).length) < fuel →
        readMembers fuel (.string k :: .colon :: (tokens v ++ (memberTokens ms ++
          .closeObject :: ts))) = some ((k, v) :: ms, ts)
  | [], k, v, hv => fun fuel ts hfuel => by
    obtain ⟨fuel, rfl⟩ : ∃ k, fuel = k + 1 := ⟨fuel - 1, by omega⟩
    have hmember := hv fuel (.closeObject :: ts) (by omega)
    simp [readMembers, memberTokens, hmember]
  | (l, w) :: ms, k, v, hv => fun fuel ts hfuel => by
    simp only [memberTokens, List.length_cons, List.length_append] at hfuel
    obtain ⟨fuel, rfl⟩ : ∃ k, fuel = k + 1 := ⟨fuel - 1, by omega⟩
    have hmembers := readMembers_tokens ms l w (readValue_tokens w) fuel ts (by omega)
    have hmember := hv fuel (.comma :: .string l :: .colon :: (tokens w ++ (memberTokens ms ++
      .closeObject :: ts))) (by omega)
    simp [readMembers, memberTokens, hmember, hmembers]
termination_by structural ms => ms
end

/-- **A document is read back** from its compact layout. -/
theorem read?_compact {j : Json} (h : Written j) : read? j.compact = some j := by
  have hlexes : Lexes j.compact.toList (tokens j) := by
    have hchars := lexes_compactChars ends_nil .nil j h
    simpa [compact] using hchars
  have htree := readValue_tokens j (2 * (tokens j).length + 1) [] (by omega)
  rw [List.append_nil] at htree
  simp [read?, hlexes.tokens?, htree]

end Json
end BoardBlocks
