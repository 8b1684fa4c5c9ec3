/-
# Lines that a command is sent as

A command goes out as one line of text with no quotes, ended by a line feed, unless an argument has
a line feed inside.  Cleaning takes white space away at the two ends of an argument only, so a line
feed that has something visible on both sides stays (`lf_mem_cleanChars_iff`), and the line breaks
there.

What stands behind such a line feed is a line of its own.  An argument can therefore carry the whole
line of another command (`encode_publish_inside`).
-/

import BoardBlocks.Proofs.CommandFrames
import Mathlib.Algebra.GroupWithZero.Nat

namespace BoardBlocks

/-! ### Joined pieces -/

/-- The last piece stands behind a separator. -/
theorem intercalate_concat {α : Type} (a : α) {xs : List (List α)} (h : xs ≠ []) (y : List α) :
    [a].intercalate (xs ++ [y]) = [a].intercalate xs ++ a :: y := by
  induction xs with
  | nil => exact absurd rfl h
  | cons x xs ih =>
    cases xs with
    | nil => simp
    | cons z zs =>
      have hrest := ih (List.cons_ne_nil z zs)
      rw [List.cons_append] at hrest
      rw [List.cons_append, List.cons_append, List.intercalate_cons_cons, hrest,
        List.intercalate_cons_cons, List.append_assoc _ _ (a :: y)]

/-- Joining adds separators only. -/
theorem count_intercalate {α : Type} [DecidableEq α] {a b : α} (h : a ≠ b) (xs : List (List α)) :
    ([a].intercalate xs).count b = (xs.map (List.count b)).sum := by
  induction xs with
  | nil => rfl
  | cons x xs ih =>
    cases xs with
    | nil => simp
    | cons y ys =>
      rw [List.intercalate_cons_cons, List.count_append, List.count_append,
        List.count_singleton, if_neg (by simpa using h), Nat.add_zero, ih]
      simp

/-- Counts add up to nothing exactly if no list has the element. -/
theorem sum_count_eq_zero_iff {α β : Type} [DecidableEq α] {a : α} {f : β → List α} {xs : List β} :
    (xs.map fun x => (f x).count a).sum = 0 ↔ ∀ x ∈ xs, a ∉ f x := by
  simp only [List.sum_eq_zero_iff_forall_eq_nat, List.forall_mem_map, List.count_eq_zero]

namespace Wire

/-! ### What cleaning leaves inside -/

/-- A character that cleaning never takes away. -/
def Visible (c : Char) : Prop :=
  c ≠ '"' ∧ Text.isBlank c = false

/-- A text with a line feed between visible characters. -/
def BreaksInside (arg : String) : Prop :=
  ∃ before after, arg.toList = before ++ '\n' :: after ∧
    (∃ c ∈ before, Visible c) ∧ ∃ c ∈ after, Visible c

/-- Cleaning leaves no double quote. -/
theorem quote_not_mem_cleanChars (cs : List Char) : '"' ∉ cleanChars cs := by
  intro h
  have hsub : (cleanChars cs).Sublist (cs.filter (· ≠ '"')) :=
    (List.rdropWhile_prefix _ _).sublist.trans (List.dropWhile_sublist _)
  exact absurd (List.of_mem_filter (hsub.subset h)) (by decide)

/-- The visible characters are those that are not quotes and not blank. -/
theorem exists_visible_iff {cs : List Char} :
    (∃ c ∈ cs.filter (· ≠ '"'), Text.isBlank c = false) ↔ ∃ c ∈ cs, Visible c := by
  simp [Visible, and_assoc]

/-- **A line feed stays in an argument if something visible is before and behind it.** -/
theorem lf_mem_cleanChars_iff (arg : String) :
    '\n' ∈ cleanChars arg.toList ↔ BreaksInside arg := by
  rw [cleanChars, Text.mem_stripBlank_iff (by decide), BreaksInside]
  constructor
  · rintro ⟨front, back, hparts, hfront, hback⟩
    obtain ⟨before, rest, hsplit, rfl, hrest⟩ := List.filter_eq_append_iff.1 hparts
    obtain ⟨quotes, after, rfl, -, -, rfl⟩ := List.filter_eq_cons_iff.1 hrest
    refine ⟨before ++ quotes, after, by simp [hsplit], ?_, exists_visible_iff.1 hback⟩
    obtain ⟨c, hc, hvisible⟩ := exists_visible_iff.1 hfront
    exact ⟨c, List.mem_append_left quotes hc, hvisible⟩
  · rintro ⟨before, after, hsplit, hbefore, hafter⟩
    refine ⟨_, _, ?_, exists_visible_iff.2 hbefore, exists_visible_iff.2 hafter⟩
    rw [hsplit, List.filter_append, List.filter_cons_of_pos (by decide)]

namespace Command

/-! ### The line of a command -/

/-- What words do not have is in the fields as often as in the arguments. -/
theorem sum_map_fields {measure : String → Nat} (hwords : ∀ word ∈ words, measure word = 0)
    (c : Command) : (c.fields.map measure).sum = (c.arguments.map measure).sum := by
  simp only [words, List.forall_mem_cons] at hwords
  cases c with
  | connectBroker server clientId credentials =>
    cases credentials <;> simp [fields, arguments, hwords]
  | _ => simp [fields, arguments, hwords]

/-- What is no letter and no digit is on the line of a command only in its arguments, between the
fields and at the end. -/
theorem count_encode (c : Command) {x : Char} (hx : x.isAlphanum = false) (hspace : ' ' ≠ x) :
    c.encode.toList.count x =
      (c.arguments.map fun arg => (cleanArg arg).toList.count x).sum + ['\n'].count x := by
  have hfront : (c.front.map (List.count x)).sum = 0 :=
    sum_count_eq_zero_iff.2 (c.front_plain hx)
  have hwords : ∀ word ∈ words, (cleanArg word).toList.count x = 0 := by
    have hplain : ∀ word ∈ words, (cleanArg word).toList.all Char.isAlphanum = true := by decide
    intro word hword
    refine List.count_eq_zero.2 fun hmem => ?_
    have halnum := List.all_eq_true.1 (hplain word hword) x hmem
    exact absurd halnum (by simp [hx])
  rw [toList_encode, List.count_append, count_intercalate hspace, List.map_append, List.sum_append,
    hfront, Nat.zero_add, List.map_map, ← sum_map_fields hwords]
  simp [Function.comp_def]

/-- A line has no double quote. -/
theorem quote_not_mem_encode (c : Command) : '"' ∉ c.encode.toList := by
  rw [← List.count_eq_zero, c.count_encode (by decide) (by decide)]
  refine Nat.add_eq_zero_iff.2 ⟨sum_count_eq_zero_iff.2 fun arg _ => ?_, by decide⟩
  rw [toList_cleanArg]
  exact quote_not_mem_cleanChars arg.toList

/-- **A command is sent as one line unless a line feed is inside an argument.**  The line ends in a
line feed and has no quotes; its other line feeds are those that cleaning leaves in the
arguments. -/
theorem encode_lines (c : Command) :
    c.encode.toList.getLast? = some '\n' ∧ '"' ∉ c.encode.toList ∧
      c.encode.toList.count '\n' =
        (c.arguments.map fun arg => (cleanArg arg).toList.count '\n').sum + 1 ∧
      (c.encode.toList.count '\n' = 1 ↔ ∀ arg ∈ c.arguments, ¬BreaksInside arg) := by
  have hfeeds : c.encode.toList.count '\n' =
      (c.arguments.map fun arg => (cleanArg arg).toList.count '\n').sum + 1 :=
    c.count_encode (by decide) (by decide)
  refine ⟨?_, c.quote_not_mem_encode, hfeeds, ?_⟩
  · rw [toList_encode, List.getLast?_concat]
  · rw [hfeeds, Nat.add_eq_right, sum_count_eq_zero_iff]
    refine forall₂_congr fun arg _ => not_congr ?_
    rw [toList_cleanArg]
    exact lf_mem_cleanChars_iff arg

/-! ### A line inside an argument -/

/-- The payload stands at the end of the line of a publish command. -/
theorem exists_toList_encode_publish (topic : String) : ∃ front, ∀ data,
    (publish topic data).encode.toList = front ++ (cleanChars data.toList ++ ['\n']) := by
  let pieces := (publish topic "").front ++
    ["11", "0", "0", topic].map fun f => cleanChars f.toList
  refine ⟨[' '].intercalate pieces ++ [' '], fun data => ?_⟩
  have hpieces : (publish topic data).front ++
      (publish topic data).fields.map (fun f => cleanChars f.toList) =
        pieces ++ [cleanChars data.toList] := rfl
  rw [toList_encode, hpieces, intercalate_concat ' ' (by simp [pieces, front])]
  simp

/-- A cleaned text, a line feed and the line of a command are cleaned at the end only. -/
theorem cleanChars_inside {text : List Char} (hclean : cleanChars text = text) (htext : text ≠ [])
    (c : Command) : cleanChars (text ++ '\n' :: c.encode.toList) =
      text ++ '\n' :: Text.dropBlankEnd c.encode.toList := by
  have hkept : text.filter (· ≠ '"') = text :=
    filter_ne_of_not_mem (hclean ▸ quote_not_mem_cleanChars text)
  have hstrip : Text.stripBlank text = text := by rwa [cleanChars, hkept] at hclean
  have hvisible : ∃ x ∈ text, Text.isBlank x = false := by
    have hlast := Text.isBlank_getLast?_stripBlank text
    rw [hstrip] at hlast
    exact ⟨_, List.getLast_mem htext, hlast _ (List.getLast?_eq_getLast_of_ne_nil htext)⟩
  have hline : ∃ x ∈ c.encode.toList, Text.isBlank x = false := by
    refine ⟨'W', ?_, by decide⟩
    simp [toList_encode, front, marker, List.intercalate_cons_cons]
  rw [cleanChars, List.filter_append, List.filter_cons_of_pos (by decide), hkept,
    filter_ne_of_not_mem c.quote_not_mem_encode, Text.stripBlank_append '\n' hvisible hline,
    Text.dropBlankStart_of_stripBlank hstrip]

/-- **A payload can carry the line of another command.**  Behind a payload and a line feed the whole
line of any command goes out as it is, but for white space at its end. -/
theorem encode_publish_inside (topic : String) {data : String} (hclean : cleanArg data = data)
    (hdata : data ≠ "") (c : Command) :
    (publish topic (data ++ "\n" ++ c.encode)).encode =
      (publish topic data).encode ++ (Text.trimEnd c.encode ++ "\n") := by
  have hkept : cleanChars data.toList = data.toList := by rw [← toList_cleanArg, hclean]
  have htext : data.toList ≠ [] := fun h => hdata (String.toList_eq_nil_iff.1 h)
  have hparts : (data ++ "\n" ++ c.encode).toList = data.toList ++ '\n' :: c.encode.toList := by
    simp
  obtain ⟨front, hencode⟩ := exists_toList_encode_publish topic
  rw [← String.toList_inj, String.toList_append, String.toList_append, Text.toList_trimEnd,
    hencode, hencode, hparts, cleanChars_inside hkept htext, hkept]
  simp

/-- A payload that makes the board join another network. -/
theorem encode_publish_joinNetwork :
    (publish "/t" "on\nWF 52 2 52 net key").encode =
        (publish "/t" "on").encode ++ (joinNetwork "net" "key").encode ∧
      '\n' ∈ (publish "/t" "on\nWF 52 2 52 net key").encode.toList.dropLast := by
  decide

end Command
end Wire
end BoardBlocks
