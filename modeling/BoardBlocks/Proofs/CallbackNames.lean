/-
# Which topics share a callback name

A name is made from the key of a topic, character by character.

| in the topic | in the name |
| --- | --- |
| quote of either kind | dropped |
| slash or underscore | underscore |
| any other character | kept |

All that a name does not tell of a key is therefore which of its places are slashes and which are
underscores: two topics have one name exactly if their keys are equally long and differ there only
(`callbackName_eq_iff`).  A name is a word of ASCII letters, digits and underscores exactly if the
key consists of these characters and slashes (`isWord_callbackName_iff`).
-/

import BoardBlocks.Callback
import Mathlib.Data.List.Forall2

namespace BoardBlocks

/-- A name is `GOT` and the topic as the device sees it, character by character. -/
theorem toList_callbackName (topic : String) :
    (callbackName topic).toList = 'G' :: 'O' :: 'T' :: (topicKey topic).toList.map nameChar := by
  simp [callbackName, callbackStart]

/-! ### Characters that become one in a name -/

/-- Two characters of topics that names do not tell apart: they are equal, or each of them is a
slash or an underscore. -/
def NamedAlike (c d : Char) : Prop :=
  c = d ∨ (c = '/' ∨ c = '_') ∧ (d = '/' ∨ d = '_')

instance (c d : Char) : Decidable (NamedAlike c d) :=
  inferInstanceAs (Decidable (_ ∨ _))

/-- Only a slash is changed in a name. -/
theorem nameChar_of_ne {c : Char} (h : c ≠ '/') : nameChar c = c :=
  if_neg h

theorem nameChar_ne_slash (c : Char) : nameChar c ≠ '/' := by
  by_cases h : c = '/'
  · rw [h]
    decide
  · rwa [nameChar_of_ne h]

theorem nameChar_eq_underscore_iff (c : Char) : nameChar c = '_' ↔ c = '/' ∨ c = '_' := by
  by_cases h : c = '/'
  · subst h
    decide
  · simp [nameChar_of_ne h, h]

/-- A character other than an underscore comes from itself only. -/
theorem eq_of_nameChar {c x : Char} (hx : x ≠ '_') (h : nameChar c = x) : c = x := by
  by_cases hc : c = '/'
  · subst hc
    exact absurd h.symm hx
  · rwa [nameChar_of_ne hc] at h

/-- **Names tell all characters apart but a slash and an underscore.** -/
theorem nameChar_eq_iff (c d : Char) : nameChar c = nameChar d ↔ NamedAlike c d := by
  unfold NamedAlike
  by_cases hd : d = '/' ∨ d = '_'
  · rw [(nameChar_eq_underscore_iff d).2 hd, nameChar_eq_underscore_iff]
    constructor
    · exact fun hc => .inr ⟨hc, hd⟩
    · rintro (rfl | ⟨hc, -⟩)
      · exact hd
      · exact hc
  · obtain ⟨hslash, hunderscore⟩ := not_or.1 hd
    rw [nameChar_of_ne hslash]
    constructor
    · exact fun h => .inl (eq_of_nameChar hunderscore h)
    · rintro (rfl | ⟨-, hd'⟩)
      · exact nameChar_of_ne hslash
      · exact absurd hd' hd

/-- Against characters that are neither slashes nor underscores, being named alike is equality. -/
theorem forall₂_namedAlike_iff_eq {cs xs : List Char} (hslash : '/' ∉ xs)
    (hunderscore : '_' ∉ xs) : List.Forall₂ NamedAlike cs xs ↔ cs = xs := by
  constructor
  · intro h
    induction h with
    | nil => rfl
    | @cons c x cs xs hc _ ih =>
      rw [List.mem_cons, not_or] at hslash hunderscore
      rw [ih hslash.2 hunderscore.2]
      rcases hc with rfl | ⟨-, rfl | rfl⟩
      · rfl
      · exact absurd rfl hslash.1
      · exact absurd rfl hunderscore.1
  · rintro rfl
    exact List.forall₂_same.2 fun c _ => .inl rfl

/-! ### Names -/

/-- **Which topics share a name**: those whose keys are named alike at every place. -/
theorem callbackName_eq_iff (s t : String) : callbackName s = callbackName t ↔
    List.Forall₂ NamedAlike (topicKey s).toList (topicKey t).toList := by
  rw [← String.toList_inj, toList_callbackName, toList_callbackName]
  simp only [List.cons.injEq, true_and]
  rw [← List.forall₂_eq_eq_eq, List.forall₂_map_left_iff, List.forall₂_map_right_iff]
  simp only [nameChar_eq_iff]

/-- A character of a name is one of those in front, or stands for one of the key. -/
theorem mem_callbackName_iff (c : Char) (topic : String) : c ∈ (callbackName topic).toList ↔
    c ∈ callbackStart.toList ∨ ∃ d ∈ (topicKey topic).toList, nameChar d = c := by
  rw [callbackName, String.toList_append, List.mem_append, String.toList_ofList, List.mem_map]

/-- A name has no slash. -/
theorem slash_not_mem_callbackName (topic : String) : '/' ∉ (callbackName topic).toList := by
  rw [mem_callbackName_iff]
  rintro (h | ⟨d, -, hd⟩)
  · exact absurd h (by decide)
  · exact nameChar_ne_slash d hd

/-- A name has no quotes, since the key has none and a quote would be kept. -/
theorem isQuote_of_mem_callbackName {topic : String} {c : Char}
    (h : c ∈ (callbackName topic).toList) : isQuote c = false := by
  have hstart : ∀ c ∈ callbackStart.toList, isQuote c = false := by simp [callbackStart, isQuote]
  rcases (mem_callbackName_iff c topic).1 h with h | ⟨d, hd, rfl⟩
  · exact hstart c h
  · have hquote := isQuote_of_mem_topicKey hd
    by_cases hslash : d = '/'
    · subst hslash
      decide
    · rwa [nameChar_of_ne hslash]

/-! ### Names that are words -/

theorem isWord_nameChar_iff (c : Char) : (nameChar c).isAlphanum ∨ nameChar c = '_' ↔
    c.isAlphanum ∨ c = '_' ∨ c = '/' := by
  by_cases h : c = '/'
  · subst h
    decide
  · simp [nameChar_of_ne h, h]

/-- **Which names are words** of ASCII letters, digits and underscores. -/
theorem isWord_callbackName_iff (topic : String) :
    (∀ c ∈ (callbackName topic).toList, c.isAlphanum ∨ c = '_') ↔
      ∀ c ∈ (topicKey topic).toList, c.isAlphanum ∨ c = '_' ∨ c = '/' := by
  have hstart : ∀ c ∈ callbackStart.toList, c.isAlphanum ∨ c = '_' := by simp [callbackStart]
  constructor
  · intro h c hc
    exact (isWord_nameChar_iff c).1 (h _ ((mem_callbackName_iff _ _).2 (.inr ⟨c, hc, rfl⟩)))
  · intro h c hc
    rcases (mem_callbackName_iff c topic).1 hc with hc | ⟨d, hd, rfl⟩
    · exact hstart c hc
    · exact (isWord_nameChar_iff d).2 (h d hd)

/-- **What a callback name tells of its topic.**

* Two topics have one name exactly if their keys are equally long and have at every place the same
  character, or two of slash and underscore.
* The name depends on the key only.
* It has no slash and no quote.
* It consists of ASCII letters, digits and underscores exactly if the key consists of these and
  slashes. -/
theorem callbackName_identifies :
    (∀ s t, callbackName s = callbackName t ↔
      (topicKey s).toList.length = (topicKey t).toList.length ∧
        ∀ (i : Nat) (hs : i < (topicKey s).toList.length) (ht : i < (topicKey t).toList.length),
          NamedAlike ((topicKey s).toList.get ⟨i, hs⟩) ((topicKey t).toList.get ⟨i, ht⟩)) ∧
    (∀ s t, topicKey s = topicKey t → callbackName s = callbackName t) ∧
    ∀ t, ('/' ∉ (callbackName t).toList ∧ '"' ∉ (callbackName t).toList ∧
        '\'' ∉ (callbackName t).toList) ∧
      ((∀ c ∈ (callbackName t).toList, c.isAlphanum ∨ c = '_') ↔
        ∀ c ∈ (topicKey t).toList, c.isAlphanum ∨ c = '_' ∨ c = '/') := by
  refine ⟨fun s t => ?_, fun s t hkey => ?_, fun t => ⟨⟨slash_not_mem_callbackName t, ?_, ?_⟩,
    isWord_callbackName_iff t⟩⟩
  · rw [callbackName_eq_iff, List.forall₂_iff_get]
  · rw [← callbackName_topicKey s, hkey, callbackName_topicKey]
  · exact fun h => absurd (isQuote_of_mem_callbackName h) (by decide)
  · exact fun h => absurd (isQuote_of_mem_callbackName h) (by decide)

/-- Quotes and slashes against underscores make no difference to a name, and a hyphen does. -/
theorem callbackName_identifies_hallTopics :
    topicKey "'/hall'/1" = topicKey "\"/hall/1\"" ∧
      callbackName "'/hall'/1" = callbackName "\"/hall/1\"" ∧
      callbackName "'/hall'/1" = callbackName "_hall/1" ∧
      callbackName "/hall/1" ≠ callbackName "/hall-1" ∧
      (∀ c ∈ (callbackName "'/hall'/1").toList, c.isAlphanum ∨ c = '_') ∧
      ¬ ∀ c ∈ (callbackName "/hall-1").toList, c.isAlphanum ∨ c = '_' := by
  obtain ⟨hname, hkey, hchars⟩ := callbackName_identifies
  have hquoted : topicKey "'/hall'/1" = topicKey "\"/hall/1\"" := by decide
  have hplain : (topicKey "'/hall'/1").toList = ['/', 'h', 'a', 'l', 'l', '/', '1'] := by decide
  refine ⟨hquoted, hkey _ _ hquoted, (hname _ _).2 (by decide), fun h => ?_, (hchars _).2.2 ?_,
    fun h => ?_⟩
  · exact absurd ((hname _ _).1 h) (by decide)
  · rw [hplain]
    simp
  · exact absurd ((hchars _).2.1 h '-' (by decide)) (by decide)

end BoardBlocks
