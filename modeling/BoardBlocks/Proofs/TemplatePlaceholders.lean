/-
# Templates cut at their placeholders

A template is the text before its first placeholder and then each placeholder with the text that
follows it.  Placeholders have no brackets inside, so no two of them overlap, and there is one way
only to cut a template so that every `[NAME]` in it is one of the cuts (`Cut.IsOf`).

Filling the template looks the names of these placeholders up, in order, and puts the texts in their
places; between them nothing changes.
-/

import BoardBlocks.Snippet.Template
import Mathlib.Data.List.Basic
import Mathlib.Data.List.TakeWhile

namespace BoardBlocks
namespace Snippet

/-- The name of a placeholder: an ASCII upper-case letter, and behind it ASCII upper-case letters,
digits and underscores. -/
def IsName (name : List Char) : Prop :=
  ∃ first rest, name = first :: rest ∧ ('A' ≤ first ∧ first ≤ 'Z') ∧
    ∀ c ∈ rest, ('A' ≤ c ∧ c ≤ 'Z') ∨ ('0' ≤ c ∧ c ≤ '9') ∨ c = '_'

/-- A placeholder as it stands in a template. -/
def placeholder (name : List Char) : List Char :=
  '[' :: (name ++ [']'])

/-- A text cut at placeholders. -/
structure Cut where
  /-- What stands before the first placeholder. -/
  start : List Char := []
  /-- The names of the placeholders, each with what stands between it and the next one. -/
  slots : List (List Char × List Char) := []
deriving DecidableEq

namespace Cut

/-- The text that was cut. -/
def text (c : Cut) : List Char :=
  c.start ++ c.slots.flatMap fun s => placeholder s.1 ++ s.2

/-- The names of the placeholders. -/
def names (c : Cut) : List String :=
  c.slots.map fun s => String.ofList s.1

/-- The text with a text in the place of each placeholder. -/
def replace (c : Cut) (texts : List String) : String :=
  String.ofList c.start ++
    String.join (List.zipWith (fun s text => text ++ String.ofList s.2) c.slots texts)

/-- The cut of a text at its placeholders, all of them. -/
structure IsOf (c : Cut) (cs : List Char) : Prop where
  text_eq : c.text = cs
  isName : ∀ s ∈ c.slots, IsName s.1
  /-- Wherever a placeholder stands in the text, the text is cut there. -/
  complete : ∀ before name after, IsName name → cs = before ++ placeholder name ++ after →
    ∃ front gap back, c.slots = front ++ (name, gap) :: back ∧
      before = text ⟨c.start, front⟩ ∧ after = text ⟨gap, back⟩

theorem text_slot (name gap : List Char) (slots : List (List Char × List Char)) :
    text ⟨[], (name, gap) :: slots⟩ = placeholder name ++ text ⟨gap, slots⟩ := by
  simp [text]

/-- Replacing leaves a character at the start alone. -/
theorem replace_char (c : Char) (k : Cut) (texts : List String) :
    replace ⟨c :: k.start, k.slots⟩ texts = String.singleton c ++ k.replace texts := by
  rw [← String.toList_inj]
  simp [replace]

/-- Replacing puts the first text in the place of the first placeholder. -/
theorem replace_slot (name : List Char) (k : Cut) (text : String) (texts : List String) :
    replace ⟨[], (name, k.start) :: k.slots⟩ (text :: texts) = text ++ k.replace texts := by
  rw [← String.toList_inj]
  simp [replace]

/-- Placeholders put in the place of placeholders give the text. -/
theorem replace_names (c : Cut) :
    c.replace (c.names.map fun name => "[" ++ name ++ "]") = String.ofList c.text := by
  rw [replace, names, List.map_map, List.zipWith_map_right, List.zipWith_self, ← String.toList_inj]
  simp [text, placeholder, String.toList_join, List.flatMap_map]

end Cut

/-- The elements of a template as a cut. -/
def cutOf : List Part → Cut
  | [] => {}
  | .char c :: ps => { start := c :: (cutOf ps).start, slots := (cutOf ps).slots }
  | .slot name :: ps => { slots := (name, (cutOf ps).start) :: (cutOf ps).slots }

/-! ### Names -/

theorem isUpper_iff (c : Char) : c.isUpper = true ↔ 'A' ≤ c ∧ c ≤ 'Z' :=
  decide_eq_true_iff

/-- The characters of names are upper-case letters, digits and underscores, all ASCII. -/
theorem isNameChar_iff (c : Char) :
    isNameChar c = true ↔ ('A' ≤ c ∧ c ≤ 'Z') ∨ ('0' ≤ c ∧ c ≤ '9') ∨ c = '_' := by
  have hdigit : c.isDigit = true ↔ '0' ≤ c ∧ c ≤ '9' :=
    Bool.and_eq_true_iff.trans (and_congr decide_eq_true_iff decide_eq_true_iff)
  rw [isNameChar, Bool.or_eq_true, Bool.or_eq_true, isUpper_iff, hdigit, decide_eq_true_eq, or_assoc]

/-- A name starts with an upper-case letter and has characters of names only. -/
theorem isName_iff (name : List Char) :
    IsName name ↔ name.head?.any Char.isUpper = true ∧ ∀ c ∈ name, isNameChar c = true := by
  simp only [isNameChar_iff]
  constructor
  · rintro ⟨first, rest, rfl, hfirst, hrest⟩
    refine ⟨(isUpper_iff first).2 hfirst, fun c hc => ?_⟩
    rcases List.mem_cons.1 hc with rfl | hc
    · exact .inl hfirst
    · exact hrest c hc
  · rintro ⟨hfirst, hall⟩
    cases name with
    | nil => exact nomatch hfirst
    | cons first rest =>
      exact ⟨first, rest, rfl, (isUpper_iff first).1 hfirst,
        fun c hc => hall c (List.mem_cons_of_mem _ hc)⟩

/-- A name has no brackets. -/
theorem bracket_not_mem {name : List Char} (h : IsName name) : '[' ∉ name ∧ ']' ∉ name := by
  have hall := ((isName_iff name).1 h).2
  exact ⟨fun hmem => absurd (hall _ hmem) (by decide),
    fun hmem => absurd (hall _ hmem) (by decide)⟩

/-- A placeholder is recognised by what stands behind its opening bracket. -/
theorem slotName?_eq_some_iff {cs name : List Char} :
    slotName? cs = some name ↔ IsName name ∧ ∃ rest, cs = name ++ ']' :: rest := by
  rw [slotName?, isName_iff]
  constructor
  · intro h
    split at h
    · rename_i hslot
      obtain rfl := Option.some.inj h
      obtain ⟨hfirst, hclose⟩ := Bool.and_eq_true_iff.1 hslot
      obtain ⟨rest, hrest⟩ := List.head?_eq_some_iff.1 (of_decide_eq_true hclose)
      refine ⟨⟨hfirst, fun c hc => List.mem_takeWhile_imp hc⟩, rest, ?_⟩
      rw [← hrest, List.takeWhile_append_dropWhile]
    · exact nomatch h
  · rintro ⟨⟨hfirst, hall⟩, rest, rfl⟩
    have hclose : isNameChar ']' = false := by decide
    rw [List.takeWhile_append_of_pos hall, List.dropWhile_append_of_pos hall]
    simp [hclose, hfirst]

/-! ### Elements -/

/-- The first characters belong to the element before. -/
theorem partsFrom_eq_drop (skip : Nat) (cs : List Char) :
    partsFrom skip cs = partsFrom 0 (cs.drop skip) := by
  induction skip generalizing cs with
  | zero => rfl
  | succ skip ih =>
    cases cs with
    | nil => rfl
    | cons c cs => exact ih cs

/-- A placeholder ahead is the first part. -/
theorem partsFrom_placeholder {name : List Char} (h : IsName name) (rest : List Char) :
    partsFrom 0 (placeholder name ++ rest) = .slot name :: partsFrom 0 rest := by
  have hslot : slotName? (name ++ ']' :: rest) = some name :=
    slotName?_eq_some_iff.2 ⟨h, rest, rfl⟩
  have hcs : placeholder name ++ rest = '[' :: (name ++ ']' :: rest) := by simp [placeholder]
  have hdrop : (name ++ ']' :: rest).drop (name.length + 1) = rest := by simp
  rw [hcs, partsFrom, if_pos rfl, hslot, ← hdrop, ← partsFrom_eq_drop, hdrop]

/-- A text that starts with no placeholder starts with a character that is copied. -/
theorem partsFrom_char {c : Char} {cs : List Char}
    (h : ∀ name rest, IsName name → c :: cs ≠ placeholder name ++ rest) :
    partsFrom 0 (c :: cs) = .char c :: partsFrom 0 cs := by
  rw [partsFrom]
  split
  · rename_i hopen
    have hnone : slotName? cs = none := by
      rw [Option.eq_none_iff_forall_ne_some]
      intro name hslot
      obtain ⟨hname, rest, rfl⟩ := slotName?_eq_some_iff.1 hslot
      exact h name rest hname (by simp [placeholder, hopen])
    rw [hnone]
  · rfl

/-- A text is empty, starts with a placeholder, or starts with a character that is copied. -/
theorem template_induction {P : List Char → Prop} (nil : P [])
    (slot : ∀ name rest, IsName name → P rest → P (placeholder name ++ rest))
    (char : ∀ c cs, (∀ name rest, IsName name → c :: cs ≠ placeholder name ++ rest) → P cs →
      P (c :: cs))
    (cs : List Char) : P cs := by
  induction hn : cs.length using Nat.strongRecOn generalizing cs with
  | _ n ih =>
    cases cs with
    | nil => exact nil
    | cons c cs =>
      by_cases h : ∃ name rest, IsName name ∧ c :: cs = placeholder name ++ rest
      · obtain ⟨name, rest, hname, hcs⟩ := h
        have hlength : rest.length < n := by
          rw [← hn, hcs, List.length_append, placeholder, List.length_cons]
          omega
        rw [hcs]
        exact slot name rest hname (ih rest.length hlength rest rfl)
      · have hlength : cs.length < n := by
          rw [← hn]
          exact Nat.lt_succ_self _
        refine char c cs (fun name rest hname hcs => ?_) (ih cs.length hlength cs rfl)
        exact h ⟨name, rest, hname, hcs⟩

/-! ### The cut of a template -/

/-- Where one placeholder starts a text, any other one stands behind it. -/
theorem placeholder_append_eq {name name' rest before after : List Char} (h : IsName name)
    (h' : IsName name') (heq : placeholder name ++ rest = before ++ placeholder name' ++ after) :
    (before = [] ∧ name = name' ∧ rest = after) ∨
      ∃ before', before = placeholder name ++ before' ∧
        rest = before' ++ placeholder name' ++ after := by
  cases before with
  | nil =>
    have htail : name ++ ']' :: rest = name' ++ ']' :: after := by
      simpa [placeholder] using heq
    have hslot : slotName? (name ++ ']' :: rest) = some name :=
      slotName?_eq_some_iff.2 ⟨h, rest, rfl⟩
    have hslot' : slotName? (name ++ ']' :: rest) = some name' :=
      slotName?_eq_some_iff.2 ⟨h', after, htail⟩
    obtain rfl := Option.some.inj (hslot.symm.trans hslot')
    exact .inl ⟨rfl, rfl, (List.cons.inj (List.append_cancel_left htail)).2⟩
  | cons c before =>
    have htail : c = '[' ∧
        (name ++ [']']) ++ rest = before ++ '[' :: (name' ++ ']' :: after) := by
      simpa [placeholder, eq_comm] using heq
    obtain ⟨rfl, htail⟩ := htail
    refine .inr ?_
    rcases List.append_eq_append_iff.1 htail with ⟨before', rfl, hrest⟩ | ⟨inside, hname, hrest⟩
    · exact ⟨before', rfl, by simpa [placeholder] using hrest⟩
    · -- the second placeholder would open inside the first one
      cases inside with
      | nil => exact ⟨[], by simp [placeholder, hname], by simpa [placeholder] using hrest.symm⟩
      | cons c' inside =>
        obtain ⟨rfl, -⟩ := List.cons.inj hrest
        have hmem : '[' ∈ name ++ [']'] := by simp [hname]
        exact absurd hmem (by simp [(bracket_not_mem h).1])

/-- **The elements of a template are its cut at all placeholders.** -/
theorem cutOf_isOf (cs : List Char) : (cutOf (partsFrom 0 cs)).IsOf cs := by
  induction cs using template_induction with
  | nil =>
    refine ⟨rfl, nofun, fun before name after _ h => ?_⟩
    exact absurd h (by simp [placeholder])
  | slot name rest hname ih =>
    rw [partsFrom_placeholder hname]
    refine ⟨?_, ?_, fun before name' after hname' h => ?_⟩
    · rw [cutOf, Cut.text_slot]
      exact congrArg _ ih.text_eq
    · exact List.forall_mem_cons.2 ⟨hname, ih.isName⟩
    · rcases placeholder_append_eq hname hname' h with ⟨rfl, rfl, rfl⟩ | ⟨before', rfl, hrest⟩
      · exact ⟨[], _, _, rfl, rfl, ih.text_eq.symm⟩
      · obtain ⟨front, gap, back, hslots, rfl, rfl⟩ := ih.complete before' name' after hname' hrest
        refine ⟨(name, (cutOf (partsFrom 0 rest)).start) :: front, gap, back, ?_, ?_, rfl⟩
        · exact congrArg _ hslots
        · exact (Cut.text_slot ..).symm
  | char c cs hchar ih =>
    rw [partsFrom_char hchar]
    refine ⟨?_, ih.isName, fun before name after hname h => ?_⟩
    · exact congrArg _ ih.text_eq
    · cases before with
      | nil => exact absurd h (hchar name after hname)
      | cons c' before =>
        obtain ⟨rfl, hcs⟩ := List.cons.inj h
        obtain ⟨front, gap, back, hslots, rfl, rfl⟩ := ih.complete before name after hname hcs
        exact ⟨front, gap, back, hslots, rfl, rfl⟩

/-- **There is one such cut only.** -/
theorem Cut.IsOf.eq_cutOf {k : Cut} {cs : List Char} (h : k.IsOf cs) :
    k = cutOf (partsFrom 0 cs) := by
  induction cs using template_induction generalizing k with
  | nil =>
    obtain ⟨start, slots⟩ := k
    have htext := h.text_eq
    cases slots with
    | nil =>
      obtain rfl : start = [] := by simpa [text] using htext
      rfl
    | cons s slots => simp [text, placeholder] at htext
  | slot name rest hname ih =>
    -- the placeholder at the start is the first cut
    obtain ⟨front, gap, back, hslots, hstart, hrest⟩ :=
      h.complete [] name rest hname rfl
    obtain ⟨start, slots⟩ := k
    obtain rfl : start = [] := by simpa [text] using (List.append_eq_nil_iff.1 hstart.symm).1
    obtain rfl : front = [] := by
      cases front with
      | nil => rfl
      | cons s front => simp [text, placeholder] at hstart
    obtain rfl : slots = (name, gap) :: back := hslots
    have hbehind : IsOf ⟨gap, back⟩ rest := by
      refine ⟨hrest.symm, fun s hs => h.isName s (List.mem_cons_of_mem _ hs),
        fun before name' after hname' hcs => ?_⟩
      obtain ⟨front, gap', back', hslots', hbefore, hafter⟩ :=
        h.complete (placeholder name ++ before) name' after hname' (by rw [hcs]; simp)
      cases front with
      | nil => simp [text, placeholder] at hbefore
      | cons s front =>
        obtain ⟨rfl, hback⟩ := List.cons.inj hslots'
        rw [text_slot] at hbefore
        exact ⟨front, gap', back', hback, List.append_cancel_left hbefore, hafter⟩
    rw [partsFrom_placeholder hname, cutOf, ← ih hbehind]
  | char c cs hchar ih =>
    obtain ⟨start, slots⟩ := k
    have htext := h.text_eq
    cases start with
    | nil =>
      cases slots with
      | nil => exact nomatch htext
      | cons s slots =>
        rw [text_slot] at htext
        exact absurd htext.symm (hchar _ _ (h.isName s List.mem_cons_self))
    | cons c' start =>
      obtain ⟨rfl, hbody⟩ := List.cons.inj htext
      have hbehind : IsOf ⟨start, slots⟩ cs := by
        refine ⟨hbody, h.isName, fun before name after hname hcs => ?_⟩
        obtain ⟨front, gap, back, hslots, hbefore, hafter⟩ :=
          h.complete (c' :: before) name after hname (by rw [hcs]; rfl)
        exact ⟨front, gap, back, hslots, (List.cons.inj hbefore).2, hafter⟩
      rw [partsFrom_char hchar, cutOf, ← ih hbehind]

/-! ### Filling -/

section Fill

variable {m : Type → Type} [Monad m] [LawfulMonad m]

/-- Filling parts looks their names up, from left to right, and replaces the placeholders by what
was found. -/
theorem fill_parts (ps : List Part) (lookup : String → m String) :
    String.join <$> ps.mapM (fillPart lookup) =
      (cutOf ps).replace <$> (cutOf ps).names.mapM lookup := by
  induction ps with
  | nil => simp [cutOf, Cut.names, Cut.replace]
  | cons p ps ih =>
    cases p with
    | char c =>
      have hreplace : (cutOf (.char c :: ps)).replace =
          (String.singleton c ++ ·) ∘ (cutOf ps).replace :=
        funext fun texts => Cut.replace_char c (cutOf ps) texts
      calc String.join <$> (Part.char c :: ps).mapM (fillPart lookup)
          = (String.singleton c ++ ·) <$> String.join <$> ps.mapM (fillPart lookup) := by
            simp [fillPart, String.join_cons]
        _ = (cutOf (.char c :: ps)).replace <$> (cutOf ps).names.mapM lookup := by
            rw [ih, hreplace, comp_map]
    | slot name =>
      calc String.join <$> (Part.slot name :: ps).mapM (fillPart lookup)
          = (do
              let text ← lookup (String.ofList name)
              (text ++ ·) <$> String.join <$> ps.mapM (fillPart lookup)) := by
            simp [fillPart, String.join_cons]
        _ = (cutOf (.slot name :: ps)).replace <$> (cutOf (.slot name :: ps)).names.mapM lookup := by
            simp [ih, cutOf, Cut.names, Cut.replace_slot]

end Fill

/-- **Filling a template replaces its placeholders, all at once, and nothing else.**  There is one
cut of the template at every `[NAME]` in it and nowhere else.  Whatever the lookup is and does,
filling looks up the names of these placeholders, each once and from left to right, and puts the
texts that come of it into the cut.  Where every name gives its own placeholder, the template comes
out as it was. -/
theorem fill_eq_cut (template : String) :
    ∃ c : Cut, (∀ k : Cut, k.IsOf template.toList ↔ k = c) ∧
      ∀ (m : Type → Type) [Monad m] [LawfulMonad m],
        (∀ lookup : String → m String, fill template lookup = do
          let texts ← c.names.mapM lookup
          return c.replace texts) ∧
        fill template (fun name => (pure ("[" ++ name ++ "]") : m String)) = pure template := by
  have hcut : (cutOf (parts template)).IsOf template.toList := cutOf_isOf _
  refine ⟨cutOf (parts template), fun k => ⟨fun h => h.eq_cutOf, fun h => h ▸ hcut⟩,
    fun m _ _ => ?_⟩
  have hfill (lookup : String → m String) : fill template lookup =
      (cutOf (parts template)).replace <$> (cutOf (parts template)).names.mapM lookup :=
    fill_parts _ lookup
  refine ⟨fun lookup => ?_, ?_⟩
  · rw [hfill, map_eq_pure_bind]
  · rw [hfill, List.mapM_pure, map_pure, Cut.replace_names, hcut.text_eq, String.ofList_toList]

example : cutOf (parts "f([A], buf[0], [[B_2], [C") =
    ⟨"f(".toList, [("A".toList, ", buf[0], [".toList), ("B_2".toList, ", [C".toList)]⟩ := by
  decide

end Snippet
end BoardBlocks
