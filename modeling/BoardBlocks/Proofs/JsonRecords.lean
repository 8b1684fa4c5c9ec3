/-
# Records read back

A record is written as an object of all its fields (`ofFields`).  Read back, it states these fields
and no others (`members?_ofFields`, `record?_ofFields`), so each of them is read as it was written.
A field that is not among them has its default (`fieldOr_of_none`).

A record nests one level deeper than its fields (`depth_ofFields_le`), and it is sound if they are
(`sound_ofFields`).

Members may also be left out of a document that is written already (`Json.without`).  A record that
is left of it states the fields that are left (`without_ofFields`, `field?_fieldsWithout`).
-/

import BoardBlocks.Json.Record
import BoardBlocks.Proofs.JsonReading

namespace BoardBlocks
namespace Json

variable {fs : List (String × Json)} {names : List String} {name : String}

/-! ### What is written as a record -/

/-- A natural number is written as documents write it. -/
theorem written_ofNat (n : Nat) : Written (ofNat n) :=
  .number (Decimal.ofString?_toString n)

/-- A record is written as documents write it, if its values are. -/
theorem written_ofFields (h : ∀ f ∈ fs, Written f.2) : Written (ofFields fs) := by
  refine .object (fun m hm => ?_) fun m hm => ?_
  · obtain ⟨f, -, rfl⟩ := List.mem_map.1 hm
    exact ⟨f.1, rfl⟩
  · obtain ⟨f, hf, rfl⟩ := List.mem_map.1 hm
    exact h f hf

/-! ### What a record states -/

/-- Elements that are read back one by one are read back together. -/
theorem mapM_map_eq {α β : Type} {write : α → β} {read : β → Option α} {xs : List α}
    (h : ∀ x ∈ xs, read (write x) = some x) : (xs.map write).mapM read = some xs := by
  induction xs with
  | nil => rfl
  | cons x xs ih =>
    have hx := h x List.mem_cons_self
    have hxs := ih fun y hy => h y (List.mem_cons_of_mem x hy)
    rw [List.map_cons, List.mapM_cons, hx, hxs]
    rfl

theorem members?_ofFields (fs : List (String × Json)) : (ofFields fs).members? = some fs := by
  refine mapM_map_eq fun f _ => ?_
  simp [decode?_encode]

/-- Keys are distinct exactly if there are no repetitions among them. -/
theorem distinctKeys_iff (ms : List (String × Json)) :
    distinctKeys ms = true ↔ (ms.map Prod.fst).Nodup := by
  induction ms with
  | nil => simp [distinctKeys]
  | cons m ms ih =>
    rw [distinctKeys, Bool.and_eq_true, ih, List.map_cons, List.nodup_cons]
    refine and_congr_left fun _ => ?_
    simp only [Bool.not_eq_true', List.any_eq_false, decide_eq_true_eq, List.mem_map, not_exists,
      not_and]

/-- A record states all fields that are written, if they are fields of its kind. -/
theorem record?_ofFields (hnames : ∀ f ∈ fs, f.1 ∈ names) (hdistinct : (fs.map Prod.fst).Nodup) :
    (ofFields fs).record? names = some fs := by
  have hknown : (fs.filter fun m => names.contains m.1) = fs :=
    List.filter_eq_self.2 fun f hf => by simpa using hnames f hf
  have hdecoded := members?_ofFields fs
  have hkeys := (distinctKeys_iff fs).2 hdistinct
  show ((ofFields fs).members?.bind fun ms =>
    if distinctKeys (ms.filter fun m => names.contains m.1) then
      some (ms.filter fun m => names.contains m.1) else none) = some fs
  rw [hdecoded, Option.bind_some, hknown, if_pos hkeys]

theorem fieldOr_of_none {α : Type} {read : Json → Option α} {default : α}
    (h : field? name fs = none) : fieldOr name read default fs = some default := by
  rw [fieldOr, h]

theorem fieldOr_of_some {α : Type} {read : Json → Option α} {default : α} {j : Json}
    (h : field? name fs = some j) : fieldOr name read default fs = read j := by
  rw [fieldOr, h]

/-! ### How deep a document nests, and whether it is sound -/

/-- Members are as deep as the deepest of them. -/
theorem depthMembers_le {ms : List (String × Json)} {n : Nat} :
    depthMembers ms ≤ n ↔ ∀ m ∈ ms, m.2.depth ≤ n := by
  induction ms with
  | nil => simp [depthMembers]
  | cons m ms ih =>
    obtain ⟨key, j⟩ := m
    rw [depthMembers, Nat.max_le, ih, List.forall_mem_cons]

/-- Items are as deep as the deepest of them. -/
theorem depthItems_le {items : List Json} {n : Nat} :
    depthItems items ≤ n ↔ ∀ j ∈ items, j.depth ≤ n := by
  induction items with
  | nil => simp [depthItems]
  | cons j items ih => rw [depthItems, Nat.max_le, ih, List.forall_mem_cons]

/-- A record nests one deeper than its deepest field. -/
theorem depth_ofFields_le {n : Nat} :
    (ofFields fs).depth ≤ n + 1 ↔ ∀ f ∈ fs, f.2.depth ≤ n := by
  rw [ofFields, depth, Nat.add_le_add_iff_right, depthMembers_le, List.forall_mem_map]

/-- An array is one deeper than its items. -/
theorem depth_array_le {items : List Json} {n : Nat} :
    (array items).depth ≤ n + 1 ↔ ∀ j ∈ items, j.depth ≤ n := by
  rw [depth, Nat.add_le_add_iff_right, depthItems_le]

/-- A record is sound if its fields are. -/
theorem sound_ofFields (h : ∀ f ∈ fs, f.2.sound = true) :
    (ofFields fs).sound = true := by
  have hmembers : ∀ fs : List (String × Json), (∀ f ∈ fs, f.2.sound = true) →
      soundMembers (fs.map fun f => (encode f.1, f.2)) = true := by
    intro fs
    induction fs with
    | nil => intro _; rfl
    | cons f fs ih =>
      intro h
      obtain ⟨hf, hfs⟩ := List.forall_mem_cons.1 h
      simp [soundMembers, decode?_encode, hf, ih hfs]
  rw [ofFields, sound]
  exact hmembers fs h

theorem sound_ofString (s : String) : (ofString s).sound = true := by
  simp [ofString, sound, decode?_encode]

/-! ### Leaving members out -/

mutual
/-- A document without the members whose path is among those that are gone.  The path of a member
is the keys from the outermost object to the member. -/
def without (gone : List String → Bool) : Json → (path : List String) → Json
  | .object members, path => .object (membersWithout gone members path)
  | j, _ => j
termination_by structural j => j
/-- Members without those that are gone, on a common path. -/
def membersWithout (gone : List String → Bool) :
    List (String × Json) → (path : List String) → List (String × Json)
  | [], _ => []
  | (k, v) :: ms, path =>
    if gone (path ++ [k]) then membersWithout gone ms path
    else (k, without gone v (path ++ [k])) :: membersWithout gone ms path
termination_by structural ms => ms
end

/-- The fields of a record that are left, with what is left of their values. -/
def fieldsWithout (gone : List String → Bool) (path : List String) (fs : List (String × Json)) :
    List (String × Json) :=
  (fs.filter fun f => !gone (path ++ [encode f.1])).map fun f =>
    (f.1, f.2.without gone (path ++ [encode f.1]))

variable (gone : List String → Bool) (path : List String)

/-- A record without some members is the record of the fields that are left. -/
theorem without_ofFields (fs : List (String × Json)) :
    (ofFields fs).without gone path = ofFields (fieldsWithout gone path fs) := by
  have hmembers : ∀ fs : List (String × Json),
      membersWithout gone (fs.map fun f => (encode f.1, f.2)) path =
        (fieldsWithout gone path fs).map fun f => (encode f.1, f.2) := by
    intro fs
    induction fs with
    | nil => rfl
    | cons f fs ih =>
      rw [List.map_cons, membersWithout, ih]
      by_cases hgone : gone (path ++ [encode f.1]) = true <;> simp [fieldsWithout, hgone]
  rw [ofFields, without, hmembers]
  rfl

/-- The fields that are left are fields of the record. -/
theorem map_fst_fieldsWithout (fs : List (String × Json)) :
    ((fieldsWithout gone path fs).map Prod.fst).Sublist (fs.map Prod.fst) := by
  rw [fieldsWithout, List.map_map]
  exact List.filter_sublist.map Prod.fst

/-- A field is stated if it is not gone, with what is left of its value. -/
theorem field?_fieldsWithout (name : String) (fs : List (String × Json)) :
    field? name (fieldsWithout gone path fs) = if gone (path ++ [encode name]) then none
      else (field? name fs).map fun j => j.without gone (path ++ [encode name]) := by
  induction fs with
  | nil => simp [fieldsWithout, field?]
  | cons f fs ih =>
    obtain ⟨key, j⟩ := f
    have hcons : fieldsWithout gone path ((key, j) :: fs) = if gone (path ++ [encode key]) then
        fieldsWithout gone path fs
        else (key, j.without gone (path ++ [encode key])) :: fieldsWithout gone path fs := by
      by_cases hgone : gone (path ++ [encode key]) = true <;> simp [fieldsWithout, hgone]
    rw [hcons]
    by_cases hkey : name = key
    · subst hkey
      by_cases hgone : gone (path ++ [encode name]) = true
      · rw [if_pos hgone, ih, if_pos hgone, if_pos hgone]
      · simp [hgone, field?]
    · have hlookup : ∀ (v : Json) (ms : List (String × Json)),
          field? name ((key, v) :: ms) = field? name ms := by
        intro v ms
        rw [field?, List.lookup_cons, beq_eq_false_iff_ne.2 hkey]
        rfl
      rw [hlookup, ← ih]
      split
      · rfl
      · exact hlookup _ _

mutual
/-- Leaving members out, at any depth, leaves a document as documents are written. -/
theorem written_without (gone : List String → Bool) :
    (j : Json) → Written j → (path : List String) → Written (j.without gone path)
  | .null, h, _ | .bool _, h, _ | .number _, h, _ | .string _, h, _ | .array _, h, _ => h
  | .object members, h, path => by
    cases h with
    | object hkeys h =>
      have hleft := written_membersWithout gone members hkeys h path
      exact .object (fun m hm => (hleft m hm).1) fun m hm => (hleft m hm).2
termination_by structural j => j
/-- What is left of members has its keys and values written as documents write them. -/
theorem written_membersWithout (gone : List String → Bool) :
    (ms : List (String × Json)) → (∀ m ∈ ms, ∃ key, m.1 = encode key) → (∀ m ∈ ms, Written m.2) →
      (path : List String) →
        ∀ m ∈ membersWithout gone ms path, (∃ key, m.1 = encode key) ∧ Written m.2
  | [], _, _, _ => by simp [membersWithout]
  | (k, v) :: ms, hkeys, h, path => by
    have hrest := written_membersWithout gone ms
      (fun m hm => hkeys m (List.mem_cons_of_mem _ hm))
      (fun m hm => h m (List.mem_cons_of_mem _ hm)) path
    have hkey := hkeys _ List.mem_cons_self
    have hvalue := written_without gone v (h _ List.mem_cons_self) (path ++ [k])
    rw [membersWithout]
    split
    · exact hrest
    · exact List.forall_mem_cons.2 ⟨⟨hkey, hvalue⟩, hrest⟩
termination_by structural ms => ms
end

end Json
end BoardBlocks
