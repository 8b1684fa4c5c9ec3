/-
# Arguments in order

The arguments of a block stand in the order of their names, one for each name, in the blocks inside
its arguments too (`Block.Ordered`).  Nothing that makes a block breaks this: a block without
arguments is ordered, setting an argument keeps a block ordered (`Block.Ordered.withArg`), and every
program that is read from a document is ordered (`Program.ordered_of_ofString?`).
-/

import BoardBlocks.Block.Document
import Mathlib.Data.List.Basic

namespace BoardBlocks

/-! ### Entries in order -/

namespace Keyed

variable {α : Type} {es : List (String × α)}

/-- Entries in the order of their keys, one for each key. -/
def Sorted (es : List (String × α)) : Prop :=
  es.Pairwise fun e e' => e.1 < e'.1

instance (es : List (String × α)) : Decidable (Sorted es) :=
  inferInstanceAs (Decidable (es.Pairwise _))

/-- What an insertion leaves is the new entry or an old one. -/
theorem mem_insert {key : String} {value : α} {e : String × α} (h : e ∈ insert key value es) :
    e = (key, value) ∨ e ∈ es := by
  induction es with
  | nil => exact .inl (List.mem_singleton.1 h)
  | cons e' es ih =>
    rw [insert] at h
    split at h
    · exact List.mem_cons.1 h
    · split at h
      · exact (List.mem_cons.1 h).imp_right (List.mem_cons_of_mem e')
      · rcases List.mem_cons.1 h with rfl | h
        · exact .inr List.mem_cons_self
        · exact (ih h).imp_right (List.mem_cons_of_mem e')

/-- Entries stay in order when one is inserted. -/
theorem Sorted.insert (h : Sorted es) (key : String) (value : α) :
    Sorted (insert key value es) := by
  induction es with
  | nil => exact List.pairwise_singleton _ _
  | cons e es ih =>
    obtain ⟨hfirst, hrest⟩ := List.pairwise_cons.1 h
    rw [Keyed.insert]
    split
    · rename_i hlt
      refine List.pairwise_cons.2 ⟨fun x hx => ?_, h⟩
      rcases List.mem_cons.1 hx with rfl | hx
      · exact hlt
      · exact String.lt_trans hlt (hfirst x hx)
    · rename_i hnot
      split
      · rename_i heq
        exact List.pairwise_cons.2 ⟨heq ▸ hfirst, hrest⟩
      · rename_i hne
        have hlt : e.1 < key := by
          by_contra hle
          exact hne (String.le_antisymm (String.not_lt.1 hnot) (String.not_lt.1 hle))
        refine List.pairwise_cons.2 ⟨fun x hx => ?_, ih hrest⟩
        rcases mem_insert hx with rfl | hx
        · exact hlt
        · exact hfirst x hx

/-- A property of the entries inserted so far holds of all entries of a list that is put in
order. -/
theorem ofList_induction {motive : List (String × α) → Prop} (nil : motive [])
    (insert : ∀ e ∈ es, ∀ acc, motive acc → motive (insert e.1 e.2 acc)) : motive (ofList es) := by
  have hfold : ∀ acc, motive acc → motive (es.foldl (fun es e => Keyed.insert e.1 e.2 es) acc) := by
    induction es with
    | nil => exact fun acc hacc => hacc
    | cons e es ih =>
      intro acc hacc
      exact ih (fun x hx => insert x (List.mem_cons_of_mem e hx)) _
        (insert e List.mem_cons_self acc hacc)
  exact hfold [] nil

/-- Entries that are inserted one by one are sorted. -/
theorem sorted_ofList (es : List (String × α)) : Sorted (ofList es) :=
  ofList_induction List.Pairwise.nil fun e _ _ h => h.insert e.1 e.2

theorem mem_ofList {e : String × α} (h : e ∈ ofList es) : e ∈ es := by
  have hall : ∀ e ∈ ofList es, e ∈ es := by
    refine ofList_induction (motive := fun acc => ∀ e ∈ acc, e ∈ es) (by simp)
      fun x hx acc hacc e he => ?_
    rcases mem_insert he with rfl | he
    · exact hx
    · exact hacc e he
  exact hall e h

/-- An entry whose key is greater than all others is inserted at the end. -/
theorem insert_of_forall_lt {key : String} (value : α) (h : ∀ e ∈ es, e.1 < key) :
    insert key value es = es ++ [(key, value)] := by
  induction es with
  | nil => rfl
  | cons e es ih =>
    have hlt : e.1 < key := h e List.mem_cons_self
    have hnot : ¬key < e.1 := String.lt_asymm hlt
    have hne : e.1 ≠ key := String.ne_of_lt hlt
    rw [insert, if_neg hnot, if_neg hne, ih fun x hx => h x (List.mem_cons_of_mem e hx)]
    rfl

/-- Entries that are in order stay as they are. -/
theorem Sorted.ofList_eq (h : Sorted es) : ofList es = es := by
  have hfold : ∀ (es acc : List (String × α)), Sorted (acc ++ es) →
      es.foldl (fun es e => Keyed.insert e.1 e.2 es) acc = acc ++ es := by
    intro es
    induction es with
    | nil => intro acc _; simp
    | cons e es ih =>
      intro acc hacc
      have hlast : ∀ x ∈ acc, x.1 < e.1 := fun x hx =>
        (List.pairwise_append.1 hacc).2.2 x hx e List.mem_cons_self
      have hnext : acc ++ [e] ++ es = acc ++ e :: es := by simp
      rw [List.foldl_cons, insert_of_forall_lt e.2 hlast, ih _ (by rwa [hnext]), hnext]
  exact hfold es [] h

end Keyed

/-! ### Ordered blocks -/

mutual
/-- An argument whose blocks have their arguments in order. -/
def Arg.Ordered : Arg → Prop
  | .block inner => inner.Ordered
  | .number _ => True
  | .text _ => True
termination_by structural a => a
/-- A block whose arguments stand in the order of their names, nested blocks included. -/
def Block.Ordered : Block → Prop
  | ⟨_, args, _⟩ => Keyed.Sorted args ∧ argsOrdered args
termination_by structural b => b
/-- Arguments whose blocks have their arguments in order. -/
def argsOrdered : List (String × Arg) → Prop
  | [] => True
  | (_, arg) :: args => arg.Ordered ∧ argsOrdered args
termination_by structural args => args
end

mutual
instance Arg.decidableOrdered : (a : Arg) → Decidable a.Ordered
  | .block inner => Block.decidableOrdered inner
  | .number _ => .isTrue trivial
  | .text _ => .isTrue trivial
termination_by structural a => a
instance Block.decidableOrdered : (b : Block) → Decidable b.Ordered
  | ⟨_, args, _⟩ =>
    have := decidableArgsOrdered args
    inferInstanceAs (Decidable (Keyed.Sorted args ∧ argsOrdered args))
termination_by structural b => b
instance decidableArgsOrdered : (args : List (String × Arg)) → Decidable (argsOrdered args)
  | [] => .isTrue trivial
  | (_, arg) :: args =>
    have := arg.decidableOrdered
    have := decidableArgsOrdered args
    inferInstanceAs (Decidable (arg.Ordered ∧ argsOrdered args))
termination_by structural args => args
end

theorem argsOrdered_iff {args : List (String × Arg)} :
    argsOrdered args ↔ ∀ m ∈ args, m.2.Ordered := by
  induction args with
  | nil => simp [argsOrdered]
  | cons m args ih =>
    obtain ⟨name, arg⟩ := m
    rw [argsOrdered, ih, List.forall_mem_cons]

/-- A block is ordered exactly if its arguments are sorted by name and ordered themselves. -/
theorem Block.ordered_iff {b : Block} :
    b.Ordered ↔ Keyed.Sorted b.args ∧ ∀ m ∈ b.args, m.2.Ordered := by
  obtain ⟨opcode, args, text⟩ := b
  rw [← argsOrdered_iff]
  exact Iff.rfl

/-- A block stays ordered when an argument is set. -/
theorem Block.Ordered.withArg {b : Block} {arg : Arg} (hb : b.Ordered) (harg : arg.Ordered)
    (name : String) : (b.withArg name arg).Ordered := by
  obtain ⟨hsorted, hargs⟩ := ordered_iff.1 hb
  refine ordered_iff.2 ⟨hsorted.insert name arg, fun m hm => ?_⟩
  rcases Keyed.mem_insert hm with rfl | hm
  · exact harg
  · exact hargs m hm

/-- The blocks of a program that are in no other block. -/
def Program.blocks (p : Program) : List Block :=
  p.scripts.flatMap Script.blocks

/-- A program whose blocks have their arguments in order. -/
def Program.Ordered (p : Program) : Prop :=
  ∀ b ∈ p.blocks, b.Ordered

instance (p : Program) : Decidable p.Ordered :=
  inferInstanceAs (Decidable (∀ b ∈ p.blocks, b.Ordered))

/-! ### What is read is ordered -/

/-- Elements that are read together are read one by one. -/
theorem exists_of_mem_mapM {α β : Type} {read : α → Option β} {xs : List α} {ys : List β}
    (h : xs.mapM read = some ys) {y : β} (hy : y ∈ ys) : ∃ x ∈ xs, read x = some y := by
  induction xs generalizing ys with
  | nil =>
    obtain rfl : [] = ys := Option.some.inj h
    exact absurd hy List.not_mem_nil
  | cons x xs ih =>
    rw [List.mapM_cons] at h
    obtain ⟨first, hfirst, h⟩ := Option.bind_eq_some_iff.1 h
    obtain ⟨rest, hrest, h⟩ := Option.bind_eq_some_iff.1 h
    obtain rfl : first :: rest = ys := Option.some.inj h
    rcases List.mem_cons.1 hy with rfl | hy
    · exact ⟨x, List.mem_cons_self, hfirst⟩
    · obtain ⟨x', hx', hread⟩ := ih hrest hy
      exact ⟨x', List.mem_cons_of_mem x hx', hread⟩

/-- A field is read, or it has its default. -/
theorem eq_or_exists_of_fieldOr {α : Type} {name : String} {read : Json → Option α}
    {default value : α} {stated : List (String × Json)}
    (h : Json.fieldOr name read default stated = some value) :
    value = default ∨ ∃ j, read j = some value := by
  rw [Json.fieldOr] at h
  split at h
  · exact .inl (Option.some.inj h).symm
  · exact .inr ⟨_, h⟩

/-- A block is ordered if its arguments are read as ordered ones. -/
theorem Block.ordered_of_ofJsonWith? {read : Json → Option Arg}
    (hread : ∀ j a, read j = some a → a.Ordered) {j : Json} {b : Block}
    (h : Block.ofJsonWith? read j = some b) : b.Ordered := by
  simp only [Block.ofJsonWith?, Option.bind_eq_bind, Option.bind_eq_some_iff] at h
  obtain ⟨stated, -, opcodeJson, -, opcode, -, args, hargs, text, -, hb⟩ := h
  obtain rfl : ⟨opcode, args, text⟩ = b := Option.some.inj hb
  rw [ordered_iff]
  rcases eq_or_exists_of_fieldOr hargs with rfl | ⟨argsJson, hargs⟩
  · exact ⟨List.Pairwise.nil, by simp⟩
  · simp only [argsOfJson?, Option.bind_eq_bind, Option.bind_eq_some_iff] at hargs
    obtain ⟨members, -, entries, hentries, hordered⟩ := hargs
    obtain rfl : Keyed.ofList entries = args := Option.some.inj hordered
    refine ⟨Keyed.sorted_ofList entries, fun m hm => ?_⟩
    obtain ⟨member, -, hmember⟩ := exists_of_mem_mapM hentries (Keyed.mem_ofList hm)
    obtain ⟨arg, harg, hm⟩ := Option.bind_eq_some_iff.1 hmember
    obtain rfl : (member.1, arg) = m := Option.some.inj hm
    exact hread _ arg harg

/-- An argument is read as a number, as a text, or as a block with less room inside. -/
theorem Arg.ofJson?_cases {room : Nat} {j : Json} {a : Arg} (h : Arg.ofJson? room j = some a) :
    (∃ value, a = .number value) ∨ (∃ content, a = .text content) ∨
      ∃ inside inner, inside < room ∧ Block.ofJsonWith? (Arg.ofJson? inside) j = some inner ∧
        a = .block inner := by
  unfold Arg.ofJson? at h
  split at h
  · obtain ⟨value, -, rfl⟩ := Option.map_eq_some_iff.1 h
    exact .inl ⟨value, rfl⟩
  · obtain ⟨content, -, rfl⟩ := Option.map_eq_some_iff.1 h
    exact .inr (.inl ⟨content, rfl⟩)
  · exact nomatch h
  · obtain ⟨inner, hinner, rfl⟩ := Option.map_eq_some_iff.1 h
    exact .inr (.inr ⟨_, inner, Nat.lt_succ_self _, hinner, rfl⟩)

/-- An argument read from a document is ordered, however deep it is. -/
theorem Arg.ordered_of_ofJson? (room : Nat) :
    ∀ (j : Json) (a : Arg), Arg.ofJson? room j = some a → a.Ordered := by
  induction room using Nat.strongRecOn with
  | ind room ih =>
    intro j a h
    rcases Arg.ofJson?_cases h with
      ⟨value, rfl⟩ | ⟨content, rfl⟩ | ⟨inside, inner, hlt, hinner, rfl⟩
    · exact trivial
    · exact trivial
    · exact Block.ordered_of_ofJsonWith? (ih inside hlt) hinner

/-- A block read from a document is ordered. -/
theorem Block.ordered_of_ofJson? {room : Nat} {j : Json} {b : Block}
    (h : Block.ofJson? room j = some b) : b.Ordered := by
  refine ordered_of_ofJsonWith? (fun j a hread => ?_) h
  rw [Arg.ofSoundJson?] at hread
  split at hread
  · exact Arg.ordered_of_ofJson? room j a hread
  · exact nomatch hread

/-- The blocks of a script read from a document are ordered. -/
theorem Script.ordered_of_ofJson? {j : Json} {s : Script} (h : Script.ofJson? j = some s) :
    ∀ b ∈ s.blocks, b.Ordered := by
  simp only [Script.ofJson?, Option.bind_eq_bind, Option.bind_eq_some_iff] at h
  obtain ⟨stated, -, stage, -, blocksJson, -, items, -, blocks, hblocks, hs⟩ := h
  obtain rfl : ⟨stage, blocks⟩ = s := Option.some.inj hs
  intro b hb
  obtain ⟨item, -, hread⟩ := exists_of_mem_mapM hblocks hb
  exact Block.ordered_of_ofJson? hread

/-- **What is read is ordered.** -/
theorem Program.ordered_of_ofString? {s : String} {p : Program}
    (h : Program.ofString? s = some p) : p.Ordered := by
  obtain ⟨j, -, hp⟩ := Option.bind_eq_some_iff.1 h
  simp only [Program.ofJson?, Option.bind_eq_bind, Option.bind_eq_some_iff] at hp
  obtain ⟨stated, -, scriptsJson, -, items, -, scripts, hscripts, hp⟩ := hp
  obtain rfl : ⟨scripts⟩ = p := Option.some.inj hp
  intro b hb
  obtain ⟨script, hscript, hb⟩ := List.mem_flatMap.1 hb
  obtain ⟨item, -, hread⟩ := exists_of_mem_mapM hscripts hscript
  exact Script.ordered_of_ofJson? hread b hb

end BoardBlocks
