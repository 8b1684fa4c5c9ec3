/-
# When topics collide

The routines of a program are named after the topics of its hats.  Which hats count can be read off
the program: those of a script that come before its first hat without a key (`hatKeys`), where a
key is a literal topic without its quotes, if that is not blank.

A generation fails exactly if two different keys of that list share a routine name, and nothing
else makes it fail (`generate_callbacks`).  Neither the target nor anything that goes wrong in other
blocks has a part in it.  Two keys share a name if they differ at most in slashes against
underscores (`generate_ok_iff_namedAlike`).
-/

import BoardBlocks.Proofs.CallbackNames
import BoardBlocks.Proofs.FlatSource

namespace BoardBlocks
namespace Generation

/-- The key of a hat: its topic without quotes.  A hat whose topic is missing, a nested block, or
blank without its quotes has none. -/
def hatKey? (b : Block) : Option String :=
  ((b.literal? "TOPIC").map topicKey).filter fun key => !Text.blank key

/-- The keys of a chain's hats, in order, up to the first hat that has none. -/
def chainKeys (bs : List Block) : List String :=
  (((bs.filter fun b => b.opcode = .onTopic).map hatKey?).takeWhile (·.isSome)).filterMap id

/-- The keys of the hats of a program, script after script and with repetitions. -/
def hatKeys (p : Program) : List String :=
  p.scripts.flatMap fun s => chainKeys s.blocks

namespace Flat

/-- A hat has a key if its topic is valid, and then it is that of the topic. -/
theorem hatKey?_eq (b : Block) : hatKey? b = (hatTopic b).toOption.map topicKey := by
  unfold hatKey? Block.literal? hatTopic
  cases harg : b.arg? "TOPIC" with
  | none => rfl
  | some arg =>
    cases arg with
    | text content =>
      by_cases hblank : Text.blank (topicKey content) <;> simp [hblank, Except.toOption]
    | number n =>
      by_cases hblank : Text.blank (topicKey (Decimal.plain n)) <;>
        simp [hblank, Except.toOption]
    | block inner => rfl

/-- A hat with a valid topic has the key of that topic. -/
theorem hatKey?_of_hasTopic {b : Block} (ht : hasTopic b = true) (body : List Block) :
    hatKey? b = some (Hat.key ⟨b, body⟩) := by
  rw [hatKey?_eq, hatTopic_eq ht body]
  rfl

/-- A hat with an invalid topic has no key. -/
theorem hatKey?_of_not_hasTopic {b : Block} (ht : hasTopic b = false) : hatKey? b = none := by
  obtain ⟨e, he, -⟩ := hatTopic_error ht
  rw [hatKey?_eq, he]
  rfl

theorem isHat_eq (b : Block) : isHat b = decide (b.opcode = .onTopic) := by
  cases hop : b.opcode <;> simp [isHat, hop, Opcode.shape]

/-- A block that is no hat has no part in the keys. -/
theorem chainKeys_cons {b : Block} (h : isHat b = false) (bs : List Block) :
    chainKeys (b :: bs) = chainKeys bs := by
  have hop : b.opcode ≠ .onTopic := by simpa [isHat_eq] using h
  simp [chainKeys, hop]

/-- A hat with a key comes before the keys of what follows. -/
theorem chainKeys_cons_hat {b : Block} (h : isHat b = true) {key : String}
    (hkey : hatKey? b = some key) (bs : List Block) :
    chainKeys (b :: bs) = key :: chainKeys bs := by
  have hop : b.opcode = .onTopic := opcode_of_isHat h
  simp [chainKeys, hop, hkey]

/-- A hat without a key ends the keys. -/
theorem chainKeys_cons_invalid {b : Block} (h : isHat b = true) (hkey : hatKey? b = none)
    (bs : List Block) : chainKeys (b :: bs) = [] := by
  have hop : b.opcode = .onTopic := opcode_of_isHat h
  simp [chainKeys, hop, hkey]

/-- **The hats that a generation reaches in a chain are those with a key, up to the first
without.** -/
theorem map_key_reached (bs : List Block) : (reached bs).map Hat.key = chainKeys bs := by
  induction bs using chain_induction with
  | nil => rfl
  | plain b bs h _ ih => rw [reached_cons h, chainKeys_cons h, ih]
  | hat b bs h ht _ ih =>
    have hkey := hatKey?_of_hasTopic ht (leading bs)
    rw [reached_cons_hat h ht, chainKeys_cons_hat h hkey, List.map_cons, ih]
  | invalid b bs h ht _ =>
    rw [reached_cons_invalid h ht, chainKeys_cons_invalid h (hatKey?_of_not_hasTopic ht),
      List.map_nil]

/-- The keys of the reached hats are those that the blocks say. -/
theorem keys_eq_hatKeys (p : Program) : keys p = hatKeys p := by
  unfold keys hatKeys
  exact congrArg (p.scripts.flatMap ·) (funext fun s => map_key_reached s.blocks)

/-- A generation succeeds on a program that tells its topics apart, and on no other. -/
theorem generate_ok_iff (target : Target) (settings : CodeSettings) (p : Program) :
    (∃ g, generate target settings p = .ok g) ↔ Callbacks.ToldApart (keys p) := by
  constructor
  · rintro ⟨g, hg⟩
    obtain ⟨-, t, ht⟩ := generate_ok hg
    exact ht.eq_of_name_eq
  · intro htold
    cases hgen : generate target settings p with
    | ok g => exact ⟨g, rfl⟩
    | error e =>
      obtain ⟨c, hc, -⟩ := generate_error hgen
      exact absurd htold hc.not_toldApart

/-- The error of a generation is the first collision of the topics. -/
theorem generate_error_iff (target : Target) (settings : CodeSettings) (p : Program)
    (e : GenerationError) : generate target settings p = .error e ↔
      ∃ c, Callbacks.CollidesFirst (keys p) c ∧ e = .collision c := by
  refine ⟨generate_error, ?_⟩
  rintro ⟨c, hc, rfl⟩
  cases hgen : generate target settings p with
  | ok g => exact absurd ((generate_ok_iff target settings p).1 ⟨g, hgen⟩) hc.not_toldApart
  | error e =>
    obtain ⟨c', hc', rfl⟩ := generate_error hgen
    rw [hc.unique hc']

end Flat

/-- **A generation fails exactly at the first collision of its topics.**

* It fails if and only if two different keys of its hats share a routine name.
* Its error is then the collision at the earliest position where a key has the routine name of
  another key before it; no other error comes out.
* Otherwise it binds each key, at the place where it came first, to its routine. -/
theorem generate_callbacks (target : Target) (settings : CodeSettings) (p : Program) :
    ((∃ e, generate target settings p = .error e) ↔
      ∃ k ∈ hatKeys p, ∃ k' ∈ hatKeys p, k ≠ k' ∧ callbackName k = callbackName k') ∧
    (∀ e, generate target settings p = .error e ↔
      ∃ c, Callbacks.CollidesFirst (hatKeys p) c ∧ e = .collision c) ∧
    (Callbacks.ToldApart (hatKeys p) → ∃ g, generate target settings p = .ok g ∧
      g.callbacks = (hatKeys p).eraseDups.map fun key => ⟨key, callbackName key⟩) := by
  have hok := Flat.generate_ok_iff target settings p
  have herror := Flat.generate_error_iff target settings p
  rw [Flat.keys_eq_hatKeys] at hok herror
  refine ⟨?_, herror, fun htold => ?_⟩
  · rw [← Callbacks.not_toldApart_iff, ← hok]
    cases generate target settings p <;> simp
  · obtain ⟨g, hg⟩ := hok.2 htold
    obtain ⟨hflat, -⟩ := Flat.generate_ok hg
    refine ⟨g, hg, ?_⟩
    rw [hflat, ← Flat.keys_eq_hatKeys]
    rfl

/-! ### Topics that a program may have side by side -/

/-- The quotes of a key are gone already. -/
theorem topicKey_of_mem_hatKeys {p : Program} {key : String} (h : key ∈ hatKeys p) :
    topicKey key = key := by
  rw [← Flat.keys_eq_hatKeys] at h
  obtain ⟨s, -, hs⟩ := List.mem_flatMap.1 h
  obtain ⟨hat, -, rfl⟩ := List.mem_map.1 hs
  exact topicKey_topicKey hat.topic

/-- **Which programs a generation takes**, said without names: those with no two different keys that
are slashes against underscores wherever they differ. -/
theorem generate_ok_iff_namedAlike (target : Target) (settings : CodeSettings) (p : Program) :
    (∃ g, generate target settings p = .ok g) ↔
      ∀ k ∈ hatKeys p, ∀ k' ∈ hatKeys p, List.Forall₂ NamedAlike k.toList k'.toList → k = k' := by
  rw [Flat.generate_ok_iff, Flat.keys_eq_hatKeys]
  refine forall₂_congr fun k hk => forall₂_congr fun k' hk' => ?_
  rw [callbackName_eq_iff, topicKey_of_mem_hatKeys hk, topicKey_of_mem_hatKeys hk']

end Generation
end BoardBlocks
