/-
# Hats inside the host

A hat is read in two places.  A generation registers its topic, and while the program runs inside
the host the hat is asked whether it starts on a topic that was received.

| topic of the hat | in a generation | inside the host |
| --- | --- | --- |
| a text or a number | bound without its quotes, unless that is blank | starts on it without its quotes |
| a nested block, or none | not bound, and nothing below is read | starts on nothing |

The two agree on every topic that is not blank, as long as the hat is reached: a topic has a
callback exactly if some reached hat starts on it (`callbacks_match_iff`).
-/

import BoardBlocks.Link.Blocks
import BoardBlocks.Proofs.CollidingTopics

namespace BoardBlocks
namespace Generation

/-- A hat of a chain is reached if no hat above it has an invalid topic. -/
structure IsReached (bs : List Block) (b : Block) : Prop where
  hat : b.opcode = .onTopic
  exists_above : ∃ above below, bs = above ++ b :: below ∧
    ∀ b' ∈ above, b'.opcode = .onTopic → ∃ topic, hatTopic b' = .ok topic

namespace Flat

/-- A topic is valid exactly if the hat can read one. -/
theorem hasTopic_iff (b : Block) : hasTopic b = true ↔ ∃ topic, hatTopic b = .ok topic := by
  unfold hasTopic
  cases hatTopic b <;> simp [Except.toOption]

/-- A block goes on with the chain unless it is a hat that cannot read its topic. -/
theorem endsChain_eq_false_iff (b : Block) : endsChain b = false ↔
    (b.opcode = .onTopic → ∃ topic, hatTopic b = .ok topic) := by
  rw [← hasTopic_iff, endsChain, isHat_eq]
  by_cases hop : b.opcode = .onTopic <;> simp [hop]

/-- The reached hats of a chain are the hats among its visited blocks. -/
theorem isReached_iff {bs : List Block} {b : Block} :
    IsReached bs b ↔ b ∈ visited bs ∧ isHat b = true := by
  simp only [mem_visited_iff, endsChain_eq_false_iff, isHat_eq, decide_eq_true_eq]
  exact ⟨fun h => ⟨h.exists_above, h.hat⟩, fun h => ⟨h.2, h.1⟩⟩

/-- **The keys of a chain are those of its reached hats.** -/
theorem mem_chainKeys_iff {bs : List Block} {key : String} : key ∈ chainKeys bs ↔
    ∃ b ∈ visited bs, isHat b = true ∧ hatKey? b = some key := by
  induction bs using chain_induction with
  | nil => simp [chainKeys, visited]
  | plain b bs h hend ih =>
    rw [chainKeys_cons h, visited_cons hend, ih]
    simp [h]
  | hat b bs h ht hend ih =>
    have hkey := hatKey?_of_hasTopic ht []
    rw [chainKeys_cons_hat h hkey, visited_cons hend, List.mem_cons, ih, List.exists_mem_cons_iff,
      hkey, Option.some.injEq, and_iff_right h, eq_comm]
  | invalid b bs h ht hend =>
    have hkey := hatKey?_of_not_hasTopic ht
    rw [chainKeys_cons_invalid h hkey, visited_cons_invalid hend]
    simp [hkey]

end Flat

/-- **A hat starts inside the host on its key**, and on nothing else that is not blank. -/
theorem hatMatches_iff {b : Block} {received : String} (h : Text.blank received = false) :
    Link.hatMatches (.ofBlock b) received = true ↔ hatKey? b = some received := by
  unfold Link.hatMatches Link.Arguments.ofBlock hatKey?
  cases b.literal? "TOPIC" with
  | none => simp
  | some topic =>
    rw [Option.map_some, Option.filter_some, Option.any_some, decide_eq_true_eq]
    constructor
    · rintro rfl
      simp [h]
    · intro hkey
      split at hkey
      · exact Option.some.inj hkey
      · exact nomatch hkey

/-- **A topic has a callback exactly if a hat starts on it inside the host.** -/
theorem callbacks_match_iff {target : Target} {settings : CodeSettings} {p : Program}
    {g : Generated} (h : generate target settings p = .ok g) {received : String}
    (hreceived : Text.blank received = false) : (∃ b ∈ g.callbacks, b.topic = received) ↔
      ∃ s ∈ p.scripts, ∃ b, IsReached s.blocks b ∧
        Link.hatMatches (.ofBlock b) received = true := by
  have hcallbacks : g.callbacks = Callbacks.bindingsOf (hatKeys p).eraseDups := by
    rw [(Flat.generate_ok h).1, ← Flat.keys_eq_hatKeys]
    rfl
  have hbound : (∃ b ∈ g.callbacks, b.topic = received) ↔ received ∈ hatKeys p := by
    simp [hcallbacks, Callbacks.bindingsOf]
  simp only [hbound, hatKeys, List.mem_flatMap, Flat.mem_chainKeys_iff, Flat.isReached_iff,
    hatMatches_iff hreceived, and_assoc]

/-- A program whose second script has a hat on a topic that is blank without its quotes. -/
def blankTopic : Program :=
  let onTopic (topic : String) : Block := { opcode := .onTopic, args := [("TOPIC", .text topic)] }
  ⟨[⟨.setup, [onTopic "/a"]⟩, ⟨.setup, [onTopic "'/t'", onTopic "\"\"", onTopic "/u"]⟩]⟩

/-- The hat above it starts on its topic, the hat below it is not reached. -/
theorem callbacks_match_iff_blankTopic : ∃ g, generate .arduino {} blankTopic = .ok g ∧
    g.callbacks = [⟨"/a", "GOT_a"⟩, ⟨"/t", "GOT_t"⟩] ∧
    (∃ s ∈ blankTopic.scripts, ∃ b, IsReached s.blocks b ∧
      Link.hatMatches (.ofBlock b) "/t" = true) ∧
    ¬ ∃ s ∈ blankTopic.scripts, ∃ b, IsReached s.blocks b ∧
      Link.hatMatches (.ofBlock b) "/u" = true := by
  obtain ⟨g, h⟩ : ∃ g, generate .arduino {} blankTopic = .ok g :=
    Flat.exists_generated (by decide +kernel)
  have hcallbacks : g.callbacks = [⟨"/a", "GOT_a"⟩, ⟨"/t", "GOT_t"⟩] := by
    rw [(Flat.generate_ok h).1]
    decide +kernel
  have hreached : Text.blank "/t" = false := by decide +kernel
  have hbelow : Text.blank "/u" = false := by decide +kernel
  rw [← callbacks_match_iff h hreached, ← callbacks_match_iff h hbelow, hcallbacks]
  exact ⟨g, h, hcallbacks, by decide, by decide⟩

end Generation
end BoardBlocks
