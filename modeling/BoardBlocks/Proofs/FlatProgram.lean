/-
# The flat reading of a program

A chain of blocks falls apart at its hats: the blocks before the first hat, and each hat with the
blocks up to the next one.  Read that way a generation has no recursion over hats.

| part | what it gives |
| --- | --- |
| blocks before the first hat | statements of the script's stage |
| a hat before the first one with an invalid topic | a routine, from the blocks up to the next hat |
| the first hat with an invalid topic | its diagnostic |
| everything after it | nothing |

A single block is translated on its own, in an empty context.  The fragments of the hats of a chain
are stored from the last hat to the first, after those of all its blocks, and a fragment replaces an
earlier one with its key.
-/

import BoardBlocks.Generation.Program
import BoardBlocks.Proofs.BlockEffects
import BoardBlocks.Proofs.CallbackTable
import BoardBlocks.Proofs.SketchViews
import Mathlib.Data.List.Infix

namespace BoardBlocks
namespace Generation
namespace Flat

/-! ### Cutting a chain at its hats -/

/-- Whether a block is a hat. -/
def isHat (b : Block) : Bool :=
  b.opcode.shape = .hat

/-- The blocks before the first hat. -/
def leading (bs : List Block) : List Block :=
  bs.takeWhile fun b => !isHat b

/-- A hat with the blocks strictly between it and the next hat. -/
structure Hat where
  block : Block
  body : List Block

/-- The hats of a chain, in order. -/
def hats (bs : List Block) : List Hat :=
  bs.tails.filterMap fun
    | [] => none
    | b :: rest => if isHat b then some ⟨b, leading rest⟩ else none

/-- Whether a hat has a valid topic. -/
def hasTopic (b : Block) : Bool :=
  (hatTopic b).toOption.isSome

/-- The hats before the first one with an invalid topic. -/
def reached (bs : List Block) : List Hat :=
  (hats bs).takeWhile fun h => hasTopic h.block

/-- Whether a block is a hat with an invalid topic. -/
def endsChain (b : Block) : Bool :=
  isHat b && !hasTopic b

/-- The blocks of a chain, in order, up to and including the first hat with an invalid topic. -/
def visited (bs : List Block) : List Block :=
  bs.takeWhile (fun b => !endsChain b) ++ (bs.find? endsChain).toList

/-- The blocks of a program that are visited, script after script. -/
def visitedBlocks (p : Program) : List Block :=
  p.scripts.flatMap fun s => visited s.blocks

/-! ### Blocks on their own -/

/-- What the translation of one block gives in an empty context. -/
def translation (d : Dialect) (b : Block) : Except GenerationError String × Context :=
  runGen (command d b []) (.start d.target)

/-- The code of a block; empty if its translation fails. -/
def codeOf (d : Dialect) (b : Block) : String :=
  (translation d b).1.toOption.getD ""

/-- The diagnostics of a block: those recorded while it was translated, then its own failure. -/
def problemsOf (d : Dialect) (b : Block) : List Diagnostic :=
  (translation d b).2.diagnostics ++
    match (translation d b).1 with
    | .ok _ => []
    | .error e => [⟨b.opcode, e⟩]

/-- The code of the commands among blocks, in order. -/
def statementsOf (d : Dialect) (bs : List Block) : List String :=
  (bs.filter fun b => b.opcode.shape = .command).map (codeOf d)

namespace Hat

/-- The topic of a hat, as it was written. -/
def topic (h : Hat) : String :=
  (hatTopic h.block).toOption.getD ""

/-- The topic of a hat without quotes. -/
def key (h : Hat) : String :=
  topicKey h.topic

/-- The name of the routine of a hat. -/
def name (h : Hat) : String :=
  callbackName h.key

/-- The fragment that binds the topic of a hat to its routine. -/
def registration (d : Dialect) (h : Hat) : Contribution :=
  ⟨.setup, h.name, d.registration h.topic h.name⟩

/-- The routine of a hat: the translations of its body, in order. -/
def routine (d : Dialect) (h : Hat) : Contribution :=
  ⟨.functions, h.name, d.routine h.name (statementsOf d h.body)⟩

end Hat

/-! ### Whole programs -/

/-- The fragments that a chain stores, in order. -/
def contributions (d : Dialect) (bs : List Block) : List Contribution :=
  (leading bs).flatMap (contributionsOf d) ++
    ((reached bs).flatMap fun h => d.boilerplate ++ h.body.flatMap (contributionsOf d)) ++
    (reached bs).reverse.flatMap fun h => [h.registration d, h.routine d]

/-- The topics of the hats of a program, without quotes, in order and with repetitions. -/
def keys (p : Program) : List String :=
  p.scripts.flatMap fun s => (reached s.blocks).map Hat.key

/-- The keyed fragments of a section. -/
def entries (d : Dialect) (p : Program) (x : Section) : List (String × String) :=
  Keyed.putAll (Sketch.partOf x (p.scripts.flatMap fun s => contributions d s.blocks)) []

/-- The statements of a stage: those that stand before the first hat of its scripts. -/
def body (d : Dialect) (p : Program) (stage : Stage) : List String :=
  (p.scripts.filter fun s => s.stage = stage).flatMap fun s =>
    Snippet.statements d.target (statementsOf d (leading s.blocks))

/-- The sketch of a program. -/
def sketch (d : Dialect) (p : Program) : Sketch where
  target := d.target
  headers := entries d p .headers
  definitions := entries d p .definitions
  setup := entries d p .setup
  loop := entries d p .loop
  functions := entries d p .functions
  setupBody := body d p .setup
  loopBody := body d p .loop

/-- The fragments of a section of the flat sketch are those of the flat reading. -/
theorem entries_sketch (d : Dialect) (p : Program) (x : Section) :
    (sketch d p).entries x = entries d p x := by
  cases x <;> rfl

/-- The statements of a stage of the flat sketch are those of the flat reading. -/
theorem body_sketch (d : Dialect) (p : Program) (stage : Stage) :
    (sketch d p).body stage = body d p stage := by
  cases stage <;> rfl

/-- What a generation gives for a program, if no two of its topics share a routine. -/
def generated (d : Dialect) (p : Program) : Generated where
  source := (sketch d p).render
  callbacks := Callbacks.bindingsOf (keys p).eraseDups
  diagnostics := p.scripts.flatMap fun s => (visited s.blocks).flatMap (problemsOf d)

/-- The hat whose routine is kept for a topic: of the last script with a hat on it, the first such
hat. -/
def kept? (p : Program) (key : String) : Option Hat :=
  p.scripts.reverse.findSome? fun s => (reached s.blocks).find? fun h => h.key = key

/-! ### A block more at the front -/

theorem leading_cons {b : Block} (h : isHat b = false) (bs : List Block) :
    leading (b :: bs) = b :: leading bs := by
  simp [leading, h]

theorem leading_cons_hat {b : Block} (h : isHat b = true) (bs : List Block) :
    leading (b :: bs) = [] := by
  simp [leading, h]

/-- A block that is no hat does not change which hats are reached. -/
theorem reached_cons {b : Block} (h : isHat b = false) (bs : List Block) :
    reached (b :: bs) = reached bs := by
  simp [reached, hats, h]

/-- A hat with a valid topic is reached, with the blocks up to the next hat for its body. -/
theorem reached_cons_hat {b : Block} (h : isHat b = true) (ht : hasTopic b = true)
    (bs : List Block) : reached (b :: bs) = ⟨b, leading bs⟩ :: reached bs := by
  simp [reached, hats, h, ht]

/-- Behind a hat with an invalid topic no hat is reached. -/
theorem reached_cons_invalid {b : Block} (h : isHat b = true) (ht : hasTopic b = false)
    (bs : List Block) : reached (b :: bs) = [] := by
  simp [reached, hats, h, ht]

/-- A block that does not end the chain is visited, and so is what follows. -/
theorem visited_cons {b : Block} (h : endsChain b = false) (bs : List Block) :
    visited (b :: bs) = b :: visited bs := by
  simp [visited, h]

/-- A block that ends the chain is the last one visited. -/
theorem visited_cons_invalid {b : Block} (h : endsChain b = true) (bs : List Block) :
    visited (b :: bs) = [b] := by
  simp [visited, h]

/-- Induction on a chain by what its first block is: no hat, a hat with a valid topic, or a hat with
an invalid one, after which nothing is read. -/
@[elab_as_elim]
theorem chain_induction {motive : List Block → Prop} (nil : motive [])
    (plain : ∀ b bs, isHat b = false → endsChain b = false → motive bs → motive (b :: bs))
    (hat : ∀ b bs, isHat b = true → hasTopic b = true → endsChain b = false → motive bs →
      motive (b :: bs))
    (invalid : ∀ b bs, isHat b = true → hasTopic b = false → endsChain b = true → motive (b :: bs))
    (bs : List Block) : motive bs := by
  induction bs with
  | nil => exact nil
  | cons b bs ih =>
    cases h : isHat b with
    | false => exact plain b bs h (by simp [endsChain, h]) ih
    | true =>
      cases ht : hasTopic b with
      | true => exact hat b bs h ht (by simp [endsChain, ht]) ih
      | false => exact invalid b bs h ht (by simp [endsChain, h, ht])

/-- A block is visited unless a hat with an invalid topic comes before it. -/
theorem mem_visited_iff {b : Block} {bs : List Block} : b ∈ visited bs ↔
    ∃ before after, bs = before ++ b :: after ∧ ∀ b' ∈ before, endsChain b' = false := by
  induction bs with
  | nil => simp [visited]
  | cons a bs ih =>
    constructor
    · intro hmem
      cases hend : endsChain a with
      | true =>
        rw [visited_cons_invalid hend, List.mem_singleton] at hmem
        exact ⟨[], bs, hmem ▸ rfl, fun _ h => nomatch h⟩
      | false =>
        rw [visited_cons hend] at hmem
        rcases List.mem_cons.1 hmem with rfl | hmem
        · exact ⟨[], bs, rfl, fun _ h => nomatch h⟩
        · obtain ⟨before, after, rfl, hbefore⟩ := ih.1 hmem
          exact ⟨a :: before, after, rfl, List.forall_mem_cons.2 ⟨hend, hbefore⟩⟩
    · rintro ⟨before, after, hbs, hbefore⟩
      cases before with
      | nil =>
        obtain ⟨rfl, rfl⟩ := List.cons.inj hbs
        cases hend : endsChain a with
        | true => simp [visited_cons_invalid hend]
        | false => simp [visited_cons hend]
      | cons a' before =>
        obtain ⟨rfl, rfl⟩ := List.cons.inj hbs
        obtain ⟨hend, hbefore⟩ := List.forall_mem_cons.1 hbefore
        rw [visited_cons hend]
        exact List.mem_cons_of_mem _ (ih.2 ⟨before, after, rfl, hbefore⟩)

end Flat
end Generation
end BoardBlocks
