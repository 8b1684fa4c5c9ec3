/-
# Blocks that nothing is recorded for

What a block has to have can be said without looking at how it is translated:

| block | well formed if |
| --- | --- |
| connecting | it has `SERVER` and `CLIENTID`; `USER` and `PASS` may be left out |
| joining a network | it has `AP` and `PASS` |
| publishing | it has `TOPIC` and `DATA` |
| subscribing | it has `TOPIC` |
| a hat | its `TOPIC` is a literal that is not blank without its quotes |
| serving the serial line | the target is MicroPython |
| source text of its own | the text is there, with an argument for each of its placeholders |
| a reporter | never, for it is no statement |

An argument that is read has to be a literal or a reporter, and an expression in its place needs
source text and arguments for its placeholders in turn.  An argument that is not read may be
anything.

Nothing is recorded for a well-formed block, and something is for every other one.  A hat with an
invalid topic hides the blocks below it, but it is not well formed itself.  So a generation records
nothing exactly if all blocks of the program are well formed (`diagnostics_eq_nil_iff`).
-/

import BoardBlocks.Proofs.CollidingTopics
import BoardBlocks.Proofs.TargetAgreement

namespace BoardBlocks

/-! ### What a block has to have -/

/-- An argument that has a value: a literal, the data of a topic, or an expression with source text
and such arguments for its placeholders. -/
inductive Arg.WellFormed : Arg → Prop where
  | text (content : String) : WellFormed (.text content)
  | number (value : Float) : WellFormed (.number value)
  | topicData {b : Block} (hop : b.opcode = .topicData) : WellFormed (.block b)
  | expr {b : Block} {template : String} (hop : b.opcode = .expr) (htext : b.text = some template)
      (hpresent : ∀ name ∈ Snippet.slots template, (b.arg? name).isSome)
      (hsound : ∀ name ∈ Snippet.slots template, ∀ arg, b.arg? name = some arg → WellFormed arg) :
      WellFormed (.block b)

namespace Block

/-- A block has values for the arguments that it needs, and for those that it may leave out and does
not. -/
structure Supplies (b : Block) (needed optional : List String) : Prop where
  needed : ∀ name ∈ needed, ∃ arg, b.arg? name = some arg ∧ arg.WellFormed
  optional : ∀ name ∈ optional, ∀ arg, b.arg? name = some arg → arg.WellFormed

/-- A block has source text and values for the placeholders in it. -/
def SuppliesText (b : Block) : Prop :=
  ∃ template, b.text = some template ∧ b.Supplies (Snippet.slots template) []

/-- A block of a chain has all that its translation needs. -/
def WellFormed (target : Target) (b : Block) : Prop :=
  match b.opcode with
  | .connect | .connectCloud => b.Supplies ["SERVER", "CLIENTID"] ["USER", "PASS"]
  | .joinNetwork => b.Supplies ["AP", "PASS"] []
  | .publish => b.Supplies ["TOPIC", "DATA"] []
  | .subscribe => b.Supplies ["TOPIC"] []
  | .onTopic => ∃ topic, b.literal? "TOPIC" = some topic ∧ Text.blank (topicKey topic) = false
  | .serialWork => target = .microPython
  | .code => b.SuppliesText
  | .topicData | .expr => False

end Block

/-- A nested block has a value if it is a reporter and, if it is an expression, has source text and
values for its placeholders. -/
theorem Arg.wellFormed_block_iff {b : Block} : (Arg.block b).WellFormed ↔
    b.opcode = .topicData ∨ b.opcode = .expr ∧ b.SuppliesText := by
  constructor
  · intro h
    cases h with
    | topicData hop => exact .inl hop
    | expr hop htext hpresent hsound =>
      refine .inr ⟨hop, _, htext, fun name hname => ?_, fun name hname => nomatch hname⟩
      obtain ⟨arg, harg⟩ := Option.isSome_iff_exists.1 (hpresent name hname)
      exact ⟨arg, harg, hsound name hname arg harg⟩
  · rintro (hop | ⟨hop, template, htext, hneeded, -⟩)
    · exact .topicData hop
    · refine .expr hop htext (fun name hname => ?_) fun name hname arg harg => ?_
      · obtain ⟨arg, harg, -⟩ := hneeded name hname
        exact Option.isSome_iff_exists.2 ⟨arg, harg⟩
      · obtain ⟨arg', harg', hwell⟩ := hneeded name hname
        rw [harg] at harg'
        exact Option.some.inj harg' ▸ hwell

namespace Generation

/-! ### Arguments without problems -/

section Arguments

variable {args : List (String × Arg)}
  (hargs : ∀ p ∈ args, argProblems p.2 = [] ↔ p.2.WellFormed)
include hargs

/-- A required argument has no problem exactly if it is there and well-formed. -/
theorem requiredProblems_eq_nil_iff (opcode : Opcode) (name : String) :
    requiredProblems opcode (argsProblems args) name = [] ↔
      ∃ arg, Keyed.get? name args = some arg ∧ arg.WellFormed := by
  rw [requiredProblems, get?_argsProblems]
  cases hget : Keyed.get? name args with
  | none => simp
  | some arg => simpa using hargs _ (Keyed.mem_of_get?_eq_some hget)

/-- An optional argument has no problem exactly if it is left out or well-formed. -/
theorem optionalProblems_eq_nil_iff (name : String) :
    optionalProblems (argsProblems args) name = [] ↔
      ∀ arg, Keyed.get? name args = some arg → arg.WellFormed := by
  rw [optionalProblems, get?_argsProblems]
  cases hget : Keyed.get? name args with
  | none => simp
  | some arg => simpa using hargs _ (Keyed.mem_of_get?_eq_some hget)

/-- A template records nothing if there is one and each of its placeholders has a value. -/
theorem templateProblems_eq_nil_iff (opcode : Opcode) (text : Option String) :
    templateProblems opcode (argsProblems args) text = [] ↔
      Block.SuppliesText ⟨opcode, args, text⟩ := by
  cases text with
  | none => simp [templateProblems, Block.SuppliesText]
  | some template =>
    rw [templateProblems, List.flatMap_eq_nil_iff]
    constructor
    · intro h
      refine ⟨template, rfl, fun name hname => ?_, fun name hname => ?_⟩
      · exact (requiredProblems_eq_nil_iff hargs opcode name).1 (h name hname)
      · exact absurd hname List.not_mem_nil
    · rintro ⟨_, ⟨⟩, hneeded, -⟩ name hname
      exact (requiredProblems_eq_nil_iff hargs opcode name).2 (hneeded name hname)

/-- A reporter has no problem exactly if it is a well-formed value. -/
theorem reporterProblems_eq_nil_iff (opcode : Opcode) (text : Option String) :
    reporterProblems opcode (argsProblems args) text = [] ↔
      (Arg.block ⟨opcode, args, text⟩).WellFormed := by
  rw [Arg.wellFormed_block_iff]
  cases opcode
  case topicData => simp [reporterProblems]
  case expr => simpa [reporterProblems] using templateProblems_eq_nil_iff hargs .expr text
  all_goals simp [reporterProblems]

end Arguments

mutual
/-- **An argument records nothing exactly if it has a value.** -/
theorem argProblems_eq_nil_iff : ∀ a : Arg, argProblems a = [] ↔ a.WellFormed
  | .text content => iff_of_true rfl (.text content)
  | .number n => iff_of_true rfl (.number n)
  | .block b => valueProblems_eq_nil_iff b
termination_by structural a => a

/-- A block in a value position has no problem exactly if it is well-formed, however deep it is. -/
theorem valueProblems_eq_nil_iff : ∀ b : Block, valueProblems b = [] ↔ (Arg.block b).WellFormed
  | ⟨opcode, args, text⟩ => reporterProblems_eq_nil_iff (argsProblems_eq_nil_iff args) opcode text
termination_by structural b => b

/-- The arguments of a block have no problems exactly if they are well-formed, each by itself. -/
theorem argsProblems_eq_nil_iff : ∀ args : List (String × Arg), ∀ p ∈ args,
    argProblems p.2 = [] ↔ p.2.WellFormed
  | [], _, hp => nomatch hp
  | (_, arg) :: args, p, hp => by
    rcases List.mem_cons.1 hp with rfl | hp
    · exact argProblems_eq_nil_iff arg
    · exact argsProblems_eq_nil_iff args p hp
termination_by structural args => args
end

/-! ### Blocks without problems -/

/-- A block supplies its arguments exactly if none of them has a problem. -/
theorem supplies_iff (b : Block) (needed optional : List String) : b.Supplies needed optional ↔
    (∀ name ∈ needed, requiredProblems b.opcode (argsProblems b.args) name = []) ∧
      ∀ name ∈ optional, optionalProblems (argsProblems b.args) name = [] := by
  have hargs := argsProblems_eq_nil_iff b.args
  simp only [requiredProblems_eq_nil_iff hargs, optionalProblems_eq_nil_iff hargs]
  exact ⟨fun h => ⟨h.needed, h.optional⟩, fun h => ⟨h.1, h.2⟩⟩

/-- A hat has a key exactly if its topic is a literal that is not blank without its quotes. -/
theorem isSome_hatKey?_iff (b : Block) : (hatKey? b).isSome ↔
    ∃ topic, b.literal? "TOPIC" = some topic ∧ Text.blank (topicKey topic) = false := by
  unfold hatKey?
  cases b.literal? "TOPIC" with
  | none => simp
  | some topic => cases hblank : Text.blank (topicKey topic) <;> simp [hblank]

/-- A hat can read its topic exactly if it has a key. -/
theorem hatTopic_isOk_iff (b : Block) : (∃ topic, hatTopic b = .ok topic) ↔
    (hatKey? b).isSome := by
  rw [Flat.hatKey?_eq]
  cases hatTopic b <;> simp [Except.toOption]

/-- **A block of a chain records nothing exactly if it is well formed.** -/
theorem blockProblems_eq_nil_iff (target : Target) (b : Block) :
    blockProblems target b = [] ↔ b.WellFormed target := by
  have htext : templateProblems b.opcode (argsProblems b.args) b.text = [] ↔ b.SuppliesText := by
    obtain ⟨opcode, args, text⟩ := b
    exact templateProblems_eq_nil_iff (argsProblems_eq_nil_iff args) opcode text
  unfold blockProblems Block.WellFormed
  cases hop : b.opcode <;> simp only
  case connect | connectCloud => simp [supplies_iff, hop, and_assoc]
  case joinNetwork | publish | subscribe => simp [supplies_iff, hop]
  case onTopic =>
    rw [← isSome_hatKey?_iff, ← hatTopic_isOk_iff]
    cases hatTopic b <;> simp
  case serialWork => cases target <;> simp
  case code => exact hop ▸ htext
  case topicData | expr => simp

/-- Whether a block is well formed can be told from the problems of its tree. -/
instance (target : Target) (b : Block) : Decidable (b.WellFormed target) :=
  decidable_of_iff _ (blockProblems_eq_nil_iff target b)

/-! ### Programs without diagnostics -/

/-- A hat that ends the reading of its chain is not well formed. -/
theorem not_wellFormed_of_endsChain {b : Block} (h : Flat.endsChain b = true) (target : Target) :
    ¬ b.WellFormed target := by
  obtain ⟨hhat, htopic⟩ : Flat.isHat b = true ∧ Flat.hasTopic b = false := by
    simpa [Flat.endsChain] using h
  obtain ⟨e, he, -⟩ := Flat.hatTopic_error htopic
  rw [← blockProblems_eq_nil_iff]
  simp [blockProblems, Flat.opcode_of_isHat hhat, he]

/-- The blocks below such a hat are not looked at, and need not be. -/
theorem forall_mem_visited_iff (target : Target) (bs : List Block) :
    (∀ b ∈ Flat.visited bs, b.WellFormed target) ↔ ∀ b ∈ bs, b.WellFormed target := by
  induction bs with
  | nil => rfl
  | cons b bs ih =>
    cases hend : Flat.endsChain b with
    | false => rw [Flat.visited_cons hend, List.forall_mem_cons, List.forall_mem_cons, ih]
    | true =>
      have hb := not_wellFormed_of_endsChain hend target
      rw [Flat.visited_cons_invalid hend, List.forall_mem_cons, List.forall_mem_cons]
      exact iff_of_false (fun h => hb h.1) fun h => hb h.1

/-- **A generation records nothing exactly if every block of the program is well formed.** -/
theorem diagnostics_eq_nil_iff {target : Target} {settings : CodeSettings} {p : Program}
    {g : Generated} (h : generate target settings p = .ok g) :
    g.diagnostics = [] ↔ ∀ s ∈ p.scripts, ∀ b ∈ s.blocks, b.WellFormed target := by
  obtain ⟨rfl, -⟩ := Flat.generate_ok h
  have hproblems : ∀ bs : List Block,
      (Flat.visited bs).flatMap (Flat.problemsOf (target.dialect settings)) = [] ↔
        ∀ b ∈ bs, b.WellFormed target := by
    intro bs
    rw [List.flatMap_eq_nil_iff, ← forall_mem_visited_iff]
    simp only [problemsOf_eq, blockProblems_eq_nil_iff]
  simp only [Flat.generated, List.flatMap_eq_nil_iff, hproblems]

/-- A program with a hat whose body reads the data of the topic through an expression, and a block
that serves the serial line.  The expression has an argument that it does not read. -/
def readingTopic : Program :=
  let connect : Block := { opcode := .connect }
  let topicData : Block := { opcode := .topicData }
  let reading : Block := {
    opcode := .expr
    args := [("A", .block topicData), ("B", .block connect)]
    text := some "f([A])" }
  ⟨[⟨.setup, [{ opcode := .onTopic, args := [("TOPIC", .text "/t")] },
      { opcode := .code, args := [("V", .block reading)], text := some "print([V])" }]⟩,
    ⟨.loop, [{ opcode := .serialWork }]⟩]⟩

/-- Nothing is recorded for it on MicroPython, but the serial line is on Arduino. -/
theorem diagnostics_eq_nil_iff_readingTopic :
    (∃ g, generate .microPython {} readingTopic = .ok g ∧ g.diagnostics = []) ∧
      ∃ g, generate .arduino {} readingTopic = .ok g ∧ g.diagnostics ≠ [] := by
  obtain ⟨m, hm⟩ : ∃ g, generate .microPython {} readingTopic = .ok g :=
    Flat.exists_generated (by decide +kernel)
  obtain ⟨a, ha⟩ : ∃ g, generate .arduino {} readingTopic = .ok g :=
    Flat.exists_generated (by decide +kernel)
  refine ⟨⟨m, hm, (diagnostics_eq_nil_iff hm).2 (by decide +kernel)⟩, a, ha, fun hnil => ?_⟩
  exact absurd ((diagnostics_eq_nil_iff ha).1 hnil) (by decide +kernel)

end Generation
end BoardBlocks
