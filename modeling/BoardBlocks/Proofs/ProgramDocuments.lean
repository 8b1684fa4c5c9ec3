/-
# Program documents read back

A program that is written as a document is read back as that program, whatever its texts hold and
however its blocks nest.  Three things are asked of it.

* Its blocks are ordered (`Program.Ordered`): that is what a block is, and what comes from reading.
* Each of its numbers reads back from the numeral that it is written as (`Json.Survives`).  Not
  every number does: one that is not finite has no numeral, and reading rounds more than once.
* The document nests no deeper than `nestingLimit`.
-/

import BoardBlocks.Proofs.JsonRecords
import BoardBlocks.Proofs.OrderedArguments

namespace BoardBlocks

/-! ### What is asked of a program -/

/-- A number that reads back from the numeral it is written as. -/
def Json.Survives (value : Float) : Prop :=
  (Json.ofFloat value).float? = some value

instance (value : Float) : Decidable (Json.Survives value) :=
  inferInstanceAs (Decidable (_ = _))

mutual
/-- The numbers in an argument. -/
def Arg.numbers : Arg → List Float
  | .number value => [value]
  | .text _ => []
  | .block inner => inner.numbers
termination_by structural a => a
/-- The numbers in a block. -/
def Block.numbers : Block → List Float
  | ⟨_, args, _⟩ => argNumbers args
termination_by structural b => b
/-- The numbers in the arguments of a block. -/
def argNumbers : List (String × Arg) → List Float
  | [] => []
  | (_, arg) :: args => arg.numbers ++ argNumbers args
termination_by structural args => args
end

/-- The numbers in a program. -/
def Program.numbers (p : Program) : List Float :=
  p.blocks.flatMap Block.numbers

/-! ### Arguments one by one -/

theorem mem_argNumbers {value : Float} {args : List (String × Arg)} :
    value ∈ argNumbers args ↔ ∃ m ∈ args, value ∈ m.2.numbers := by
  induction args with
  | nil => simp [argNumbers]
  | cons m args ih =>
    obtain ⟨name, arg⟩ := m
    simp [argNumbers, ih]

theorem argsToJson_eq (args : List (String × Arg)) :
    argsToJson args = args.map fun m => (m.1, m.2.toJson) := by
  induction args with
  | nil => rfl
  | cons m args ih =>
    obtain ⟨name, arg⟩ := m
    rw [argsToJson, ih, List.map_cons]

mutual
/-- A property of arguments holds of a block as an argument if it holds of the arguments of the
block. -/
@[elab_as_elim]
theorem Arg.induction {motive : Arg → Prop} (number : ∀ value, motive (.number value))
    (text : ∀ content, motive (.text content))
    (block : ∀ inner : Block, (∀ m ∈ inner.args, motive m.2) → motive (.block inner)) :
    (a : Arg) → motive a
  | .number value => number value
  | .text content => text content
  | .block ⟨opcode, args, content⟩ =>
    block ⟨opcode, args, content⟩ (Arg.args_induction number text block args)
termination_by structural a => a
theorem Arg.args_induction {motive : Arg → Prop} (number : ∀ value, motive (.number value))
    (text : ∀ content, motive (.text content))
    (block : ∀ inner : Block, (∀ m ∈ inner.args, motive m.2) → motive (.block inner)) :
    (args : List (String × Arg)) → ∀ m ∈ args, motive m.2
  | [] => by simp
  | (name, arg) :: args => List.forall_mem_cons.2
    ⟨Arg.induction number text block arg, Arg.args_induction number text block args⟩
termination_by structural args => args
end

namespace Json

/-- What a number that survives is written as. -/
theorem Survives.exists_numeral {value : Float} (h : Survives value) : ∃ written n,
    ofFloat value = .number written ∧ Decimal.Numeral.ofString? written = some n ∧
      n.toFloat? = some value := by
  unfold Survives at h
  cases hwritten : Decimal.document? value with
  | none =>
    have hnull : ofFloat value = .null := by rw [ofFloat, hwritten]
    rw [hnull] at h
    exact absurd h (by simp [float?])
  | some written =>
    have hnumber : ofFloat value = .number written := by rw [ofFloat, hwritten]
    rw [hnumber] at h
    obtain ⟨n, hn, hvalue⟩ := Option.bind_eq_some_iff.1 h
    exact ⟨written, n, hnumber, hn, hvalue⟩

end Json

/-! ### Blocks -/

namespace Block

variable {b : Block}

/-- The fields that the document of a block states. -/
def fields (b : Block) : List (String × Json) :=
  [("opcode", Json.ofString b.opcode.name),
    ("args", Json.ofFields (b.args.map fun m => (m.1, m.2.toJson)))] ++
      (b.text.map fun content => ("text", Json.ofString content)).toList

theorem toJson_eq (b : Block) : b.toJson = Json.ofFields b.fields := by
  obtain ⟨opcode, args, text⟩ := b
  simp only [Block.toJson, argsToJson_eq, fields]
  cases text <;> rfl

/-- What holds of texts and of the arguments holds of all fields. -/
theorem forall_mem_fields {P : Json → Prop} (hstring : ∀ s, P (Json.ofString s)) :
    (∀ f ∈ b.fields, P f.2) ↔
      P (Json.ofFields (b.args.map fun m => (m.1, m.2.toJson))) := by
  obtain ⟨opcode, args, text⟩ := b
  cases text <;> simp [fields, hstring]

/-- The numbers in a block are those in its arguments. -/
theorem forall_mem_numbers {P : Float → Prop} :
    (∀ v ∈ b.numbers, P v) ↔ ∀ m ∈ b.args, ∀ v ∈ m.2.numbers, P v := by
  have hnumbers : b.numbers = argNumbers b.args := by
    cases b
    rfl
  simp only [hnumbers, mem_argNumbers]
  constructor
  · intro h m hm v hv
    exact h v ⟨m, hm, hv⟩
  · rintro h v ⟨m, hm, hv⟩
    exact h m hm v hv

/-- Two levels of a block stand around its arguments. -/
theorem depth_toJson_le {n : Nat} :
    b.toJson.depth ≤ n + 2 ↔ ∀ m ∈ b.args, m.2.toJson.depth ≤ n := by
  rw [toJson_eq, Json.depth_ofFields_le,
    forall_mem_fields (P := fun j => j.depth ≤ n + 1) fun s => Nat.zero_le _]
  rw [Json.depth_ofFields_le, List.forall_mem_map]

/-- A block takes two levels: its own and that of its arguments. -/
theorem two_le_depth_toJson (b : Block) : 2 ≤ b.toJson.depth := by
  by_contra hshallow
  have hone : b.toJson.depth ≤ 0 + 1 := by omega
  rw [toJson_eq, Json.depth_ofFields_le,
    forall_mem_fields (P := fun j => j.depth ≤ 0) fun s => Nat.zero_le _] at hone
  exact Nat.not_succ_le_zero _ hone

/-- A block is read back if its arguments are. -/
theorem ofJsonWith?_toJson {arg : Json → Option Arg}
    (hsorted : Keyed.Sorted b.args)
    (hargs : ∀ m ∈ b.args, arg m.2.toJson = some m.2) :
    ofJsonWith? arg b.toJson = some b := by
  have hread : argsOfJson? arg (Json.ofFields (b.args.map fun m => (m.1, m.2.toJson))) =
      some b.args := by
    have hmembers : (b.args.map fun m => (m.1, m.2.toJson)).mapM
        (fun m => do return (m.1, ← arg m.2)) = some b.args :=
      Json.mapM_map_eq fun m hm => by simp [hargs m hm]
    rw [argsOfJson?, Json.members?_ofFields, Option.bind_eq_bind, Option.bind_some, hmembers]
    exact congrArg some (hsorted.ofList_eq)
  have hrecord : b.toJson.record? ["opcode", "args", "text"] = some b.fields := by
    rw [toJson_eq]
    obtain ⟨opcode, args, text⟩ := b
    refine Json.record?_ofFields ?_ ?_ <;> cases text <;> simp [fields]
  have hopcode : Json.field? "opcode" b.fields = some (Json.ofString b.opcode.name) := rfl
  have hargsField : Json.field? "args" b.fields =
      some (Json.ofFields (b.args.map fun m => (m.1, m.2.toJson))) := rfl
  have htext : Json.fieldOr "text" nullableText? none b.fields = some b.text := by
    obtain ⟨opcode, args, text⟩ := b
    cases text with
    | none => rfl
    | some content => exact congrArg (some <$> ·) (Json.text?_ofString content)
  have hword : Opcode.ofJson? (Json.ofString b.opcode.name) = some b.opcode := by
    rw [Opcode.ofJson?, Json.word?_ofString]
    exact Opcode.ofName?_name b.opcode
  rw [ofJsonWith?, hrecord]
  simp only [Option.bind_eq_bind, Option.bind_some, hopcode, hword,
    Json.fieldOr_of_some hargsField, hread, htext]
  cases b
  rfl

end Block

/-! ### Arguments -/

namespace Arg

/-- An argument whose numbers survive is written as a document, and a sound one. -/
theorem toJson_wellFormed (a : Arg) (hnumbers : ∀ v ∈ a.numbers, Json.Survives v) :
    Json.Written a.toJson ∧ a.toJson.sound = true := by
  induction a using Arg.induction with
  | number value =>
    obtain ⟨written, n, hwritten, hn, hvalue⟩ :=
      (hnumbers value (List.mem_singleton.2 rfl)).exists_numeral
    rw [toJson, hwritten]
    exact ⟨.number hn, by simp [Json.sound, hn, hvalue]⟩
  | text content => exact ⟨.string content, Json.sound_ofString content⟩
  | block inner ih =>
    have hmembers : ∀ m ∈ inner.args, Json.Written m.2.toJson ∧ m.2.toJson.sound = true :=
      fun m hm => ih m hm (Block.forall_mem_numbers.1 hnumbers m hm)
    rw [toJson, Block.toJson_eq]
    constructor
    · refine Json.written_ofFields ((Block.forall_mem_fields .string).2 ?_)
      exact Json.written_ofFields (List.forall_mem_map.2 fun m hm => (hmembers m hm).1)
    · refine Json.sound_ofFields ((Block.forall_mem_fields
        (P := fun j => j.sound = true) Json.sound_ofString).2 ?_)
      exact Json.sound_ofFields (List.forall_mem_map.2 fun m hm => (hmembers m hm).2)

/-- **An argument is read back** wherever there is room for it. -/
theorem ofJson?_toJson (a : Arg) (hordered : a.Ordered)
    (hnumbers : ∀ v ∈ a.numbers, Json.Survives v) :
    ∀ room, a.toJson.depth ≤ room → Arg.ofJson? room a.toJson = some a := by
  induction a using Arg.induction with
  | number value =>
    intro room _
    have hvalue := hnumbers value (List.mem_singleton.2 rfl)
    obtain ⟨written, _, hwritten, -⟩ := hvalue.exists_numeral
    rw [Json.Survives, hwritten] at hvalue
    rw [toJson, hwritten, ofJson?, hvalue]
    rfl
  | text content =>
    intro room _
    rw [toJson, Json.ofString, ofJson?, Json.decode?_encode]
    rfl
  | block inner ih =>
    intro room hroom
    have hdeep : 2 ≤ room := le_trans inner.two_le_depth_toJson hroom
    obtain ⟨n, rfl⟩ : ∃ n, room = n + 2 := ⟨room - 2, by omega⟩
    have hinside : ∀ m ∈ inner.args, m.2.toJson.depth ≤ n := Block.depth_toJson_le.1 hroom
    obtain ⟨hsorted, hargs⟩ := Block.ordered_iff.1 hordered
    have hread : Block.ofJsonWith? (Arg.ofJson? (n + 1)) inner.toJson = some inner := by
      refine Block.ofJsonWith?_toJson hsorted fun m hm => ?_
      exact ih m hm (hargs m hm) (Block.forall_mem_numbers.1 hnumbers m hm) (n + 1)
        (Nat.le_succ_of_le (hinside m hm))
    have hblock : Arg.ofJson? (n + 2) inner.toJson =
        .block <$> Block.ofJsonWith? (Arg.ofJson? (n + 1)) inner.toJson := by
      rw [Block.toJson_eq]
      rfl
    rw [toJson, hblock, hread]
    rfl

end Arg

/-! ### Scripts and programs -/

/-- A block reads back, if there is room for its depth. -/
theorem Block.ofJson?_toJson {b : Block} {room : Nat} (hordered : b.Ordered)
    (hnumbers : ∀ v ∈ b.numbers, Json.Survives v) (hdepth : b.toJson.depth ≤ room + 2) :
    Block.ofJson? room b.toJson = some b := by
  obtain ⟨hsorted, hargs⟩ := ordered_iff.1 hordered
  refine ofJsonWith?_toJson hsorted fun m hm => ?_
  have hsurvive : ∀ v ∈ m.2.numbers, Json.Survives v := forall_mem_numbers.1 hnumbers m hm
  have hroom : m.2.toJson.depth ≤ room := depth_toJson_le.1 hdepth m hm
  have hsound : m.2.toJson.sound = true := (m.2.toJson_wellFormed hsurvive).2
  rw [Arg.ofSoundJson?, hsound, Bool.true_and, if_pos (decide_eq_true hroom)]
  exact m.2.ofJson?_toJson (hargs m hm) hsurvive room hroom

/-- A block is written as documents are. -/
theorem Block.written_toJson {b : Block} (hnumbers : ∀ v ∈ b.numbers, Json.Survives v) :
    Json.Written b.toJson :=
  ((Arg.block b).toJson_wellFormed hnumbers).1

/-- A stage reads back from its name. -/
theorem Stage.ofJson?_name (stage : Stage) :
    Stage.ofJson? (Json.ofString stage.name) = some stage := by
  rw [Stage.ofJson?, Json.word?_ofString]
  cases stage <;> decide

/-- A script reads back, if its blocks do. -/
theorem Script.ofJson?_toJson {s : Script}
    (hblocks : ∀ b ∈ s.blocks, Block.ofJson? argumentRoom b.toJson = some b) :
    Script.ofJson? s.toJson = some s := by
  have hrecord : s.toJson.record? ["stage", "blocks"] =
      some [("stage", Json.ofString s.stage.name), ("blocks", .array (s.blocks.map Block.toJson))] :=
    Json.record?_ofFields (by simp) (by simp)
  have hstage : Json.field? "stage" [("stage", Json.ofString s.stage.name),
      ("blocks", .array (s.blocks.map Block.toJson))] = some (Json.ofString s.stage.name) := rfl
  have hitems : Json.field? "blocks" [("stage", Json.ofString s.stage.name),
      ("blocks", .array (s.blocks.map Block.toJson))] =
        some (.array (s.blocks.map Block.toJson)) := rfl
  have hmapped := Json.mapM_map_eq hblocks
  rw [Script.ofJson?, hrecord]
  simp only [Option.bind_eq_bind, Option.bind_some, Json.fieldOr_of_some hstage,
    Stage.ofJson?_name, hitems, Json.items?, hmapped]
  rfl

/-- A program reads back, if its scripts do. -/
theorem Program.ofJson?_toJson {p : Program}
    (hscripts : ∀ s ∈ p.scripts, Script.ofJson? s.toJson = some s) :
    Program.ofJson? p.toJson = some p := by
  have hrecord : p.toJson.record? ["scripts"] =
      some [("scripts", .array (p.scripts.map Script.toJson))] :=
    Json.record?_ofFields (by simp) (by simp)
  have hitems : Json.field? "scripts" [("scripts", Json.array (p.scripts.map Script.toJson))] =
      some (.array (p.scripts.map Script.toJson)) := rfl
  have hmapped := Json.mapM_map_eq hscripts
  rw [Program.ofJson?, hrecord]
  simp only [Option.bind_eq_bind, Option.bind_some, hitems, Json.items?, hmapped]
  rfl

/-- Two levels of a script stand around its blocks. -/
theorem Script.depth_toJson_le {s : Script} {n : Nat} :
    s.toJson.depth ≤ n + 2 ↔ ∀ b ∈ s.blocks, b.toJson.depth ≤ n := by
  have hstage : (Json.ofString s.stage.name).depth ≤ n + 1 := Nat.zero_le _
  rw [toJson, Json.depth_ofFields_le, List.forall_mem_cons, List.forall_mem_singleton,
    and_iff_right hstage, Json.depth_array_le, List.forall_mem_map]

/-- Four levels of a program stand around its blocks. -/
theorem Program.depth_toJson_le {p : Program} {n : Nat} :
    p.toJson.depth ≤ n + 4 ↔ ∀ b ∈ p.blocks, b.toJson.depth ≤ n := by
  rw [toJson, Json.depth_ofFields_le, List.forall_mem_singleton, Json.depth_array_le,
    List.forall_mem_map]
  simp only [Script.depth_toJson_le, blocks, List.forall_mem_flatMap]

/-- A program is written as documents are. -/
theorem Program.written_toJson {p : Program} (hnumbers : ∀ v ∈ p.numbers, Json.Survives v) :
    Json.Written p.toJson := by
  have hblocks : ∀ b ∈ p.blocks, Json.Written b.toJson := by
    intro b hb
    exact Block.written_toJson (List.forall_mem_flatMap.1 hnumbers b hb)
  have hscripts : ∀ s ∈ p.scripts, Json.Written s.toJson := by
    intro s hs
    refine Json.written_ofFields ?_
    rw [List.forall_mem_cons, List.forall_mem_singleton]
    refine ⟨.string _, .array (List.forall_mem_map.2 ?_)⟩
    exact List.forall_mem_flatMap.1 hblocks s hs
  refine Json.written_ofFields (List.forall_mem_singleton.2 ?_)
  exact .array (List.forall_mem_map.2 hscripts)

/-- **A program is read back from its document.**  This is for every program whose numbers survive
and whose document does not nest too deep, so writing what was read gives the same document. -/
theorem Program.ofString?_compact (p : Program) (hordered : p.Ordered)
    (hnumbers : ∀ v ∈ p.numbers, Json.Survives v) (hdepth : p.toJson.depth ≤ nestingLimit) :
    Program.ofString? p.toJson.compact = some p ∧
      (Program.ofString? p.toJson.compact).map (fun q => q.toJson.compact) =
        some p.toJson.compact := by
  have hroom : ∀ b ∈ p.blocks, b.toJson.depth ≤ argumentRoom + 2 :=
    Program.depth_toJson_le.1 hdepth
  have hblocks : ∀ b ∈ p.blocks, Block.ofJson? argumentRoom b.toJson = some b := by
    intro b hb
    have hsurvive := List.forall_mem_flatMap.1 hnumbers b hb
    exact Block.ofJson?_toJson (hordered b hb) hsurvive (hroom b hb)
  have hscripts : ∀ s ∈ p.scripts, Script.ofJson? s.toJson = some s := by
    intro s hs
    exact Script.ofJson?_toJson (List.forall_mem_flatMap.1 hblocks s hs)
  have hread : Program.ofString? p.toJson.compact = some p := by
    rw [ofString?, Json.read?_compact (written_toJson hnumbers), Option.bind_some]
    exact ofJson?_toJson hscripts
  exact ⟨hread, by rw [hread, Option.map_some]⟩

/-- A program with a block in a block, a fraction and a negative zero, characters that have to be
escaped, and texts that are empty and absent. -/
def nestedReadings : Program :=
  let scaled : Block :=
    { opcode := .expr
      args := [("K", .number 0.1), ("V", .block { opcode := .topicData }), ("Z", .number (-0.0))]
      text := some "" }
  ⟨[⟨.setup, [{ opcode := .connect
                args := [("CLIENTID", .text "a \"b\"\\\t\x00"), ("SERVER", .text "")] }]⟩,
    ⟨.loop, [{ opcode := .publish, args := [("DATA", .block scaled), ("TOPIC", .text "/é")] }]⟩]⟩

/-- A program with all of this reads back from its compact text. -/
theorem Program.ofString?_compact_nestedReadings :
    nestedReadings.Ordered ∧ (∀ v ∈ nestedReadings.numbers, Json.Survives v) ∧
      nestedReadings.toJson.depth ≤ nestingLimit ∧
      Program.ofString? nestedReadings.toJson.compact = some nestedReadings := by
  have hordered : nestedReadings.Ordered := by decide +kernel
  have hnumbers : ∀ v ∈ nestedReadings.numbers, Json.Survives v := by decide +kernel
  have hdepth : nestedReadings.toJson.depth ≤ nestingLimit := by decide +kernel
  exact ⟨hordered, hnumbers, hdepth, (ofString?_compact _ hordered hnumbers hdepth).1⟩

end BoardBlocks
