/-
# The code of a command

The values of a block's arguments can be read off the block (`valueOf`): a text or a number is a
literal, a missing argument an empty one, and a nested block the expression that it translates to
on its own.  A block that talks to the firmware is translated to what its dialect writes for those
values, stores the boilerplate and records the problems of its tree (`command_writes`), wherever the
translation runs.
-/

import BoardBlocks.Proofs.BlockProblems

namespace BoardBlocks
namespace Generation

/-- The expression that a nested block translates to on its own; empty if that fails. -/
def expressionOf (d : Dialect) (b : Block) : String :=
  (runGen (absorb b.opcode (reporter d b)) (.start d.target)).1.toOption.getD ""

/-- The value that an argument is evaluated to. -/
def argValueOf (d : Dialect) : Arg → Value
  | .text content => .ofText content
  | .number n => .ofNumber (Decimal.plain n)
  | .block b => .ofCode (expressionOf d b)

/-- The value of an argument of a block; an argument that it does not have is empty. -/
def valueOf (d : Dialect) (b : Block) (name : String) : Value :=
  ((b.arg? name).map (argValueOf d)).getD .empty

/-- The kinds of blocks that send a command to the firmware. -/
def sendingOpcodes : List Opcode :=
  [.connect, .connectCloud, .joinNetwork, .publish, .subscribe]

/-- What a dialect writes for a block that sends a command. -/
def sendingCode (d : Dialect) (b : Block) : String :=
  let value := valueOf d b
  match b.opcode with
  | .connect | .connectCloud => d.connect (value "SERVER") (value "CLIENTID")
      (if (value "USER").isBlank then none else some (value "USER", value "PASS"))
  | .joinNetwork => d.joinNetwork (value "AP") (value "PASS")
  | .publish => d.publish (value "TOPIC") (value "DATA")
  | .subscribe => d.subscribe (value "TOPIC")
  | _ => ""

/-! ### Values -/

/-- **The evaluation of an argument gives its value**, stores nothing and records the problems of
its tree. -/
theorem argValue_writes (d : Dialect) (a : Arg) :
    Writes (argValue d a) (.ok (argValueOf d a)) [] (argProblems a) := by
  cases a with
  | text content => exact .pure _
  | number n => exact .pure _
  | block b =>
    -- Any run shows the expression, so the one from an empty sketch does.
    obtain ⟨code, ds, h⟩ := (reporter_translates d b).absorb b.opcode
    obtain rfl : ds = valueProblems b := Records.unique ⟨code, [], h⟩ (reporter_records d b)
    have hcode : expressionOf d b = code := by
      rw [expressionOf, h]
      rfl
    rw [argValueOf, hcode]
    exact h.map Value.ofCode

/-- A required argument gives its value and records its problems. -/
theorem required_writes (d : Dialect) (b : Block) (name : String) :
    Writes (required d b name) (.ok (valueOf d b name)) []
      (requiredProblems b.opcode (argsProblems b.args) name) := by
  rw [required, requiredOf, get?_argValues, valueOf, Block.arg?, requiredProblems,
    get?_argsProblems]
  cases Keyed.get? name b.args with
  | none => exact (Writes.report b.opcode _).bind (.pure _)
  | some a => exact argValue_writes d a

/-- An optional argument gives its value and records its problems; left out, it has none. -/
theorem optional_writes (d : Dialect) (b : Block) (name : String) :
    Writes (optional d b name) (.ok (valueOf d b name)) []
      (optionalProblems (argsProblems b.args) name) := by
  rw [optional, value?, valueOf, Block.arg?, optionalProblems, get?_argsProblems]
  cases Keyed.get? name b.args with
  | none => exact (Writes.pure none).bind (.pure _)
  | some a =>
    have hvalue := ((argValue_writes d a).map some).bind (f := fun v => pure (v.getD .empty))
      (.pure (argValueOf d a))
    exact hvalue.of_eq (List.append_nil _)

/-! ### Commands -/

/-- Storing fragments on the way to a value writes these fragments and nothing else. -/
theorem store_writes {α : Type} (cs : List Contribution) (a : α) :
    Writes (do contributeAll cs; return a) (.ok a) cs [] := by
  have h := (Writes.contributeAll cs).bind (f := fun _ => pure a) (.pure a)
  rwa [List.append_nil] at h

/-- **A block that sends a command is translated to what its dialect writes for its values**,
whatever was generated before.  It brings the boilerplate along and records the problems of its
arguments. -/
theorem command_writes (target : Target) (d : Dialect) {b : Block} (h : b.opcode ∈ sendingOpcodes)
    (body : Gen (List String)) :
    Writes (commandWith d b body) (.ok (sendingCode d b)) d.boilerplate
      (blockProblems target b) := by
  have hrequired := required_writes d b
  have hoptional := optional_writes d b
  have hstore := store_writes d.boilerplate (sendingCode d b)
  unfold commandWith blockProblems
  cases hop : b.opcode <;> simp only [sendingCode, hop] at hrequired hstore ⊢
  case connect | connectCloud =>
    refine Writes.of_eq ((hrequired "SERVER").bind ((hrequired "CLIENTID").bind
      ((hoptional "USER").bind ((hoptional "PASS").bind hstore)))) ?_
    simp only [List.append_assoc, List.append_nil]
  case joinNetwork =>
    refine Writes.of_eq ((hrequired "AP").bind ((hrequired "PASS").bind hstore)) ?_
    rw [List.append_nil]
  case publish =>
    refine Writes.of_eq ((hrequired "TOPIC").bind ((hrequired "DATA").bind hstore)) ?_
    rw [List.append_nil]
  case subscribe => exact Writes.of_eq ((hrequired "TOPIC").bind hstore) (List.append_nil _)
  all_goals simp [sendingOpcodes, hop] at h

end Generation
end BoardBlocks
