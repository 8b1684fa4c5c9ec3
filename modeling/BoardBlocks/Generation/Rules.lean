/-
# How blocks are read

The rules that hold for every target.

* An argument that is a text or a number is a literal.  A nested block becomes an expression; if
  that fails, the problem is recorded for the nested block and the expression is empty.
* An argument that a block needs but does not have is recorded, and an empty literal stands in.
* Arguments are evaluated in a fixed order before anything is contributed.
* A hat takes the rest of its chain as its body.  Its topic has to be a literal that is not blank
  once its quotes are dropped.
* A reporter has no place in a chain: it is recorded and skipped.
-/

import BoardBlocks.Generation.Dialect
import BoardBlocks.Snippet.Template

namespace BoardBlocks
namespace Generation

/-- An argument that a block needs, from its evaluated arguments. -/
def requiredOf (opcode : Opcode) (values : List (String × Gen Value)) (name : String) : Gen Value :=
  match Keyed.get? name values with
  | some value => value
  | none => do
    report opcode (.missingArgument opcode name)
    return .empty

/-- The source text of a passthrough block with its placeholders filled from the arguments. -/
def templateOf (opcode : Opcode) (values : List (String × Gen Value)) (text : Option String) :
    Gen String :=
  match text with
  | none => throw (.missingArgument opcode "text")
  | some template => Snippet.fill template fun name => Value.code <$> requiredOf opcode values name

/-- The expression of a reporter, from its evaluated arguments and its menu choice. -/
def reporterOf (d : Dialect) (opcode : Opcode) (values : List (String × Gen Value))
    (choice text : Option String) : Gen String :=
  match opcode with
  | .topicData => return d.topicData (DataType.ofName (choice.getD ""))
  | .expr => templateOf opcode values text
  | _ => throw (.shapeMismatch opcode .value)

mutual
/-- The value of an argument. -/
def argValue (d : Dialect) : Arg → Gen Value
  | .text content => return .ofText content
  | .number n => return .ofNumber (Decimal.plain n)
  | .block b => Value.ofCode <$> absorb b.opcode (reporter d b)
termination_by structural a => a
/-- The expression of a block in the place of a value. -/
def reporter (d : Dialect) : Block → Gen String
  | ⟨opcode, args, text⟩ =>
    reporterOf d opcode (argValues d args) (Block.field? ⟨opcode, args, text⟩ "DATATYPE") text
termination_by structural b => b
/-- The values of the arguments of a block. -/
def argValues (d : Dialect) : List (String × Arg) → List (String × Gen Value)
  | [] => []
  | (name, arg) :: args => (name, argValue d arg) :: argValues d args
termination_by structural args => args
end

/-- The value of an argument; `none` if the block does not have it. -/
def value? (d : Dialect) (b : Block) (name : String) : Gen (Option Value) :=
  match b.arg? name with
  | some arg => some <$> argValue d arg
  | none => return none

/-- The value of an argument that a block needs. -/
def required (d : Dialect) (b : Block) (name : String) : Gen Value :=
  requiredOf b.opcode (argValues d b.args) name

/-- The value of an argument that a block may leave out. -/
def optional (d : Dialect) (b : Block) (name : String) : Gen Value := do
  return (← value? d b name).getD .empty

/-- The source text of a passthrough block. -/
def template (d : Dialect) (b : Block) : Gen String :=
  templateOf b.opcode (argValues d b.args) b.text

/-- The topic of a hat, as it was written. -/
def hatTopic (b : Block) : Except GenerationError String :=
  let check (topic : String) : Except GenerationError String :=
    if Text.blank (topicKey topic) then .error (.missingArgument b.opcode "TOPIC") else .ok topic
  match b.arg? "TOPIC" with
  | some (.text content) => check content
  | some (.number n) => check (Decimal.plain n)
  | some (.block _) => .error (.shapeMismatch b.opcode .literalTopic)
  | none => check ""

/-- Connecting to a broker.  Credentials count if the user name is not blank. -/
def connect (d : Dialect) (b : Block) : Gen String := do
  let server ← required d b "SERVER"
  let clientId ← required d b "CLIENTID"
  let user ← optional d b "USER"
  let password ← optional d b "PASS"
  contributeAll d.boilerplate
  return d.connect server clientId (if user.isBlank then none else some (user, password))

/-- Joining a network. -/
def joinNetwork (d : Dialect) (b : Block) : Gen String := do
  let network ← required d b "AP"
  let password ← required d b "PASS"
  contributeAll d.boilerplate
  return d.joinNetwork network password

/-- Publishing on a topic. -/
def publish (d : Dialect) (b : Block) : Gen String := do
  let topic ← required d b "TOPIC"
  let data ← required d b "DATA"
  contributeAll d.boilerplate
  return d.publish topic data

/-- Subscribing to a topic. -/
def subscribe (d : Dialect) (b : Block) : Gen String := do
  let topic ← required d b "TOPIC"
  contributeAll d.boilerplate
  return d.subscribe topic

/-- A hat: its body becomes the routine of its topic.  A later hat on the same topic replaces the
routine and the registration. -/
def onTopic (d : Dialect) (b : Block) (body : Gen (List String)) : Gen String := do
  let topic ← hatTopic b
  contributeAll d.boilerplate
  let name ← registerCallback topic
  let statements ← body
  contribute ⟨.setup, name, d.registration topic name⟩
  contribute ⟨.functions, name, d.routine name statements⟩
  return ""

/-- Serving the serial line. -/
def serialWork (d : Dialect) (b : Block) : Gen String :=
  match d.serialWork with
  | none => throw (.unsupported b.opcode d.target)
  | some (contributions, code) => do
    contributeAll d.boilerplate
    contributeAll contributions
    return code

/-- The statement of a command; a hat is given the statements of its body. -/
def commandWith (d : Dialect) (b : Block) (body : Gen (List String)) : Gen String :=
  match b.opcode with
  | .connect | .connectCloud => connect d b
  | .joinNetwork => joinNetwork d b
  | .publish => publish d b
  | .subscribe => subscribe d b
  | .onTopic => onTopic d b body
  | .serialWork => serialWork d b
  | .code => template d b
  | .topicData | .expr => throw (.shapeMismatch b.opcode .statement)

/-- The statements of a chain of blocks. -/
def chain (d : Dialect) : List Block → Gen (List String)
  | [] => return []
  | b :: rest =>
    match b.opcode.shape with
    | .hat => do
      let _ ← absorb b.opcode (commandWith d b (chain d rest))
      return []
    | .command => do
      let code ← absorb b.opcode (commandWith d b (return []))
      return code :: (← chain d rest)
    | .reporter => do
      report b.opcode (.shapeMismatch b.opcode .statement)
      chain d rest

/-- The statement of a command, or of a hat with the chain below it. -/
def command (d : Dialect) (b : Block) (rest : List Block) : Gen String :=
  commandWith d b (chain d rest)

end Generation
end BoardBlocks
