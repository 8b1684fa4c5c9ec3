/-
# The words of a command line

A command line is read level by level: the tool itself, then its command, then the command's own
command.  A level has switches, a fixed number of operands, and the names of its commands.

* `--name` and `-n` are switches.  A value follows as `--name value`, `--name=value`, `-n value`,
  `-nvalue` or `-n=value`; as a word of its own it starts with a dash only if it is a single dash.
* A word that starts with no dash, and a single dash, is the name of a command or an operand.
* After the word `--` every word is an operand.
* No switch is given twice at one level.
-/

namespace BoardBlocks
namespace CommandLine

/-- Why a command line names nothing to do. -/
inductive Stop where
  | usage
  | version
deriving DecidableEq, Repr

/-- What a switch takes: nothing, nothing and the reading stops to show the version, or a value that
passes a test. -/
inductive SwitchKind where
  | flag
  | version
  | value (accepts : String → Bool)

/-- A switch with its long name and its letter, if it has one. -/
structure Switch where
  name : String
  letter : Option Char := none
  kind : SwitchKind

/-- What may stand at one level. -/
structure Level where
  switches : List Switch
  operands : Nat := 0
  commands : List String := []

/-- What a word is at a level. -/
inductive Word where
  | separator
  | plain
  /-- A switch with all that it needs. -/
  | complete (switch : Switch) (value : Option String)
  /-- A switch whose value is the next word. -/
  | awaiting (switch : Switch)
  | unknown

/-- A switch with what is written behind it, `none` if nothing is. -/
def Switch.word (s : Switch) (attached : Option (List Char)) : Word :=
  match s.kind, attached with
  | .value _, some value => .complete s (some (String.ofList value))
  | .value _, none => .awaiting s
  | _, none => .complete s none
  | _, some _ => .unknown

/-- What is attached to the letter of a switch.  The letter of the version needs nothing more. -/
def Switch.attachedTo (s : Switch) (cs : List Char) : Option (List Char) :=
  match s.kind, cs with
  | .version, _ => none
  | _, [] => none
  | _, '=' :: value => some value
  | _, value => some value

/-- What a word is. -/
def Level.classify (l : Level) (word : String) : Word :=
  match word.toList with
  | ['-', '-'] => .separator
  | ['-'] => .plain
  | '-' :: '-' :: cs =>
    match l.switches.find? fun s => s.name.toList = cs.takeWhile (· ≠ '=') with
    | some s =>
      match cs.dropWhile (· ≠ '=') with
      | [] => s.word none
      | _ :: value => s.word (some value)
    | none => .unknown
  | '-' :: c :: cs =>
    match l.switches.find? fun s => s.letter = some c with
    | some s => s.word (s.attachedTo cs)
    | none => .unknown
  | _ => .plain

/-- Whether a word can be the value of the switch before it. -/
def canBeValue (word : String) : Bool :=
  word.toList.head? ≠ some '-' || word = "-"

/-- What a level was given: its switches, its operands, and its command with the words below it. -/
structure Reading where
  switches : List (String × Option String) := []
  operands : List String := []
  command : Option (String × List String) := none
deriving DecidableEq, Repr

namespace Reading

/-- Whether a switch was given. -/
def has (r : Reading) (name : String) : Bool :=
  r.switches.any fun s => s.1 = name

/-- The value of a switch. -/
def value? (r : Reading) (name : String) : Option String :=
  (r.switches.lookup name).join

/-- Takes note of a switch. -/
def add (r : Reading) (s : Switch) (value : Option String) : Except Stop Reading :=
  let accepted := match s.kind, value with
    | .value accepts, some v => accepts v
    | _, _ => true
  if r.has s.name || !accepted then .error .usage
  else match s.kind with
    | .version => .error .version
    | _ => .ok { r with switches := r.switches ++ [(s.name, value)] }

end Reading

/-- Reads the words of a level, after what was read before. -/
def Level.readFrom (l : Level) (r : Reading) : List String → Except Stop Reading
  | [] => .ok r
  | word :: words =>
    match l.classify word with
    | .separator => .ok { r with operands := r.operands ++ words }
    | .plain =>
      if l.commands.contains word then .ok { r with command := some (word, words) }
      else if l.operands = 0 then .error .usage
      else l.readFrom { r with operands := r.operands ++ [word] } words
    | .complete s value => do l.readFrom (← r.add s value) words
    | .awaiting s =>
      match words with
      | value :: words => do
        if !canBeValue value then throw .usage
        l.readFrom (← r.add s (some value)) words
      | [] => .error .usage
    | .unknown => .error .usage

/-- Reads a level: all its operands have to be there, no more, and a command if it has commands. -/
def Level.read (l : Level) (words : List String) : Except Stop Reading := do
  let r ← l.readFrom {} words
  if r.operands.length ≠ l.operands || (r.command.isNone && !l.commands.isEmpty) then throw .usage
  return r

end CommandLine
end BoardBlocks
