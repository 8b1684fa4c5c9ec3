/-
# Sketches

The source being put together.  It has five sections of keyed fragments (headers, definitions,
setup, loop, functions) and the statements of the scripts that run at setup and in the loop.

A fragment contributed under a key that its section already has replaces the one there and keeps its
place.  So a block that contributes the same declarations every time declares them once.
-/

import BoardBlocks.Block.Basic
import BoardBlocks.Keyed
import BoardBlocks.Snippet.Statement

namespace BoardBlocks

/-- A part of the source that holds keyed fragments. -/
inductive Section where
  | headers
  | definitions
  | setup
  | loop
  | functions
deriving DecidableEq, Repr

namespace Section

/-- All sections, in order. -/
def all : List Section := [headers, definitions, setup, loop, functions]

/-- The name of a section. -/
def name : Section → String
  | headers => "headers"
  | definitions => "definitions"
  | setup => "setup"
  | loop => "loop"
  | functions => "functions"

/-- The section of a name. -/
def ofName? (s : String) : Option Section :=
  all.find? fun x => x.name = s

end Section

/-- The source being put together for a target. -/
structure Sketch where
  target : Target
  headers : List (String × String) := []
  definitions : List (String × String) := []
  setup : List (String × String) := []
  loop : List (String × String) := []
  functions : List (String × String) := []
  setupBody : List String := []
  loopBody : List String := []
deriving DecidableEq, Repr

namespace Sketch

/-- The keyed fragments of a section, in the order in which their keys first came. -/
def entries (s : Sketch) : Section → List (String × String)
  | .headers => s.headers
  | .definitions => s.definitions
  | .setup => s.setup
  | .loop => s.loop
  | .functions => s.functions

/-- The fragments of a section. -/
def fragments (s : Sketch) (x : Section) : List String :=
  (s.entries x).map (·.2)

/-- The keys of a section. -/
def keys (s : Sketch) (x : Section) : List String :=
  Keyed.keys (s.entries x)

/-- The fragment under a key of a section. -/
def fragment? (s : Sketch) (x : Section) (key : String) : Option String :=
  Keyed.get? key (s.entries x)

/-- Stores a fragment under a key of a section. -/
def contribute (s : Sketch) (x : Section) (key fragment : String) : Sketch :=
  match x with
  | .headers => { s with headers := Keyed.put key fragment s.headers }
  | .definitions => { s with definitions := Keyed.put key fragment s.definitions }
  | .setup => { s with setup := Keyed.put key fragment s.setup }
  | .loop => { s with loop := Keyed.put key fragment s.loop }
  | .functions => { s with functions := Keyed.put key fragment s.functions }

/-- The statements of the scripts of a stage. -/
def body (s : Sketch) : Stage → List String
  | .setup => s.setupBody
  | .loop => s.loopBody

/-- Appends code to the body of a stage as a statement; blank code is dropped. -/
def push (s : Sketch) (stage : Stage) (code : String) : Sketch :=
  let line := Snippet.statement s.target code
  if line = "" then s
  else match stage with
    | .setup => { s with setupBody := s.setupBody ++ [line] }
    | .loop => { s with loopBody := s.loopBody ++ [line] }

/-- A contribution puts its fragment into its section. -/
theorem entries_contribute_self (s : Sketch) (x : Section) (key fragment : String) :
    (s.contribute x key fragment).entries x = Keyed.put key fragment (s.entries x) := by
  cases x <;> rfl

/-- The other sections keep their fragments. -/
theorem entries_contribute_of_ne (s : Sketch) {x y : Section} (h : y ≠ x) (key fragment : String) :
    (s.contribute x key fragment).entries y = s.entries y := by
  cases x <;> cases y <;> simp_all [contribute, entries]

@[simp] theorem body_contribute (s : Sketch) (x : Section) (key fragment : String) (stage : Stage) :
    (s.contribute x key fragment).body stage = s.body stage := by
  cases x <;> cases stage <;> rfl

end Sketch
end BoardBlocks
