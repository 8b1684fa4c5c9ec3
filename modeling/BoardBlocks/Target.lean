/-
# Targets

The two kinds of source a block program is turned into: an Arduino sketch, compiled C++ with a
`setup` and a `loop` function, and a MicroPython script, which talks to the companion firmware over
a serial line itself.
-/

namespace BoardBlocks

/-- A kind of generated source. -/
inductive Target where
  | arduino
  | microPython
deriving DecidableEq, Repr

namespace Target

/-- The name of a target in documents, messages and on the command line. -/
def name : Target → String
  | .arduino => "arduino"
  | .microPython => "micropython"

/-- The target of a name; `micropy` is short for `micropython`. -/
def ofName? (s : String) : Option Target :=
  if s = "arduino" then some .arduino
  else if s = "micropython" ∨ s = "micropy" then some .microPython
  else none

/-- A target reads back from its name. -/
theorem ofName?_name (t : Target) : ofName? t.name = some t := by
  cases t <;> decide

/-- What is said of a name that no target has. -/
def unknownMessage (s : String) : String :=
  "unknown target '" ++ s ++ "'"

end Target
end BoardBlocks
