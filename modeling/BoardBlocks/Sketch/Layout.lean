/-
# Layout

How a sketch becomes text.

* Arduino: headers, definitions, the functions `setup` and `loop`, then the other functions, each
  after an empty line.
* MicroPython: headers, definitions, the functions, so that setup can name them, then the setup
  statements, and a `while True` loop if there is anything to loop over.

In both, the fragments of a stage stand before the statements of its scripts, and a group of lines
that is not empty is followed by an empty line.
-/

import BoardBlocks.Sketch.Basic
import BoardBlocks.Snippet.Routine

namespace BoardBlocks
namespace Sketch

/-- Each fragment on lines of its own, then an empty line; nothing for no fragments. -/
def group (fragments : List String) : String :=
  if fragments.isEmpty then ""
  else String.join (fragments.map fun f => Text.trimEnd f ++ "\n") ++ "\n"

/-- What runs at a stage: the keyed fragments, then the statements of the scripts. -/
def stageLines (s : Sketch) : Stage → List String
  | .setup => s.fragments .setup ++ s.setupBody
  | .loop => s.fragments .loop ++ s.loopBody

/-- The text of an Arduino sketch. -/
def arduinoText (s : Sketch) : String :=
  group (s.fragments .headers) ++ group (s.fragments .definitions) ++
    Snippet.CppRoutine.text { returns := "void", name := "setup", body := s.stageLines .setup } ++
    "\n" ++
    Snippet.CppRoutine.text { returns := "void", name := "loop", body := s.stageLines .loop } ++
    String.join ((s.fragments .functions).map fun f => "\n" ++ Text.trimEnd f ++ "\n")

/-- The text of a MicroPython script. -/
def microPythonText (s : Sketch) : String :=
  let loop := s.stageLines .loop
  group (s.fragments .headers) ++ group (s.fragments .definitions) ++
    String.join ((s.fragments .functions).map fun f => Text.trimEnd f ++ "\n\n") ++
    group (s.stageLines .setup) ++
    if loop.isEmpty then "" else "while True:\n" ++ String.join (loop.map Snippet.bodyLine)

/-- The source text of a sketch. -/
def render (s : Sketch) : String :=
  match s.target with
  | .arduino => s.arduinoText
  | .microPython => s.microPythonText

end Sketch
end BoardBlocks
