/-
# Routines

The text of a C++ function and of a Python function.  A routine is given statements of any text:
blank ones are left out, each other one starts on a line of its own, and all lines but the signature
and the closing brace are indented.  A Python function without statements has the body `pass`.
-/

import BoardBlocks.Snippet.Call

namespace BoardBlocks
namespace Snippet

/-- A statement on lines of its own inside a routine. -/
def bodyLine (statement : String) : String :=
  indent statement indentation ++ "\n"

/-- A free function of a sketch. -/
structure CppRoutine where
  returns : String
  name : String
  params : List String := []
  body : List String := []
deriving DecidableEq, Repr

/-- The text of a free function. -/
def CppRoutine.text (r : CppRoutine) : String :=
  r.returns ++ " " ++ r.name ++ "(" ++ commaList r.params ++ ")\x7b\n" ++
    String.join ((statements .arduino r.body).map bodyLine) ++ "\x7d\n"

/-- A function of a script, with the module variables it assigns. -/
structure PyRoutine where
  name : String
  params : List String := []
  globals : List String := []
  body : List String := []
deriving DecidableEq, Repr

/-- The lines between the signature and the statements of a Python function. -/
def PyRoutine.preamble (r : PyRoutine) : String :=
  if r.globals.isEmpty then "" else indentation ++ "global " ++ commaList r.globals ++ "\n"

/-- The text of a Python function. -/
def PyRoutine.text (r : PyRoutine) : String :=
  let body := statements .microPython r.body
  "def " ++ r.name ++ "(" ++ commaList r.params ++ "):\n" ++ r.preamble ++
    (if body.isEmpty then indentation ++ "pass\n" else String.join (body.map bodyLine))

end Snippet
end BoardBlocks
