/-
# Statements and indentation

Code without its trailing white space is a statement of a MicroPython script.  In an Arduino sketch
a statement ends in `;` or `}`, so a `;` is added to other code; empty code stays empty.

Indented code has an indentation before each of its lines that is not empty.
-/

import BoardBlocks.Target
import BoardBlocks.Text.Blank
import BoardBlocks.Text.Lines

namespace BoardBlocks
namespace Snippet

/-- The indentation inside a generated routine. -/
def indentation : String := "    "

/-- Whether code ends the way a statement of a sketch has to. -/
def isTerminated (cs : List Char) : Bool :=
  match cs.getLast? with
  | none => true
  | some c => c = ';' || c = '\x7d'

/-- Code as a statement, on characters. -/
def terminate (target : Target) (cs : List Char) : List Char :=
  let code := Text.dropBlankEnd cs
  match target with
  | .arduino => if isTerminated code then code else code ++ [';']
  | .microPython => code

/-- Code as a statement of a target. -/
def statement (target : Target) (code : String) : String :=
  String.ofList (terminate target code.toList)

@[simp] theorem toList_statement (target : Target) (code : String) :
    (statement target code).toList = terminate target code.toList := by
  simp [statement]

/-- The statements of a list of codes, without the empty ones. -/
def statements (target : Target) (codes : List String) : List String :=
  (codes.map (statement target)).filter (· ≠ "")

/-- A line behind an indentation; an empty line stays empty. -/
def indentLine (indent line : List Char) : List Char :=
  if line.isEmpty then [] else indent ++ line

/-- Indented code, on characters. -/
def indentChars (cs indent : List Char) : List Char :=
  ['\n'].intercalate ((Text.linesOf cs).map (indentLine indent))

/-- Code with an indentation before each line that is not empty. -/
def indent (code : String) (indentation : String) : String :=
  String.ofList (indentChars code.toList indentation.toList)

@[simp] theorem toList_indent (code indentation : String) :
    (indent code indentation).toList = indentChars code.toList indentation.toList := by
  simp [indent]

end Snippet
end BoardBlocks
