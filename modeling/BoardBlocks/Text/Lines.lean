/-
# Lines and joins

A text is cut into lines at line feeds.  One carriage return directly before a line feed belongs to
the line end; one at the end of the text does not.  A text that ends in a line feed has no further,
empty line after it.
-/

namespace BoardBlocks
namespace Text

/-- The text without one carriage return at its end. -/
def dropReturn (cs : List Char) : List Char :=
  if cs.getLast? = some '\r' then cs.dropLast else cs

/-- The lines of a text that was cut at its line feeds; all pieces but the last were ended by
one. -/
def closeLines : List (List Char) → List (List Char)
  | [] => []
  | [last] => if last.isEmpty then [] else [last]
  | l :: m :: ls => dropReturn l :: closeLines (m :: ls)

/-- The lines of a text, as lists of characters. -/
def linesOf (cs : List Char) : List (List Char) :=
  closeLines (cs.splitOn '\n')

/-- The lines of a text. -/
def lines (s : String) : List String :=
  (linesOf s.toList).map String.ofList

/-- The first line of a text, as if a line feed followed the text. -/
def firstLine (s : String) : String :=
  String.ofList ((linesOf (s.toList ++ ['\n'])).headD [])

end Text
end BoardBlocks
