/-
# Calls

A call of a function, or of a method of a receiver: `receiver.name(a, b)`.
-/

import BoardBlocks.Snippet.Statement

namespace BoardBlocks
namespace Snippet

/-- A call expression. -/
structure Call where
  receiver : Option String := none
  name : String
  args : List String := []
deriving DecidableEq, Repr

/-- The arguments of a call or the parameters of a routine. -/
def commaList (items : List String) : String :=
  ", ".intercalate items

/-- The text of a call. -/
def Call.text (c : Call) : String :=
  (match c.receiver with
    | some receiver => receiver ++ "."
    | none => "") ++ c.name ++ "(" ++ commaList c.args ++ ")"

/-- A call as a statement of a target. -/
def Call.statement (c : Call) (target : Target) : String :=
  Snippet.statement target c.text

end Snippet
end BoardBlocks
