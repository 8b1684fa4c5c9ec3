/-
# Values of arguments

A value is an expression of the target.  If the argument was a literal, the value also keeps the raw
text, which can be baked into a protocol line.
-/

import BoardBlocks.Text.Blank
import BoardBlocks.Text.Quoted

namespace BoardBlocks
namespace Generation

/-- The value of an argument. -/
structure Value where
  code : String
  literal : Option String := none
deriving DecidableEq, Repr

namespace Value

/-- The value of a text argument: a string literal. -/
def ofText (content : String) : Value :=
  { code := Text.quote content, literal := some content }

/-- The value of a number argument, from its digits. -/
def ofNumber (digits : String) : Value :=
  { code := digits, literal := some digits }

/-- The value of a nested block, from its code. -/
def ofCode (code : String) : Value :=
  { code }

/-- What stands in for an argument that a block does not have. -/
def empty : Value :=
  { code := "", literal := some "" }

/-- The raw text if it is known, else the expression. -/
def text (v : Value) : String :=
  v.literal.getD v.code

/-- Whether there is nothing usable in a value. -/
def isBlank (v : Value) : Bool :=
  Text.blank v.text

/-- The value as a string expression: the digits of a number go between quotes. -/
def asString (v : Value) : String :=
  match v.literal with
  | some content => if v.code = "" then "" else Text.quote content
  | none => v.code

end Value
end Generation
end BoardBlocks
