/-
# Records in JSON documents

How the parts of a document are used.  A record with named fields is an object, or an array of its
first fields in order:

* an object may have other members, which are passed over whatever they hold, but no field twice;
* an array may leave out fields at its end, but has no more items than the record has fields.

A word from a fixed list is a string, or an object whose only member has the word as its key and
`null` as its value.  A number of fixed width is a numeral of digits alone.
-/

import BoardBlocks.Json.Basic

namespace BoardBlocks
namespace Json

/-- The text that a string stands for. -/
def text? : Json → Option String
  | .string written => decode? written
  | _ => none

/-- The double that a numeral is read as. -/
def float? : Json → Option Float
  | .number written => (Decimal.Numeral.ofString? written).bind (·.toFloat?)
  | _ => none

/-- The natural number that a numeral is, if it is below a bound. -/
def natBelow? (bound : Nat) : Json → Option Nat
  | .number written => do
    let n ← (Decimal.Numeral.ofString? written).bind (·.toNat?)
    if n < bound then some n else none
  | _ => none

/-- The items of an array. -/
def items? : Json → Option (List Json)
  | .array items => some items
  | _ => none

/-- The members of an object, whose keys all have to be texts. -/
def members? : Json → Option (List (String × Json))
  | .object members => members.mapM fun m => do return (← decode? m.1, m.2)
  | _ => none

/-- The word that a string or a one-member object names. -/
def word? : Json → Option String
  | .string written => decode? written
  | .object [(key, .null)] => decode? key
  | _ => none

/-- Whether no key comes twice. -/
def distinctKeys : List (String × Json) → Bool
  | [] => true
  | m :: ms => !(ms.any fun e => e.1 = m.1) && distinctKeys ms

/-- The fields that a record states, from an object or from an array. -/
def record? (fields : List String) : Json → Option (List (String × Json))
  | .array items => if items.length ≤ fields.length then some (fields.zip items) else none
  | j => do
    let known := (← members? j).filter fun m => fields.contains m.1
    if distinctKeys known then some known else none

/-- The value of a field that a record states. -/
def field? (name : String) (stated : List (String × Json)) : Option Json :=
  stated.lookup name

/-- The value of a field, read by `read`, or the default if the record does not state the field. -/
def fieldOr {α : Type} (name : String) (read : Json → Option α) (default : α)
    (stated : List (String × Json)) : Option α :=
  match field? name stated with
  | none => some default
  | some j => read j

end Json
end BoardBlocks
