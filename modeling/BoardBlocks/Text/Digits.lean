/-
# Decimal digits

Natural numbers as lists of ASCII decimal digits, the most significant one first.
-/

namespace BoardBlocks
namespace Text

/-- The value of a decimal digit. -/
def digitValue (c : Char) : Nat :=
  c.toNat - '0'.toNat

/-- The number that a list of digits names; leading zeros do not count. -/
def natOf (ds : List Char) : Nat :=
  ds.foldl (fun n d => 10 * n + digitValue d) 0

/-- The digits of a number, without leading zeros. -/
def digitsOf (n : Nat) : List Char :=
  (toString n).toList

end Text
end BoardBlocks
