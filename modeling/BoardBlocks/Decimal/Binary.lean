/-
# Doubles as integers times powers of two

A binary64 pattern has one sign bit, 11 exponent bits and 52 fraction bits.  A finite pattern stands
for `mantissa · 2 ^ exponent`:

| exponent field | mantissa | exponent |
| --- | --- | --- |
| 0 | fraction | -1074 |
| 1 … 2046 | 2⁵² + fraction | field - 1075 |
| 2047 | infinity if the fraction is 0, else not a number | |

The reals that round to a positive finite double lie between the midpoints to its two neighbours.
The neighbour below is half as far away as the one above where the fraction is 0 and the exponent
field is not the lowest.
-/

namespace BoardBlocks
namespace Decimal

/-- A finite double without its sign: `mantissa · 2 ^ exponent`. -/
structure Binary where
  mantissa : Nat
  exponent : Int
  /-- The neighbour below is half as far away as the neighbour above. -/
  halfBelow : Bool := false
deriving DecidableEq, Repr

/-- What a binary64 pattern stands for, without its sign. -/
inductive Magnitude where
  | finite (value : Binary)
  | infinite
  | notNumber
deriving DecidableEq, Repr

/-- The bit before the fraction, 2⁵², which the higher exponent fields imply. -/
def leadingBit : Nat := 0x10000000000000

/-- Whether the sign bit of a pattern is set. -/
def isNegative (bits : UInt64) : Bool :=
  0x8000000000000000 ≤ bits

/-- The magnitude that a pattern stands for. -/
def magnitude (bits : UInt64) : Magnitude :=
  let field := (bits >>> 52 &&& 0x7FF).toNat
  let fraction := (bits &&& 0xFFFFFFFFFFFFF).toNat
  if field = 2047 then
    if fraction = 0 then .infinite else .notNumber
  else if field = 0 then .finite { mantissa := fraction, exponent := -1074 }
  else .finite {
    mantissa := leadingBit + fraction, exponent := (field : Int) - 1075,
    halfBelow := fraction = 0 && 1 < field }

end Decimal
end BoardBlocks
