/-
# The fewest digits that read back

The decimals `coefficient · 10 ^ grid` with one fixed `grid` form a grid of points.  A positive
double is written as a point of the coarsest grid that has a point among the reals that round to the
double; of such points on that grid the nearest one is taken.  A rule says which of two equally near
points it is.

Everything is exact: for `v = mantissa · 2 ^ exponent` the quotients `v / 10 ^ grid` are compared as
integers over a common denominator.  Only the two neighbours of `v` on a grid have to be tried, as
one of them is a hit whenever any point is.
-/

import BoardBlocks.Decimal.Binary

namespace BoardBlocks
namespace Decimal

/-- A decimal `coefficient · 10 ^ exponent`. -/
structure Digits where
  coefficient : Nat
  exponent : Int
deriving DecidableEq, Repr

/-- Which of two equally near decimals is written. -/
inductive Tie where
  | up
  | toEven
deriving DecidableEq, Repr

/-- The numerator of a quarter of the double's last place over `10 ^ grid`. -/
def Binary.unit (b : Binary) (grid : Int) : Nat :=
  Nat.pow 2 b.exponent.toNat * Nat.pow 10 (-grid).toNat

/-- The denominator that belongs to `Binary.unit`. -/
def Binary.scale (b : Binary) (grid : Int) : Nat :=
  4 * Nat.pow 2 (-b.exponent).toNat * Nat.pow 10 grid.toNat

/-- Whether `c · 10 ^ grid` rounds to the double.  The ends of the interval belong to it if the
mantissa is even. -/
def Binary.hits (b : Binary) (grid : Int) (c : Nat) : Bool :=
  let low := (4 * b.mantissa - if b.halfBelow then 1 else 2) * b.unit grid
  let high := (4 * b.mantissa + 2) * b.unit grid
  let point := c * b.scale grid
  if b.mantissa % 2 = 0 then low ≤ point && point ≤ high else low < point && point < high

/-- The nearer of `c · 10 ^ grid` and `(c + 1) · 10 ^ grid`. -/
def Binary.nearer (b : Binary) (tie : Tie) (grid : Int) (c : Nat) : Nat :=
  let twice := 8 * b.mantissa * b.unit grid
  let middle := (2 * c + 1) * b.scale grid
  if twice < middle then c
  else if middle < twice then c + 1
  else match tie with
    | .up => c + 1
    | .toEven => if c % 2 = 0 then c else c + 1

/-- The nearest hit on a grid. -/
def Binary.onGrid (b : Binary) (tie : Tie) (grid : Int) : Option Nat :=
  let c := 4 * b.mantissa * b.unit grid / b.scale grid
  match b.hits grid c, b.hits grid (c + 1) with
  | true, true => some (b.nearer tie grid c)
  | true, false => some c
  | false, true => some (c + 1)
  | false, false => none

/-- The first hit on the `count` grids from `grid` downwards. -/
def Binary.search (b : Binary) (tie : Tie) : (count : Nat) → (grid : Int) → Option Digits
  | 0, _ => none
  | count + 1, grid =>
    match b.onGrid tie grid with
    | some c => some { coefficient := c, exponent := grid }
    | none => b.search tie count (grid - 1)

/-- The shortest decimal that reads back as the double; zero is `0 · 10 ^ 0`.  The grids from
`10 ^ 308` down to `10 ^ (-324)` are enough for every double. -/
def Binary.shortest (b : Binary) (tie : Tie) : Digits :=
  if b.mantissa = 0 then { coefficient := 0, exponent := 0 }
  else (b.search tie 633 308).getD { coefficient := 0, exponent := 0 }

end Decimal
end BoardBlocks
