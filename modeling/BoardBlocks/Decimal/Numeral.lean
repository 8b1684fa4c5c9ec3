/-
# Numerals

The grammar of a number in a JSON document, and the double that a numeral is read as.

```
numeral  = [ "-" ] whole [ "." digits ] [ ( "e" | "E" ) [ "+" | "-" ] digits ]
whole    = "0" | nonzero-digit { digit }
```

A numeral is read as a significand of at most 64 bits and a power of ten.  The significand takes the
leading digits as long as they fit; a further digit before the point only raises the exponent, and
one after the point is dropped.  The significand is rounded to a double and then multiplied or
divided by the power of ten, each time rounding to nearest.  A numeral beyond the largest double has
no value, one below the smallest is zero.
-/

import BoardBlocks.Text.Digits

namespace BoardBlocks
namespace Decimal

open Text (digitValue natOf)

/-- A numeral, cut into its parts. -/
structure Numeral where
  minus : Bool
  whole : List Char
  /-- The digits after the point; empty if there is no point. -/
  fraction : List Char
  /-- The exponent letter with the sign after it; empty if there is no exponent. -/
  mark : List Char
  exponent : List Char
deriving DecidableEq, Repr

/-- The numeral as it was written. -/
def Numeral.chars (n : Numeral) : List Char :=
  (if n.minus then ['-'] else []) ++ n.whole ++
    (if n.fraction = [] then [] else '.' :: n.fraction) ++ n.mark ++ n.exponent

/-- The whole part at the head of a text: a single zero, or digits that do not start with one. -/
def scanWhole (cs : List Char) : Option (List Char × List Char) :=
  match cs with
  | '0' :: rest => some (['0'], rest)
  | c :: _ =>
    if c.isDigit then some (cs.takeWhile Char.isDigit, cs.dropWhile Char.isDigit) else none
  | [] => none

/-- The fraction at the head of a text; a point needs a digit after it. -/
def scanFraction (cs : List Char) : Option (List Char × List Char) :=
  match cs with
  | '.' :: rest =>
    if (rest.takeWhile Char.isDigit).isEmpty then none
    else some (rest.takeWhile Char.isDigit, rest.dropWhile Char.isDigit)
  | _ => some ([], cs)

/-- The exponent letter and sign at the head of a text. -/
def scanMark (cs : List Char) : List Char × List Char :=
  match cs with
  | e :: rest =>
    if e = 'e' ∨ e = 'E' then
      match rest with
      | s :: rest' => if s = '+' ∨ s = '-' then ([e, s], rest') else ([e], rest)
      | [] => ([e], [])
    else ([], cs)
  | [] => ([], [])

/-- The numeral at the head of a text and what follows it. -/
def Numeral.scan (cs : List Char) : Option (Numeral × List Char) := do
  let minus := cs.head? = some '-'
  let (whole, cs) ← scanWhole (if minus then cs.tail else cs)
  let (fraction, cs) ← scanFraction cs
  let (mark, cs) := scanMark cs
  if mark.isEmpty then
    return ({ minus, whole, fraction, mark, exponent := [] }, cs)
  let exponent := cs.takeWhile Char.isDigit
  if exponent.isEmpty then none
  else return ({ minus, whole, fraction, mark, exponent }, cs.dropWhile Char.isDigit)

/-- The numeral that a whole text is. -/
def Numeral.ofString? (s : String) : Option Numeral :=
  match Numeral.scan s.toList with
  | some (n, []) => some n
  | _ => none

/-- Extends a significand by digits while it stays below 2⁶⁴; the second component is the digits
left. -/
def extend (significand : Nat) : List Char → Nat × List Char
  | [] => (significand, [])
  | d :: ds =>
    if 10 * significand + digitValue d < UInt64.size then
      extend (10 * significand + digitValue d) ds
    else (significand, d :: ds)

/-- The exponent that a numeral states. -/
def Numeral.power (n : Numeral) : Int :=
  if n.mark.getLast? = some '-' then -(natOf n.exponent : Int) else natOf n.exponent

/-- The significand and the power of ten that a numeral is read as. -/
def Numeral.scaled (n : Numeral) : Nat × Int :=
  let (whole, beyond) := extend 0 n.whole
  let (significand, dropped) := extend whole n.fraction
  (significand, beyond.length - (n.fraction.length - dropped.length : Int) + n.power)

/-- A power of ten, rounded to a double. -/
def tenTo (e : Nat) : Float :=
  Float.ofScientific 1 false e

/-- A double times a power of ten; `none` if it is too large.  Powers beyond those that a double
holds are applied 308 places at a time. -/
def shift (f : Float) (e : Int) : Option Float :=
  if e.natAbs ≤ 308 then
    if 0 ≤ e then
      let g := f * tenTo e.natAbs
      if g.isInf then none else some g
    else some (f / tenTo e.natAbs)
  else if f == 0 then some f
  else if h : 0 ≤ e then none
  else shift (f / tenTo 308) (e + 308)
termination_by e.natAbs
decreasing_by omega

/-- The double that a numeral is read as; `none` if it is too large. -/
def Numeral.toFloat? (n : Numeral) : Option Float := do
  let (significand, e) := n.scaled
  let f ← shift significand.toUInt64.toFloat e
  return if n.minus then -f else f

/-- The natural number that a numeral is: digits without sign, point or exponent. -/
def Numeral.toNat? (n : Numeral) : Option Nat :=
  if n.minus || !n.fraction.isEmpty || !n.mark.isEmpty then none else some (natOf n.whole)

end Decimal
end BoardBlocks
