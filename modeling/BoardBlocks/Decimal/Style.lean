/-
# How decimals are written

A style says which decimal exponents are written positionally, whether a whole number keeps a
fraction digit, and which of two equally near decimals is taken.  Two styles are in use:

| style | positional | whole numbers | ties | zero | not finite |
| --- | --- | --- | --- | --- | --- |
| `plain`, in generated source | always | `3` | up | `0` | `NaN`, `inf`, `-inf` |
| `document`, in JSON | exponents -5 … 15 | `3.0` | to even | `0.0`, `-0.0` | none |

The decimal exponent of a number `d.ddd · 10 ^ e` is `e`.
-/

import BoardBlocks.Decimal.Shortest
import BoardBlocks.Text.Digits

namespace BoardBlocks
namespace Decimal

open Text (digitsOf)

/-- How a decimal is written. -/
structure Style where
  tie : Tie
  /-- The decimal exponents of the numbers that are written without an exponent part. -/
  positional : Int → Bool
  /-- Whether a whole number is written with `.0`. -/
  keepsPoint : Bool
  /-- Whether a negative zero keeps its sign. -/
  signsZero : Bool

/-- Numbers in generated source: never an exponent, and no fraction for whole numbers. -/
def Style.plain : Style where
  tie := .up
  positional _ := true
  keepsPoint := false
  signsZero := false

/-- Numbers in JSON documents: scientific from `10 ^ 16` up and below `10 ^ (-5)`. -/
def Style.document : Style where
  tie := .toEven
  positional e := -5 ≤ e && e ≤ 15
  keepsPoint := true
  signsZero := true

/-- Digits with the point placed `exponent` digits after the last one. -/
def pointed (ds : List Char) (exponent : Int) (keepsPoint : Bool) : List Char :=
  if 0 ≤ exponent then
    ds ++ List.replicate exponent.toNat '0' ++ if keepsPoint then ['.', '0'] else []
  else
    let places := (-exponent).toNat
    if places < ds.length then ds.take (ds.length - places) ++ '.' :: ds.drop (ds.length - places)
    else '0' :: '.' :: (List.replicate (places - ds.length) '0' ++ ds)

/-- Digits with the point after the first one, and the exponent with its sign. -/
def scientific (ds : List Char) (e : Int) : List Char :=
  ds.take 1 ++ (if ds.length ≤ 1 then [] else '.' :: ds.drop 1) ++
    'e' :: (if e < 0 then '-' else '+') :: digitsOf e.natAbs

/-- A decimal without its sign. -/
def Style.digits (s : Style) (d : Digits) : List Char :=
  let ds := digitsOf d.coefficient
  let e : Int := d.exponent + ds.length - 1
  if s.positional e then pointed ds d.exponent s.keepsPoint else scientific ds e

/-- A finite double. -/
def Style.finite (s : Style) (negative : Bool) (b : Binary) : String :=
  let sign := negative && (s.signsZero || b.mantissa != 0)
  String.ofList ((if sign then ['-'] else []) ++ s.digits (b.shortest s.tie))

/-- A number in generated source: the fewest digits that read back, never an exponent. -/
def plain (n : Float) : String :=
  match magnitude n.toBits with
  | .finite b => Style.plain.finite (isNegative n.toBits) b
  | .infinite => if isNegative n.toBits then "-inf" else "inf"
  | .notNumber => "NaN"

/-- A number in a JSON document; only finite numbers have one. -/
def document? (n : Float) : Option String :=
  match magnitude n.toBits with
  | .finite b => some (Style.document.finite (isNegative n.toBits) b)
  | _ => none

end Decimal
end BoardBlocks
