import PartitionPruning.Numeral.Multiple

/-!
# Whole quotients

How often a width goes into a number. Doubles are divided rounding down and decimals toward zero, as
they are when they are cut to a multiple of a width. `Binary64.units` goes the other way: it turns a
number of large units into a whole number of small ones.
-/

namespace PartitionPruning

namespace Binary64

open Numeral

/-- The integer nearest to `n · 2 ^ e`, a half going down. -/
def nearestDown (n : Int) (e : Int) : Int :=
  let den : Int := 2 ^ (-e).toNat
  (2 * (n * 2 ^ e.toNat) + den - 1) / (2 * den)

/-- The quotient of a finite number and a positive one, rounded to the format. -/
def quotient (x y : Binary64) : Binary64 :=
  let e := min x.magnitude.2 y.magnitude.2
  let n := x.scaledTo e
  (ofFraction? (n < 0) n.natAbs (y.scaledTo e).natAbs).getD (infinity (n < 0))

/-- How often a width goes into a number, rounding down. The remainder is taken away first, with
rounding to the format, and so is the one that a negative remainder costs. A quotient of zero has
the sign of the number. -/
def floorQuotient (width : Nat) (x : Binary64) : Binary64 :=
  if x.isNaN || x.isInfinite then nan
  else
    let w := ofDyadic width 0
    let e := min x.magnitude.2 w.magnitude.2
    let r := (x.scaledTo e).tmod (w.scaledTo e)
    let q := (x.difference (ofDyadic r e)).quotient w
    let q := if r < 0 then q.difference (ofDyadic 1 0) else q
    let (m, g) := q.magnitude
    if m = 0 then assemble x.isNegative 0 (-1074)
    else ofDyadic (nearestDown (signed q.isNegative m) g) 0

/-- The number of small units in a finite number of large ones, of which a large one has `size`. The
fraction of a large unit is rounded to the format, and then everything to a whole number of small
units, a half to the even one. -/
def units (size : Nat) (x : Binary64) : Int :=
  let (m, e) := x.magnitude
  if 0 ≤ e then signed x.isNegative (m * 2 ^ e.toNat * size)
  else
    let den := 2 ^ e.natAbs
    let (part, g) := (BinaryFormat.double.round? (m % den * size) den).getD (0, 0)
    let num := m / den * size * 2 ^ (-g).toNat + part * 2 ^ g.toNat
    signed x.isNegative (BinaryFormat.divideHalfEven num (2 ^ (-g).toNat))

end Binary64

namespace Decimal

open Numeral

/-- How often a width goes into a number, rounding toward zero. There is no such integer if it has
more digits than the working precision. -/
def wholeQuotient? (width : Nat) : Decimal → Option Decimal
  | .infinite negative => some (.infinite negative)
  | .nan negative signaling payload => if signaling then none else some (.nan negative false payload)
  | .finite negative c e =>
    if c = 0 ∨ e + digitCount c ≤ 0 then some (.finite negative 0 0)
    else if (workingPrecision : Int) + digitCount width < e + digitCount c then none
    else
      let q := c * 10 ^ e.toNat / (width * 10 ^ (-e).toNat)
      if workingPrecision < digitCount q then none else some (.finite negative q 0)

/-- Whether the remainder after division by a width is defined. -/
def hasRemainder (width : Nat) : Decimal → Bool
  | .infinite _ => false
  | d => (d.wholeQuotient? width).isSome

end Decimal

end PartitionPruning
