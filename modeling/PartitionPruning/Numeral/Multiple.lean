import PartitionPruning.Numeral.Binary64

/-!
# Multiples of a width

Every kind of number can be cut to a multiple of a width. Integers and doubles are rounded down,
decimals toward zero. Integers are exact; doubles and decimals are rounded after the remainder is
taken and again after it is subtracted, the former to the nearest double, the latter to the working
precision.
-/

namespace PartitionPruning

namespace Numeral

/-- The largest multiple of a width that is not above an integer. -/
def floorMultiple (width : Nat) (n : Int) : Int := n - n % width

/-- A number is cut downwards, below zero as well. -/
theorem floorMultiple_le {width : Nat} (h : 0 < width) (n : Int) : floorMultiple width n ≤ n := by
  have := Int.emod_nonneg n (b := width) (by omega)
  simp only [floorMultiple]
  omega

/-- A number is cut by less than the width. -/
theorem lt_floorMultiple_add {width : Nat} (h : 0 < width) (n : Int) :
    n < floorMultiple width n + width := by
  have := Int.emod_lt_of_pos n (b := width) (by omega)
  simp only [floorMultiple]
  omega

/-- What is left of a number is a multiple of the width. -/
theorem dvd_floorMultiple (width : Nat) (n : Int) : (width : Int) ∣ floorMultiple width n :=
  Int.dvd_self_sub_emod

end Numeral

namespace Binary64

/-- The double nearest to `n · 2 ^ e`, infinite beyond the range. -/
def ofDyadic (n : Int) (e : Int) : Binary64 :=
  (ofFraction? (n < 0) (n.natAbs * 2 ^ e.toNat) (2 ^ (-e).toNat)).getD (infinity (n < 0))

/-- A finite number as a multiple of `2 ^ e`, which must not be above its last bit. -/
def scaledTo (x : Binary64) (e : Int) : Int :=
  let (m, e₀) := x.magnitude
  Numeral.signed x.isNegative (m * 2 ^ (e₀ - e).toNat)

/-- The difference of two finite numbers. -/
def difference (x y : Binary64) : Binary64 :=
  let e := min x.magnitude.2 y.magnitude.2
  ofDyadic (x.scaledTo e - y.scaledTo e) e

/-- The number rounded down to a multiple of a width, which has to be the range of doubles. -/
def floorMultiple? (width : Nat) (x : Binary64) : Option Binary64 :=
  (ofInt? width).map fun w =>
    if x.isNaN || x.isInfinite then nan
    else
      let e := min x.magnitude.2 w.magnitude.2
      let r := (x.scaledTo e).fmod (w.scaledTo e)
      if r = 0 then x else x.difference (ofDyadic r e)

end Binary64

namespace Decimal

open Numeral

/-- A coefficient with as many digits as the working precision has at most and no digit below the
lowest place, and its exponent; what is cut off is rounded, a half to the even neighbour. -/
def fit (c : Nat) (e : Int) : Nat × Int :=
  let place := max (e + digitCount c - workingPrecision) lowestPlace
  if place ≤ e then (c, e)
  else if digitCount c < place - e then (0, place)
  else
    let c' := BinaryFormat.divideHalfEven c (10 ^ (place - e).toNat)
    if workingPrecision < digitCount c' then (c' / 10, place + 1) else (c', place)

/-- The remainder of a positive number after division by a width, as a coefficient and an exponent.
There is none if the quotient has too many digits. -/
def remainder? (c : Nat) (e : Int) (width : Nat) : Option (Nat × Int) :=
  if e + digitCount c ≤ 0 then some (c, e)
  else if (workingPrecision : Int) + digitCount width < e + digitCount c then none
  else
    let num := c * 10 ^ e.toNat
    let den := width * 10 ^ (-e).toNat
    if workingPrecision < digitCount (num / den) then none else some (num % den, min e 0)

/-- What is left of a positive number when a remainder is taken away, with the sign of the number. -/
def without (negative : Bool) (c : Nat) (e : Int) (r : Nat) (g : Int) : Decimal :=
  let low := min e g
  let left : Int :=
    if r = 0 ∧ e ≤ g then c else c * 10 ^ (e - low).toNat - r * 10 ^ (g - low).toNat
  let (d, h) := fit left.natAbs low
  .finite (if negative then 0 < left else left < 0) d h

/-- The number cut to a multiple of a width toward zero. -/
def cutToMultiple? (width : Nat) : Decimal → Option Decimal
  | .infinite _ => none
  | .nan negative signaling payload => if signaling then none else some (.nan negative false payload)
  | .finite negative c e =>
    if c = 0 then some (.finite false 0 (max (min e 0) lowestPlace))
    else (remainder? c e width).map fun (r, g) =>
      let (r, g) := fit r g
      without negative c e r g

end Decimal

end PartitionPruning
