import PartitionPruning.Numeral.Multiple

/-!
# Sums and remainders

Doubles and decimals are added and divided with a remainder as exact numbers and rounded afterwards,
doubles to the nearest double and decimals to the working precision. The remainder of doubles has the
sign of the divisor and that of decimals the sign of the dividend.
-/

namespace PartitionPruning

namespace Binary64

def zero (negative : Bool) : Binary64 := assemble negative 0 (-1074)

def isZero (x : Binary64) : Bool := x.magnitude.1 = 0

/-- The value with the other sign. -/
def negate (x : Binary64) : Binary64 := ⟨x.bits ^^^ 0x8000000000000000⟩

def plus (x y : Binary64) : Binary64 :=
  if x.isNaN || y.isNaN then nan
  else if x.isInfinite then
    if y.isInfinite && x.isNegative != y.isNegative then nan else x
  else if y.isInfinite then y
  else if x.isZero && y.isZero then zero (x.isNegative && y.isNegative)
  else
    let e := min x.magnitude.2 y.magnitude.2
    ofDyadic (x.scaledTo e + y.scaledTo e) e

/-- The remainder toward zero of two finite values, of which the second one is not zero. -/
def remainder (x y : Binary64) : Binary64 :=
  let e := min x.magnitude.2 y.magnitude.2
  let r := (x.scaledTo e).tmod (y.scaledTo e)
  if r = 0 then zero x.isNegative else ofDyadic r e

/-- The remainder after division by a value that is not zero, with the sign of that value. -/
def modulo (x y : Binary64) : Binary64 :=
  if x.isNaN || y.isNaN || x.isInfinite then nan
  else
    let r := if y.isInfinite then x else x.remainder y
    if r.isZero then zero y.isNegative
    else if r.isNegative != y.isNegative then r.plus y
    else r

/-- An integer cut to a multiple of a width that is not zero, if the integer is in the range of
doubles. The width is added to the remainder and the remainder is taken again. -/
def cutInteger? (width : Binary64) (n : Int) : Option Binary64 :=
  (ofInt? n).map fun x => x.plus (((x.modulo width).plus width).modulo width).negate

end Binary64

namespace Decimal

open Numeral

/-- What goes wrong in the arithmetic of decimals. -/
inductive Trouble where
  | undefined
  | overflow
  deriving DecidableEq, Repr

/-- The power of ten of the first digit. -/
def leading (c : Nat) (e : Int) : Int := e + digitCount c - 1

/-- A number rounded to the working precision; it may be beyond the largest one. -/
def rounded (n : Int) (e : Int) : Except Trouble (Int × Int) :=
  let (c, g) := fit n.natAbs e
  if c ≠ 0 ∧ highestPlace < leading c g then .error .overflow
  else .ok (n.sign * c, g)

/-- A number that is so far below another one that only its sign counts is moved up to a place where
it counts the same. -/
def nearTo (n : Int) (e : Int) (m : Int) (g : Int) : Int × Int :=
  let place := e - 1 + min 0 ((digitCount n.natAbs : Int) - workingPrecision - 1)
  if n ≠ 0 ∧ g < e ∧ leading m.natAbs g < place then (m.sign, place) else (m, g)

def sumFinite (n e m g : Int) : Except Trouble (Int × Int) :=
  let (m, g) := nearTo n e m g
  let (n, e) := nearTo m g n e
  let low := min e g
  rounded (n * 10 ^ (e - low).toNat + m * 10 ^ (g - low).toNat) low

/-- The remainder of a finite number after division by one that is not zero, with the sign of the
former. There is none if the quotient has too many digits. -/
def remainderFinite (n e m g : Int) : Except Trouble (Int × Int) :=
  let low := min e g
  if n = 0 then rounded 0 low
  else if orderMagnitude n.natAbs e m.natAbs g = .lt then rounded (n * 10 ^ (e - low).toNat) low
  else if (workingPrecision : Int) < leading n.natAbs e - leading m.natAbs g then .error .undefined
  else
    let num := n * 10 ^ (e - low).toNat
    let den := m * 10 ^ (g - low).toNat
    if workingPrecision < digitCount (num.natAbs / den.natAbs) then .error .undefined
    else rounded (num.tmod den) low

/-- The largest count of digits that tell one value that is not a number from another. -/
def payloadLimit : Nat := 10 ^ workingPrecision

/-- An integer cut to a multiple of a width. The width is added to the remainder and the remainder is
taken again. -/
def cutInteger (n : Int) : Decimal → Except Trouble Decimal
  | .nan negative signaling payload =>
    if signaling then .error .undefined else .ok (.nan negative false (payload % payloadLimit))
  | .infinite _ => .error .undefined
  | .finite negative c g => do
    let width := signed negative c
    if width = 0 then throw .undefined
    let r ← remainderFinite n 0 width g
    let r ← sumFinite r.1 r.2 width g
    let r ← remainderFinite r.1 r.2 width g
    let (k, e) ← sumFinite n 0 (-r.1) r.2
    pure (.finite (k < 0) k.natAbs e)

end Decimal

end PartitionPruning
