import PartitionPruning.Numeral.Decimal

/-!
# Double-precision numbers

A double is its sixty-four bits. Its magnitude is `m · 2 ^ e` with a natural `m` below `2 ^ 53`, and
everything here is exact arithmetic on `m` and `e`: rounding a fraction to the nearest double or
single, the shortest text that reads back, the exact decimal value and the integer part.
-/

namespace PartitionPruning

/-- A binary interchange format: how many significant bits it has, the power of two of its smallest
number, and the power of two that its numbers stay below. -/
structure BinaryFormat where
  precision : Nat
  bottom : Int
  top : Int

namespace BinaryFormat

def double : BinaryFormat := ⟨53, -1074, 1024⟩

def single : BinaryFormat := ⟨24, -149, 128⟩

/-- The quotient rounded to the nearest integer, a tie going to the even one. -/
def divideHalfEven (num den : Nat) : Nat :=
  let q := num / den
  let r := num % den
  if 2 * r < den then q else if den < 2 * r then q + 1 else q + q % 2

/-- A fraction divided by a power of two. -/
def shift (num den : Nat) (e : Int) : Nat × Nat :=
  if 0 ≤ e then (num, den * 2 ^ e.toNat) else (num * 2 ^ e.natAbs, den)

/-- The power of two of the last bit of a positive fraction in the format. -/
def lastBit (f : BinaryFormat) (num den : Nat) : Int :=
  let e : Int := (num.log2 : Int) - den.log2 - (f.precision - 1 : Nat)
  let (n, d) := shift num den e
  max f.bottom (if n < d * 2 ^ (f.precision - 1) then e - 1 else e)

/-- The nearest number of the format to a fraction, as `m · 2 ^ e`, or none beyond its range. -/
def round? (f : BinaryFormat) (num den : Nat) : Option (Nat × Int) :=
  if num = 0 then some (0, f.bottom)
  else
    let e := f.lastBit num den
    let (n, d) := shift num den e
    let m := divideHalfEven n d
    if m ≠ 0 ∧ f.top ≤ e + m.log2 then none else some (m, e)

/-- A whole number is not rounded. -/
theorem divideHalfEven_one (n : Nat) : divideHalfEven n 1 = n := by
  simp [divideHalfEven, Nat.mod_one]

end BinaryFormat

/-- A double-precision number. -/
structure Binary64 where
  bits : UInt64
  deriving DecidableEq, Repr

namespace Binary64

open Numeral

/-! ### Parts -/

def isNegative (x : Binary64) : Bool := 2 ^ (63 : Nat) ≤ x.bits.toNat

def exponentField (x : Binary64) : Nat := x.bits.toNat / 2 ^ (52 : Nat) % 2 ^ (11 : Nat)

def fraction (x : Binary64) : Nat := x.bits.toNat % 2 ^ (52 : Nat)

def isNaN (x : Binary64) : Bool := x.exponentField = 2047 && x.fraction ≠ 0

def isInfinite (x : Binary64) : Bool := x.exponentField = 2047 && x.fraction = 0

/-- The magnitude of a finite number as `m · 2 ^ e`. -/
def magnitude (x : Binary64) : Nat × Int :=
  if x.exponentField = 0 then (x.fraction, -1074)
  else (2 ^ (52 : Nat) + x.fraction, (x.exponentField : Int) - 1075)

/-- The number with the given sign and magnitude, which must be in the format. -/
def assemble (negative : Bool) (m : Nat) (e : Int) : Binary64 :=
  ⟨UInt64.ofNat ((if negative then 2 ^ (63 : Nat) else 0) + (e + 1074).toNat * 2 ^ (52 : Nat) + m)⟩

def infinity (negative : Bool) : Binary64 :=
  ⟨if negative then 0xFFF0000000000000 else 0x7FF0000000000000⟩

/-- A value that is not a number. -/
def nan : Binary64 := ⟨0x7FF8000000000000⟩

/-! ### Rounding to the format -/

/-- The double nearest to a fraction, none beyond the range. -/
def ofFraction? (negative : Bool) (num den : Nat) : Option Binary64 :=
  (BinaryFormat.double.round? num den).map fun (m, e) => assemble negative m e

/-- The double nearest to an integer, none beyond the range. -/
def ofInt? (n : Int) : Option Binary64 := ofFraction? (n < 0) n.natAbs 1

/-- The double nearest to a coefficient times a power of ten; infinite beyond the range. -/
def ofScientific (negative : Bool) (c : Nat) (e : Int) : Binary64 :=
  if c = 0 then assemble negative 0 (-1074)
  else if 400 < e + digitCount c then infinity negative
  else if e + digitCount c < -400 then assemble negative 0 (-1074)
  else
    let fraction := if 0 ≤ e then (c * 10 ^ e.toNat, 1) else (c, 10 ^ e.natAbs)
    (ofFraction? negative fraction.1 fraction.2).getD (infinity negative)

/-- The single nearest to a double, as a double; none when a finite number leaves the range. -/
def toSingle? (x : Binary64) : Option Binary64 :=
  if x.isNaN || x.isInfinite then some x
  else
    let (m, e) := x.magnitude
    let (num, den) := if 0 ≤ e then (m * 2 ^ e.toNat, 1) else (m, 2 ^ e.natAbs)
    match BinaryFormat.single.round? num den with
    | some (m', e') => ofFraction? x.isNegative
        (if 0 ≤ e' then m' * 2 ^ e'.toNat else m') (if 0 ≤ e' then 1 else 2 ^ e'.natAbs)
    | none => none

/-! ### Exact values -/

/-- The exact value as a decimal with as few places behind the point as it takes. -/
def toDecimal (x : Binary64) : Decimal :=
  if x.isNaN then .nan false false 0
  else if x.isInfinite then .infinite x.isNegative
  else
    let (m, e) := x.magnitude
    if 0 ≤ e then .finite x.isNegative (m * 2 ^ e.toNat) 0
    else
      let common := m.gcd (2 ^ e.natAbs)
      let places := e.natAbs - common.log2
      .finite x.isNegative (m / common * 5 ^ places) (-places)

/-- The integer part of a finite number. -/
def truncate (x : Binary64) : Int :=
  let (m, e) := x.magnitude
  signed x.isNegative (if 0 ≤ e then m * 2 ^ e.toNat else m / 2 ^ e.natAbs)

/-! ### Shortest text -/

/-- A positive number and the ends of the interval of reals that round to it, over one denominator.
The ends belong to the interval when the last bit of the number is zero. -/
structure Interval where
  low : Nat
  value : Nat
  high : Nat
  den : Nat
  closed : Bool

/-- The rounding interval of a positive finite number: it reaches half a unit of the last bit to each
side, but only a quarter down from a power of two. -/
def Interval.of (m : Nat) (e : Int) : Interval :=
  let below := if m = 2 ^ (52 : Nat) ∧ -1074 < e then 1 else 2
  let scale := 2 ^ (e - 2).toNat
  ⟨(4 * m - below) * scale, 4 * m * scale, (4 * m + 2) * scale, 2 ^ (2 - e).toNat, m % 2 = 0⟩

/-- Whether the interval holds `k · 10 ^ g`. -/
def Interval.holds (i : Interval) (k : Nat) (g : Int) : Bool :=
  let point := k * 10 ^ g.toNat * i.den
  let unit := 10 ^ (-g).toNat
  if i.closed then i.low * unit ≤ point && point ≤ i.high * unit
  else i.low * unit < point && point < i.high * unit

/-- The power of ten of the leading digit of `num / den`. -/
def leadingPlace (num den : Nat) : Int :=
  let d : Int := (digitCount num : Int) - digitCount den
  if den * 10 ^ d.toNat ≤ num * 10 ^ (-d).toNat then d else d - 1

/-- The nearer of the neighbours of the value on the grid of step `10 ^ g` that lie in the interval;
of two equally near ones the even one. -/
def Interval.nearest? (i : Interval) (g : Int) : Option Nat :=
  let num := i.value * 10 ^ (-g).toNat
  let den := i.den * 10 ^ g.toNat
  let k := num / den
  let r := num % den
  match i.holds k g, i.holds (k + 1) g with
  | false, false => none
  | true, false => some k
  | false, true => some (k + 1)
  | true, true =>
    some (if 2 * r < den then k else if den < 2 * r then k + 1 else k + k % 2)

/-- The first grid, from coarse to fine, on which the interval has a point. -/
def Interval.shortest (i : Interval) (top : Int) : (tries digits : Nat) → Nat × Int
  | 0, digits => (i.value / i.den, top - digits)
  | tries + 1, digits =>
    let g := top + 1 - digits
    match i.nearest? g with
    | some k => (k, g)
    | none => Interval.shortest i top tries (digits + 1)

/-- The fewest significant digits that read back as the number: a coefficient that does not end in
zero and its power of ten. -/
def shortestDigits (m : Nat) (e : Int) : Nat × Int :=
  let i := Interval.of m e
  i.shortest (leadingPlace i.value i.den) 17 1

/-- The digits of a number without its trailing zeros, and how many those are. -/
def dropTrailingZeros (digits : List Char) : List Char × Nat :=
  let kept := (digits.reverse.dropWhile (· = '0')).reverse
  (kept, digits.length - kept.length)

/-- The layout of the digits of a positive number: positional from the fourth place behind the point
up to the sixteenth place in front of it, with at least one digit behind the point; otherwise with an
exponent of at least two digits. -/
def layout (digits : List Char) (e : Int) : List Char :=
  let point := e + digits.length
  if -4 < point ∧ point ≤ 16 then
    if point ≤ 0 then '0' :: '.' :: (List.replicate point.natAbs '0' ++ digits)
    else
      let whole := digits.take point.toNat ++ List.replicate (point - digits.length).toNat '0'
      let part := digits.drop point.toNat
      whole ++ '.' :: (if part = [] then ['0'] else part)
  else
    let exponent := point - 1
    let expDigits := Nat.toDigits 10 exponent.natAbs
    let mantissa := match digits with
      | d :: [] => [d]
      | d :: ds => d :: '.' :: ds
      | [] => []
    mantissa ++ 'e' :: (if exponent < 0 then '-' else '+') ::
      (List.replicate (2 - expDigits.length) '0' ++ expDigits)

/-- The shortest text of a double. -/
def render (x : Binary64) : String :=
  if x.isNaN then "nan"
  else if x.isInfinite then if x.isNegative then "-inf" else "inf"
  else
    let (m, e) := x.magnitude
    let body :=
      if m = 0 then ['0', '.', '0']
      else
        let (k, g) := shortestDigits m e
        let (digits, zeros) := dropTrailingZeros (Nat.toDigits 10 k)
        layout digits (g + zeros)
    String.ofList (if x.isNegative then '-' :: body else body)

/-! ### Reading -/

/-- Drops underscores that stand between two digits; there may be no others. -/
def dropUnderscores? (afterDigit : Bool) : List Char → Option (List Char)
  | [] => some []
  | '_' :: c :: rest =>
    if afterDigit && Scientific.isDigit c then
      (dropUnderscores? true rest).map (c :: ·)
    else none
  | c :: rest =>
    if c = '_' then none else (dropUnderscores? (Scientific.isDigit c) rest).map (c :: ·)

/-- Reads a floating-point numeral. Blanks around it are ignored, single underscores may separate
digits, and the words for the infinities and for what is not a number are read in any case. -/
def parse? (s : String) : Option Binary64 := do
  let stripped := Text.stripChars Text.isNumeralBlank s.toList
  let cs ← dropUnderscores? false (Scientific.toAscii stripped)
  let (negative, body) := splitSign cs
  if Scientific.sameWord body "inf" || Scientific.sameWord body "infinity" then
    pure (infinity negative)
  else if Scientific.sameWord body "nan" then pure nan
  else
    let (c, e) ← Scientific.scan? body
    pure (ofScientific negative c e)

end Binary64

end PartitionPruning
