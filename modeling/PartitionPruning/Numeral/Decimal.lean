import PartitionPruning.Numeral.Power
import PartitionPruning.Numeral.Scientific

/-!
# Decimal numbers

A finite decimal is a signed coefficient and a power of ten; `1.20` and `1.2` are the same number in
two representations, and both are kept apart because a column of decimals has a fixed scale. Besides
there are the infinities and the quiet and signaling values that are not numbers.

`Decimal.order?` compares numbers, `Decimal.render` and `Decimal.parse?` are the text forms,
`Decimal.quantize?` rounds to a power of ten within the working precision.
-/

namespace PartitionPruning

/-- A decimal number in one of its representations. -/
inductive Decimal where
  | finite (negative : Bool) (coefficient : Nat) (exponent : Int)
  | infinite (negative : Bool)
  | nan (negative signaling : Bool) (payload : Nat)
  deriving DecidableEq, Repr

namespace Decimal

open Numeral

/-! ### Unscaled values -/

def ofInt (n : Int) : Decimal := .finite (n < 0) n.natAbs 0

/-- The digits as a signed integer, without regard to the exponent. -/
def unscaled : Decimal → Int
  | .finite negative c _ => signed negative c
  | .infinite _ => 0
  | .nan negative _ payload => signed negative payload

/-- The distance of the exponent from zero; only finite numbers have one. -/
def scale? : Decimal → Option Nat
  | .finite _ _ e => some e.natAbs
  | _ => none

/-- The number with the given unscaled value and scale. -/
def ofUnscaled (n : Int) (scale : Int) : Decimal := .finite (n < 0) n.natAbs (-scale)

/-- The digits of any value with another scale; the infinities have the digit zero. -/
def withScale (x : Decimal) (scale : Int) : Decimal :=
  match x with
  | .finite negative c _ => .finite negative c (-scale)
  | .infinite negative => .finite negative 0 (-scale)
  | .nan negative _ payload => .finite negative payload (-scale)

def isNaN : Decimal → Bool
  | .nan .. => true
  | _ => false

/-- Whether the value refuses to be compared at all. -/
def isSignaling : Decimal → Bool
  | .nan _ s _ => s
  | _ => false

/-- A number is read off the digits that it was made of, whatever the scale. -/
theorem unscaled_ofUnscaled (n scale : Int) : (ofUnscaled n scale).unscaled = n := by
  simp only [ofUnscaled, unscaled, signed]
  split <;> rename_i h <;> simp at h <;> omega

/-- An integer is made of itself, without a scale. -/
theorem unscaled_ofInt (n : Int) : (ofInt n).unscaled = n := by
  simp only [ofInt, unscaled, signed]
  split <;> rename_i h <;> simp at h <;> omega

/-- An integer that is given a scale is read as so many units of the last place. -/
theorem withScale_ofInt (n scale : Int) : (ofInt n).withScale scale = ofUnscaled n scale := rfl

/-- The scale of a number is the one that it was made with. -/
theorem scale?_ofUnscaled (n : Int) (scale : Nat) : (ofUnscaled n scale).scale? = some scale := by
  simp [ofUnscaled, scale?]

/-! ### Order -/

/-- The order of two positive numbers, given as coefficients and powers of ten. The positions of the
leading digits are compared first, so that no large power of ten is built in vain. -/
def orderMagnitude (c₁ : Nat) (e₁ : Int) (c₂ : Nat) (e₂ : Int) : Ordering :=
  let top₁ := e₁ + digitCount c₁
  let top₂ := e₂ + digitCount c₂
  if top₁ ≠ top₂ then compare top₁ top₂
  else compare (c₁ * 10 ^ (e₁ - e₂).toNat) (c₂ * 10 ^ (e₂ - e₁).toNat)

def orderFinite (n₁ : Int) (e₁ : Int) (n₂ : Int) (e₂ : Int) : Ordering :=
  if e₁ = e₂ ∨ n₁.sign ≠ n₂.sign ∨ n₁ = 0 then compare n₁ n₂
  else if 0 < n₁ then orderMagnitude n₁.natAbs e₁ n₂.natAbs e₂
  else orderMagnitude n₂.natAbs e₂ n₁.natAbs e₁

/-- The order of two numbers, none when one of them is not a number. -/
def order? : Decimal → Decimal → Option Ordering
  | .nan .., _ | _, .nan .. => none
  | .infinite a, .infinite b => some (compare b a)
  | .infinite a, .finite .. => some (if a then .lt else .gt)
  | .finite .., .infinite b => some (if b then .gt else .lt)
  | .finite s₁ c₁ e₁, .finite s₂ c₂ e₂ => some (orderFinite (signed s₁ c₁) e₁ (signed s₂ c₂) e₂)

/-- Integers are ordered as decimal numbers as they are among themselves. -/
theorem order?_ofInt (m n : Int) : order? (ofInt m) (ofInt n) = some (compare m n) := by
  have hm := unscaled_ofInt m
  have hn := unscaled_ofInt n
  simp only [ofInt, unscaled] at hm hn
  simp [ofInt, order?, orderFinite, hm, hn]

/-! ### Text -/

/-- The sign in front of a negative number. -/
def signText (negative : Bool) : String := if negative then "-" else ""

def exponentText (e : Int) : String := "E" ++ (if e < 0 then "" else "+") ++ toString e

/-- The text of a finite number: positional when the exponent is not positive and the first digit
stands at most six places behind the point, with an exponent otherwise. -/
def renderFinite (c : Nat) (e : Int) : String :=
  let digits := Nat.toDigits 10 c
  let left : Int := e + digits.length
  let point : Int := if e ≤ 0 ∧ -6 < left then left else 1
  let body :=
    if point ≤ 0 then '0' :: '.' :: (List.replicate point.natAbs '0' ++ digits)
    else if (digits.length : Int) ≤ point then digits
    else digits.take point.toNat ++ '.' :: digits.drop point.toNat
  String.ofList body ++ (if left = point then "" else exponentText (left - point))

def render : Decimal → String
  | .finite negative c e => signText negative ++ renderFinite c e
  | .infinite negative => signText negative ++ "Infinity"
  | .nan negative signaling payload =>
    signText negative ++ (if signaling then "sNaN" else "NaN") ++
      (if payload = 0 then "" else toString payload)

/-- The largest power of ten of a leading digit. -/
def topExponent : Int := 999999999999999999

/-- The smallest power of ten of a last digit. -/
def bottomExponent : Int := -1999999999999999997

/-- Whether a finite number is within the limits of the arithmetic. -/
def inLimits (c : Nat) (e : Int) : Bool :=
  bottomExponent ≤ e && (if c = 0 then e else e + digitCount c - 1) ≤ topExponent

/-- Reads a value that is not a number: its word and then the digits of the payload. -/
def parseNaN? (negative : Bool) (cs : List Char) : Option Decimal :=
  let word := cs.takeWhile (!Scientific.isDigit ·)
  let digits := cs.dropWhile (!Scientific.isDigit ·)
  if digits.all Scientific.isDigit then
    let payload := natOfDigits Text.asciiDigit? digits
    if Scientific.sameWord word "nan" then some (.nan negative false payload)
    else if Scientific.sameWord word "snan" then some (.nan negative true payload)
    else none
  else none

/-- Reads a decimal. White space around it is ignored and so are underscores anywhere. -/
def parse? (s : String) : Option Decimal :=
  let cs := Scientific.toAscii ((Text.stripChars Text.isBlank s.toList).filter (· ≠ '_'))
  let (negative, body) := splitSign cs
  if Scientific.sameWord body "inf" || Scientific.sameWord body "infinity" then
    some (.infinite negative)
  else match Scientific.scan? body with
    | some (c, e) => if inLimits c e then some (.finite negative c e) else none
    | none => parseNaN? negative body

/-! ### Rounding -/

/-- The precision that results of rounding may need. -/
def workingPrecision : Nat := 28

/-- The smallest power of ten that a number can be rounded to. -/
def lowestPlace : Int := -1000026

/-- The largest power of ten that a number can be rounded to. -/
def highestPlace : Int := 999999

/-- Whether the sum of a number and an integer, which is small beside the largest numbers, is beyond
them when it is rounded to the working precision. -/
def overflowsWith (n : Int) : Decimal → Bool
  | .finite negative c e =>
    let top := e + digitCount c - 1
    if c = 0 ∨ top < highestPlace then false
    else if highestPlace < top then true
    else
      let sum := (signed negative c * 10 ^ e.toNat + n * 10 ^ (-e).toNat).natAbs
      let limit := (2 * 10 ^ workingPrecision - 1) *
        10 ^ (highestPlace.toNat + 1 - workingPrecision)
      limit * 10 ^ (-e).toNat ≤ 2 * sum
  | _ => false

/-- A coefficient divided by a power of ten, a half going away from zero. -/
def divideHalfUp (c : Nat) (places : Nat) : Nat :=
  let d := 10 ^ places
  if d ≤ 2 * (c % d) then c / d + 1 else c / d

/-- The number rounded to a power of ten, a half going away from zero. There is none when the result
would need more digits than the working precision has, or for an infinity. -/
def quantize? (x : Decimal) (e : Int) : Option Decimal :=
  match x with
  | .finite negative c e₀ =>
    if e < lowestPlace ∨ highestPlace < e then none
    else if c = 0 then some (.finite negative 0 e)
    else if (workingPrecision : Int) + 1 < digitCount c + (e₀ - e) then none
    else
      let c' := if e ≤ e₀ then c * 10 ^ (e₀ - e).toNat else divideHalfUp c (e - e₀).toNat
      if workingPrecision < digitCount c' then none else some (.finite negative c' e)
  | .infinite _ => none
  | .nan negative signaling payload => if signaling then none else some (.nan negative false payload)

/-- A number that is brought to an exponent has that exponent, and its sign stays. -/
theorem exponent_quantize? {negative : Bool} {c : Nat} {e₀ e : Int} {y : Decimal}
    (h : quantize? (.finite negative c e₀) e = some y) :
    ∃ c', y = .finite negative c' e := by
  simp only [quantize?] at h
  split at h
  · simp at h
  · split at h
    · exact ⟨0, by simpa using h.symm⟩
    · split at h
      · simp at h
      · generalize (if e ≤ e₀ then _ else _ : Nat) = c' at h
        split at h
        · simp at h
        · exact ⟨c', by simpa using h.symm⟩

/-! ### Bytes -/

/-- How many bytes hold an integer in two's complement: one sign bit on top of the magnitude, where
a negative number is stored as the complement of one less. -/
def byteCount (n : Int) : Nat :=
  let m := if 0 ≤ n then n.toNat else (-n - 1).toNat
  (if m = 0 then 0 else m.log2 + 1) / 8 + 1

/-- The lowest `width` bytes of an integer in two's complement, most significant byte first. -/
def bigEndian (n : Int) : (width : Nat) → List UInt8
  | 0 => []
  | width + 1 => UInt8.ofNat ((n / 256 ^ width) % 256).toNat :: bigEndian n width

/-- The shortest two's complement form of the unscaled value. -/
def toBytes (x : Decimal) : List UInt8 := bigEndian x.unscaled (byteCount x.unscaled)

/-- As many bytes are written as are asked for. -/
theorem length_bigEndian (n : Int) (width : Nat) : (bigEndian n width).length = width := by
  induction width with
  | zero => rfl
  | succ w ih => simp [bigEndian, ih]

/-- The unscaled value rounded down to a multiple of the width, in the same scale. -/
def truncate (x : Decimal) (width : Int) (scale : Nat) : Decimal :=
  ofUnscaled (x.unscaled - x.unscaled.fmod width) scale

end Decimal

end PartitionPruning
