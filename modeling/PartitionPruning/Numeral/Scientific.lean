import PartitionPruning.Numeral.Integer

/-!
# Scientific notation

The common shape of decimal fractions: digits, a point and further digits, and an exponent after an
`e`, where either side of the point and the exponent may be left out. `scan?` gives the number as a
coefficient and a power of ten.
-/

namespace PartitionPruning.Numeral.Scientific

/-- Whether a character is an ASCII digit. -/
def isDigit (c : Char) : Bool := (Text.asciiDigit? c).isSome

/-- Reads a signed exponent of at least one digit. -/
def exponent? (cs : List Char) : Option Int :=
  let (negative, digits) := splitSign cs
  if digits ≠ [] ∧ digits.all isDigit then
    some (signed negative (natOfDigits Text.asciiDigit? digits))
  else none

/-- Reads an unsigned number of ASCII digits as a coefficient and a power of ten. -/
def scan? (cs : List Char) : Option (Nat × Int) :=
  let whole := cs.takeWhile isDigit
  let afterWhole := cs.dropWhile isDigit
  let (part, rest) := match afterWhole with
    | '.' :: r => (r.takeWhile isDigit, r.dropWhile isDigit)
    | r => ([], r)
  let coefficient := natOfDigits Text.asciiDigit? (whole ++ part)
  if whole = [] ∧ part = [] then none
  else match rest with
    | [] => some (coefficient, -(part.length : Int))
    | c :: r =>
      if c = 'e' ∨ c = 'E' then (exponent? r).map fun e => (coefficient, e - part.length)
      else none

/-- The ASCII form of a numeral: digits of any script become ASCII digits. -/
def toAscii (cs : List Char) : List Char :=
  cs.map fun c => match Text.digitValue? c with
    | some d => Char.ofNat (0x30 + d)
    | none => c

/-- Whether two words agree when ASCII case is ignored. -/
def sameWord (cs : List Char) (word : String) : Bool := cs.map Char.toLower == word.toList

/-- Digits of any script are replaced by as many ASCII digits. -/
theorem length_toAscii (cs : List Char) : (toAscii cs).length = cs.length := by
  simp [toAscii]

end PartitionPruning.Numeral.Scientific
