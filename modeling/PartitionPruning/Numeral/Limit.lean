import PartitionPruning.Fault
import PartitionPruning.Numeral.Integer

/-!
# The limit on numerals

Integers are neither read from more than `digitLimit` digits nor written with more of them. A text that
holds numbers is written by `Numeral.write`; it cannot be written if one of them is too long.
-/

namespace PartitionPruning.Numeral

/-- Whether the numeral of a number is short enough to be read and to be written. -/
def Readable (n : Nat) : Prop := digitCount n ≤ digitLimit

instance (n : Nat) : Decidable (Readable n) := inferInstanceAs (Decidable (_ ≤ _))

/-- The number that a row of digits of any script stands for. -/
def ofDigits (digits : List Char) : Except Fault Nat :=
  if digits.length ≤ digitLimit then .ok (natOfDigits Text.digitValue? digits)
  else .error .numeralTooLong

/-- A text in which some numbers are written. -/
def write (numbers : List Nat) (text : String) : Except Fault String :=
  if ∀ n ∈ numbers, Readable n then .ok text else .error .numeralTooLong

/-- A text is written as it is if no number in it is too long. -/
theorem write_of_readable {numbers : List Nat} (h : ∀ n ∈ numbers, Readable n) (text : String) :
    write numbers text = .ok text := if_pos h

end PartitionPruning.Numeral
