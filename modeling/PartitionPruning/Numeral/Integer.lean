import PartitionPruning.Text.Blank
import PartitionPruning.Text.Digit
import PartitionPruning.Text.Hex

/-!
# Integer numerals

An integer is written as an optional sign and digits of any script; single underscores may separate
digits and blanks may surround the whole. `parse?` reads base ten and refuses numerals of more than
`digitLimit` digits; `parseHex?` reads base sixteen, with or without a leading `0x`.
-/

namespace PartitionPruning.Numeral

/-- The longest decimal integer numeral that is read or written. -/
def digitLimit : Nat := 4300

/-- Reads digits that single underscores may separate, giving the value and the count of digits. -/
def readDigits (digit? : Char → Option Nat) (base : Nat) :
    (value count : Nat) → (afterDigit : Bool) → List Char → Option (Nat × Nat)
  | value, count, afterDigit, [] => if afterDigit then some (value, count) else none
  | value, count, afterDigit, c :: rest =>
    if c = '_' then
      if afterDigit then readDigits digit? base value count false rest else none
    else match digit? c with
      | some d => readDigits digit? base (base * value + d) (count + 1) true rest
      | none => none

/-- The sign in front of a numeral and what follows it. -/
def splitSign : List Char → Bool × List Char
  | '-' :: rest => (true, rest)
  | '+' :: rest => (false, rest)
  | cs => (false, cs)

def signed (negative : Bool) (n : Nat) : Int := if negative then -(n : Int) else n

/-- Reads an integer in base ten. -/
def parse? (s : String) : Option Int := do
  let (negative, digits) := splitSign (Text.stripChars Text.isNumeralBlank s.toList)
  let (n, count) ← readDigits Text.digitValue? 10 0 0 false digits
  if count ≤ digitLimit then some (signed negative n) else none

/-- The value of a hexadecimal digit; the ten decimal ones may be of any script. -/
def hexDigit? (c : Char) : Option Nat := (Text.Hex.value? c).or (Text.digitValue? c)

/-- Drops a leading `0x`, with an underscore after it. -/
def dropHexMark : List Char → List Char
  | '0' :: x :: rest =>
    if x = 'x' ∨ x = 'X' then
      match rest with
      | '_' :: digits => digits
      | digits => digits
    else '0' :: x :: rest
  | cs => cs

/-- Reads an integer in base sixteen. -/
def parseHex? (s : String) : Option Int := do
  let (negative, digits) := splitSign (Text.stripChars Text.isNumeralBlank s.toList)
  let (n, _) ← readDigits hexDigit? 16 0 0 false (dropHexMark digits)
  pure (signed negative n)

/-- The value of a row of digits. -/
def natOfDigits (digit? : Char → Option Nat) (cs : List Char) : Nat :=
  cs.foldl (fun n c => 10 * n + (digit? c).getD 0) 0

/-- How many decimal digits a number is written with. -/
def digitCount (n : Nat) : Nat := (Nat.toDigits 10 n).length

/-- Without a minus, a number is itself. -/
theorem signed_false (n : Nat) : signed false n = n := rfl

/-- With a minus, a number is negative or zero. -/
theorem signed_true (n : Nat) : signed true n = -(n : Int) := rfl

end PartitionPruning.Numeral
