/-!
# Hexadecimal text

Digits are written in lower case. `padded` writes a number with a least count of digits, `ofBytes`
writes each byte as two digits.
-/

namespace PartitionPruning.Text.Hex

/-- The hexadecimal digit of a number below sixteen. -/
def digit (n : Nat) : Char :=
  if n < 10 then Char.ofNat (0x30 + n) else Char.ofNat (0x57 + n)

/-- The hexadecimal digit of a number below sixteen, in upper case. -/
def upperDigit (n : Nat) : Char :=
  if n < 10 then Char.ofNat (0x30 + n) else Char.ofNat (0x37 + n)

/-- The value of a hexadecimal digit of either case. -/
def value? (c : Char) : Option Nat :=
  if '0' ≤ c ∧ c ≤ '9' then some (c.toNat - 0x30)
  else if 'a' ≤ c ∧ c ≤ 'f' then some (c.toNat - 0x57)
  else if 'A' ≤ c ∧ c ≤ 'F' then some (c.toNat - 0x37)
  else none

/-- The lowest `width` hexadecimal digits of a number. -/
def padded : (width n : Nat) → List Char
  | 0, _ => []
  | width + 1, n => padded width (n / 16) ++ [digit (n % 16)]

def ofBytes (bytes : List UInt8) : String :=
  String.ofList (bytes.flatMap fun b => padded 2 b.toNat)

/-- Reads two digits for each byte. -/
def bytes? : List Char → Option (List UInt8)
  | [] => some []
  | [_] => none
  | a :: b :: rest => do
    let hi ← value? a
    let lo ← value? b
    let bytes ← bytes? rest
    pure (UInt8.ofNat (16 * hi + lo) :: bytes)

/-- Reads a number from hexadecimal digits. -/
def nat? (cs : List Char) : Option Nat :=
  cs.foldlM (fun n c => (value? c).map (16 * n + ·)) 0

/-- A number is written with as many digits as are asked for; further ones in front are lost. -/
theorem length_padded (width n : Nat) : (padded width n).length = width := by
  induction width generalizing n with
  | zero => rfl
  | succ w ih => simp [padded, ih]

end PartitionPruning.Text.Hex
