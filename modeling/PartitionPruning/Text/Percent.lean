import PartitionPruning.Text.Hex

/-!
# Percent encoding

Letters, digits and the four marks `-`, `.`, `_` and `~` of ASCII stand for themselves; every other
byte of the text in UTF-8 becomes a percent sign and two upper-case hexadecimal digits.
-/

namespace PartitionPruning.Text.Percent

/-- Whether a byte stands for itself. -/
def isUnreserved (b : UInt8) : Bool :=
  let n := b.toNat
  (0x30 ≤ n && n ≤ 0x39) || (0x41 ≤ n && n ≤ 0x5A) || (0x61 ≤ n && n ≤ 0x7A) ||
    n = 0x2D || n = 0x2E || n = 0x5F || n = 0x7E

def encodeByte (b : UInt8) : List Char :=
  if isUnreserved b then [Char.ofNat b.toNat]
  else ['%', Hex.upperDigit (b.toNat / 16), Hex.upperDigit (b.toNat % 16)]

def encodeBytes (bytes : List UInt8) : List Char := bytes.flatMap encodeByte

def encode (s : String) : String := String.ofList (encodeBytes s.toUTF8.toList)

/-- Bytes are encoded from the first one on. -/
theorem encodeBytes_cons (b : UInt8) (bs : List UInt8) :
    encodeBytes (b :: bs) = encodeByte b ++ encodeBytes bs := rfl

/-- Each byte is encoded on its own. -/
theorem encodeBytes_append (as bs : List UInt8) :
    encodeBytes (as ++ bs) = encodeBytes as ++ encodeBytes bs := by
  simp [encodeBytes]

end PartitionPruning.Text.Percent
