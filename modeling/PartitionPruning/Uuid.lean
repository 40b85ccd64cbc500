import PartitionPruning.Numeral.Integer
import PartitionPruning.Numeral.Power

/-!
# Universally unique identifiers

An identifier is a number of 128 bits. It is written as 32 hexadecimal digits in five groups; in a
text that is read, hyphens may stand anywhere and braces and the marks of a name around it.
-/

namespace PartitionPruning

/-- A universally unique identifier. -/
structure Uuid where
  number : BitVec 128
  deriving DecidableEq, Repr

namespace Uuid

def digits (u : Uuid) : List Char := Text.Hex.padded 32 u.number.toNat

/-- The digits in groups of 8, 4, 4, 4 and 12. -/
def render (u : Uuid) : String :=
  let ds := u.digits
  String.ofList (ds.take 8 ++ '-' :: (ds.drop 8).take 4 ++ '-' :: (ds.drop 12).take 4 ++ '-' ::
    (ds.drop 16).take 4 ++ '-' :: ds.drop 20)

/-- The sixteen bytes, most significant first. -/
def bytes (u : Uuid) : List UInt8 :=
  (List.range 16).map fun i => UInt8.ofNat (u.number.toNat / 256 ^ (15 - i))

/-- The text behind a word that it starts with. -/
def afterWord? : (word cs : List Char) → Option (List Char)
  | [], cs => some cs
  | _ :: _, [] => none
  | w :: word, c :: cs => if w = c then afterWord? word cs else none

/-- The text without the occurrences of a word, where `left` bounds the steps. -/
def removeWord (word : List Char) : (left : Nat) → List Char → List Char
  | 0, cs => cs
  | _ + 1, [] => []
  | left + 1, c :: cs => match afterWord? word (c :: cs) with
    | some rest => removeWord word left rest
    | none => c :: removeWord word left cs

def withoutMarks (cs : List Char) : List Char :=
  let cs := removeWord "urn:".toList cs.length cs
  removeWord "uuid:".toList cs.length cs

def isBrace (c : Char) : Bool := c = '\x7b' || c = '\x7d'

def parse? (s : String) : Option Uuid := do
  let cs := (Text.stripChars isBrace (withoutMarks s.toList)).filter (· ≠ '-')
  if cs.length = 32 then
    let n ← Numeral.parseHex? (String.ofList cs)
    pure ⟨BitVec.ofInt 128 n⟩
  else none

/-- An identifier is written with 32 digits. -/
theorem length_digits (u : Uuid) : u.digits.length = 32 := Text.Hex.length_padded 32 _

/-- An identifier has sixteen bytes. -/
theorem length_bytes (u : Uuid) : u.bytes.length = 16 := by simp [bytes]

end Uuid

end PartitionPruning
