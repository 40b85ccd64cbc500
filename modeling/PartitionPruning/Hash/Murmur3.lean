import PartitionPruning.Numeral.Power

/-!
# Murmur3

The 32-bit variant for 32-bit blocks with seed zero. Bytes are taken four at a time, least significant
first; each block is scrambled and mixed into the state, the last one to three bytes are scrambled
in without mixing, and the length goes into the state before the final avalanche.
-/

namespace PartitionPruning.Murmur3

/-- The bits of a word moved to the left, those that leave it coming in at the right. -/
def rotateLeft (x : UInt32) (n : UInt32) : UInt32 := (x <<< n) ||| (x >>> (32 - n))

/-- Scrambles a block before it enters the state. -/
def scramble (k : UInt32) : UInt32 := rotateLeft (k * 0xCC9E2D51) 15 * 0x1B873593

/-- Mixes a full block into the state. -/
def mix (h k : UInt32) : UInt32 := rotateLeft (h ^^^ scramble k) 13 * 5 + 0xE6546B64

/-- Spreads every bit of the state over the result. -/
def avalanche (h : UInt32) : UInt32 :=
  let h := (h ^^^ (h >>> 16)) * 0x85EBCA6B
  let h := (h ^^^ (h >>> 13)) * 0xC2B2AE35
  h ^^^ (h >>> 16)

def absorb (h : UInt32) : List UInt8 → UInt32
  | [] => h
  | [a] => h ^^^ scramble a.toUInt32
  | [a, b] => h ^^^ scramble (a.toUInt32 ||| (b.toUInt32 <<< 8))
  | [a, b, c] => h ^^^ scramble (a.toUInt32 ||| (b.toUInt32 <<< 8) ||| (c.toUInt32 <<< 16))
  | a :: b :: c :: d :: rest =>
    absorb
      (mix h (a.toUInt32 ||| (b.toUInt32 <<< 8) ||| (c.toUInt32 <<< 16) ||| (d.toUInt32 <<< 24)))
      rest

def hash (bytes : List UInt8) : UInt32 := avalanche (absorb 0 bytes ^^^ UInt32.ofNat bytes.length)

def signedHash (bytes : List UInt8) : Int :=
  let n := (hash bytes).toNat
  if n < 2 ^ (31 : Nat) then n else (n : Int) - 2 ^ (32 : Nat)

/-- A hash has 32 bits and a sign. -/
theorem signedHash_lower (bytes : List UInt8) : -2 ^ (31 : Nat) ≤ signedHash bytes := by
  simp only [signedHash]
  split <;> omega

/-- A hash has 32 bits, of which one is the sign. -/
theorem signedHash_upper (bytes : List UInt8) : signedHash bytes < 2 ^ (31 : Nat) := by
  have h := (hash bytes).toNat_lt
  simp only [signedHash]
  split <;> omega

end PartitionPruning.Murmur3
