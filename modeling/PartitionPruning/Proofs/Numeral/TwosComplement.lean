import Mathlib.Order.Bounds.Defs
import Mathlib.Tactic.Ring
import PartitionPruning.Proofs.Numeral.Count
import PartitionPruning.Transform.Apply

/-!
# Two's complement

The bytes that a decimal is hashed from are those of its unscaled value, most significant first and as few
as hold it. How many that are is read off the length of the binary digits, where a negative number is
complemented; one more bit is for the sign.

* **`fitsIn_iff`** — an integer fits in so many bytes exactly if they are not fewer than `byteCount`.
* **`ofBigEndian_bigEndian`** — an integer that fits is read back from its bytes.
* **`fitsIn_ofBigEndian`** — what is read from some bytes fits in as many.
* **`toBytes_shortest`** — the bytes of a decimal are the fewest that its unscaled value is read back from.
-/

namespace PartitionPruning

namespace Decimal

open Numeral

/-- Whether an integer has a place in so many bytes: one of the bits is for the sign. -/
def FitsIn (width : Nat) (n : Int) : Prop := -2 ^ (8 * width - 1) ≤ n ∧ n < 2 ^ (8 * width - 1)

instance (width : Nat) (n : Int) : Decidable (FitsIn width n) :=
  inferInstanceAs (Decidable (_ ∧ _))

/-- So many bytes of an integer, most significant first, if it has a place in them. -/
def bigEndian? (n : Int) (width : Nat) : Option (List UInt8) :=
  if FitsIn width n then some (bigEndian n width) else none

/-- The number that bytes are without a sign, most significant first. -/
def natOfBytes : List UInt8 → Nat
  | [] => 0
  | b :: bs => b.toNat * 256 ^ bs.length + natOfBytes bs

/-- The integer that bytes are: the upper half of the numbers without a sign are the negative ones. -/
def ofBigEndian (bs : List UInt8) : Int :=
  let n := natOfBytes bs
  if 2 * n < 256 ^ bs.length then n else n - 256 ^ bs.length

/-! ## Counting bytes -/

/-- The binary digits of an integer without its sign are those of this number. -/
def magnitude (n : Int) : Nat := if 0 ≤ n then n.toNat else (-n - 1).toNat

/-- One bit for the sign on top of the binary digits. -/
theorem byteCount_eq (n : Int) :
    byteCount n = (if magnitude n = 0 then 0 else (magnitude n).log2 + 1) / 8 + 1 := rfl

/-- The length of the binary digits, which bounds the number. -/
theorem bitLength_le_iff (m k : Nat) : (if m = 0 then 0 else m.log2 + 1) ≤ k ↔ m < 2 ^ k := by
  split
  · rename_i h
    simp [h]
  · rename_i h
    exact Nat.log2_lt h

/-- The magnitude is below a power of two exactly within the range of two's complement. -/
theorem magnitude_lt_iff (n : Int) (k : Nat) :
    magnitude n < 2 ^ k ↔ -2 ^ k ≤ n ∧ n < 2 ^ k := by
  have hcast : ((2 ^ k : Nat) : Int) = 2 ^ k := Int.natCast_pow 2 k
  unfold magnitude
  split <;> omega

/-- **Room for an integer.** -/
theorem fitsIn_iff {width : Nat} (h : 1 ≤ width) (n : Int) : FitsIn width n ↔ byteCount n ≤ width := by
  calc FitsIn width n
    _ ↔ magnitude n < 2 ^ (8 * width - 1) := (magnitude_lt_iff n _).symm
    _ ↔ (if magnitude n = 0 then 0 else (magnitude n).log2 + 1) ≤ 8 * width - 1 :=
      (bitLength_le_iff _ _).symm
    _ ↔ byteCount n ≤ width := by
      rw [byteCount_eq]
      omega

/-- Every number takes a byte. -/
theorem one_le_byteCount (n : Int) : 1 ≤ byteCount n := Nat.le_add_left _ _

/-- The bytes counted are enough. -/
theorem fitsIn_byteCount (n : Int) : FitsIn (byteCount n) n :=
  (fitsIn_iff (one_le_byteCount n) n).mpr (Nat.le_refl _)

/-- No fewer bytes are enough. -/
theorem isLeast_byteCount (n : Int) : IsLeast {width | 1 ≤ width ∧ FitsIn width n} (byteCount n) :=
  ⟨⟨one_le_byteCount n, fitsIn_byteCount n⟩, fun _ h => (fitsIn_iff h.1 n).mp h.2⟩

/-! ## Reading bytes -/

/-- So many bytes make a number below that power of 256. -/
theorem natOfBytes_lt (bs : List UInt8) : natOfBytes bs < 256 ^ bs.length := by
  induction bs with
  | nil => decide
  | cons b bs ih =>
    have hb : b.toNat * 256 ^ bs.length + 256 ^ bs.length ≤ 256 * 256 ^ bs.length := by
      rw [← Nat.succ_mul]
      exact Nat.mul_le_mul_right _ b.toNat_lt
    rw [natOfBytes, List.length_cons, Nat.pow_succ']
    omega

/-- The lowest digits of an integer and the digit in front of them. -/
theorem emod_mul_eq (n : Int) {a : Int} (ha : 0 ≤ a) (b : Int) :
    n % (b * a) = n / a % b * a + n % a := by
  have hquotient : n / (b * a) = n / a / b := by
    rw [Int.mul_comm, Int.ediv_ediv_of_nonneg ha]
  rw [Int.emod_def n (b * a), Int.emod_def (n / a), Int.emod_def n a, hquotient]
  ring

/-- The bytes of an integer, taken without a sign, are its residue. -/
theorem natOfBytes_bigEndian (n : Int) (width : Nat) :
    (natOfBytes (bigEndian n width) : Int) = n % 256 ^ width := by
  induction width with
  | zero => simp [bigEndian, natOfBytes]
  | succ width ih =>
    have hpower : (0 : Int) ≤ 256 ^ width := Int.pow_nonneg (by decide)
    -- the first byte is the digit in front of the others
    have hbyte : ((UInt8.ofNat (n / 256 ^ width % 256).toNat).toNat : Int) = n / 256 ^ width % 256 := by
      have hnonneg := Int.emod_nonneg (n / 256 ^ width) (b := 256) (by decide)
      have hlt := Int.emod_lt_of_pos (n / 256 ^ width) (b := 256) (by decide)
      rw [UInt8.toNat_ofNat_of_lt' (by simp only [UInt8.size]; omega), Int.toNat_of_nonneg hnonneg]
    rw [bigEndian, natOfBytes, length_bigEndian, Int.pow_succ', emod_mul_eq n hpower]
    push_cast
    rw [hbyte, ih]

/-- A width in bytes as the power of two that the bits of a number without a sign are below. -/
theorem pow_bytes {width : Nat} (h : 1 ≤ width) : (256 : Int) ^ width = 2 * 2 ^ (8 * width - 1) := by
  have hbits : 8 * width - 1 + 1 = 8 * width := by omega
  rw [← Int.pow_succ', hbits, Int.pow_mul]
  rfl

/-- The sign of what is read depends on the first bit. -/
theorem ofBigEndian_eq {bs : List UInt8} (h : bs ≠ []) :
    ofBigEndian bs = if (natOfBytes bs : Int) < 2 ^ (8 * bs.length - 1) then (natOfBytes bs : Int)
      else natOfBytes bs - 2 * 2 ^ (8 * bs.length - 1) := by
  have hpower := pow_bytes (List.length_pos_of_ne_nil h)
  have hcast : ((256 ^ bs.length : Nat) : Int) = 256 ^ bs.length := Int.natCast_pow 256 _
  rw [ofBigEndian, hpower]
  split <;> split <;> omega

/-- **Reading back.** An integer that fits is its residue, or the residue less the number of residues. -/
theorem ofBigEndian_bigEndian {width : Nat} {n : Int} (hwidth : 1 ≤ width) (h : FitsIn width n) :
    ofBigEndian (bigEndian n width) = n := by
  obtain ⟨hlow, hhigh⟩ := h
  have hne : bigEndian n width ≠ [] := List.ne_nil_of_length_pos (by rwa [length_bigEndian])
  rw [ofBigEndian_eq hne, natOfBytes_bigEndian, length_bigEndian, pow_bytes hwidth]
  rcases Int.lt_or_le n 0 with hneg | hpos
  · have hresidue : n % (2 * 2 ^ (8 * width - 1)) = n + 2 * 2 ^ (8 * width - 1) := by
      rw [← Int.add_emod_right, Int.emod_eq_of_lt (by omega) (by omega)]
    rw [hresidue, if_neg (by omega)]
    omega
  · rw [Int.emod_eq_of_lt hpos (by omega), if_pos hhigh]

/-- **What is read** fits in the bytes that it is read from. -/
theorem fitsIn_ofBigEndian {bs : List UInt8} (h : bs ≠ []) : FitsIn bs.length (ofBigEndian bs) := by
  have hlt : (natOfBytes bs : Int) < 256 ^ bs.length := by exact_mod_cast natOfBytes_lt bs
  rw [pow_bytes (List.length_pos_of_ne_nil h)] at hlt
  rw [ofBigEndian_eq h, FitsIn]
  split <;> omega

/-! ## Bytes of decimals -/

/-- A decimal is written with the bytes counted for it. -/
theorem length_toBytes (x : Decimal) : x.toBytes.length = byteCount x.unscaled :=
  length_bigEndian _ _

/-- The bytes of a decimal are read back to its unscaled number. -/
theorem ofBigEndian_toBytes (x : Decimal) : ofBigEndian x.toBytes = x.unscaled :=
  ofBigEndian_bigEndian (one_le_byteCount _) (fitsIn_byteCount _)

/-- No fewer bytes hold the unscaled value. -/
theorem isLeast_length_toBytes (x : Decimal) :
    IsLeast {k | 1 ≤ k ∧ ∃ bs, bs.length = k ∧ ofBigEndian bs = x.unscaled} x.toBytes.length := by
  refine ⟨⟨?_, x.toBytes, rfl, ofBigEndian_toBytes x⟩, ?_⟩
  · rw [length_toBytes]
    exact one_le_byteCount _
  · rintro _ ⟨hpos, bs, rfl, hread⟩
    rw [length_toBytes, ← fitsIn_iff hpos, ← hread]
    exact fitsIn_ofBigEndian (List.ne_nil_of_length_pos hpos)

/-- The bytes tell the unscaled value, but nothing of the exponent. -/
theorem toBytes_eq_iff {x y : Decimal} : x.toBytes = y.toBytes ↔ x.unscaled = y.unscaled := by
  constructor
  · intro h
    rw [← ofBigEndian_toBytes x, h, ofBigEndian_toBytes]
  · intro h
    rw [toBytes, toBytes, h]

/-- **Shortest bytes.** An integer has as many bytes as the least width that it fits in. A decimal is hashed
from that many bytes of its unscaled value, which is read back from them and from no fewer bytes; so
decimals with one exponent are hashed from the same bytes exactly if they are equal. -/
theorem toBytes_shortest :
    (∀ n : Int, IsLeast {width | 1 ≤ width ∧ FitsIn width n} (byteCount n)) ∧
      (∀ x : Decimal, ∃ bs, HashForm.decimal.toBytes (.decimal x) = .ok bs ∧
        bigEndian? x.unscaled (byteCount x.unscaled) = some bs ∧ ofBigEndian bs = x.unscaled ∧
        IsLeast {k | 1 ≤ k ∧ ∃ bs', bs'.length = k ∧ ofBigEndian bs' = x.unscaled} bs.length) ∧
      ∀ (negative negative' : Bool) (c c' : Nat) (e : Int),
        (finite negative c e).toBytes = (finite negative' c' e).toBytes ↔
          Value.eq (.decimal (finite negative c e)) (.decimal (finite negative' c' e)) = .ok true := by
  refine ⟨isLeast_byteCount, fun x => ?_,
    fun _ _ _ _ _ => toBytes_eq_iff.trans Value.eq_exponent_iff.symm⟩
  exact ⟨x.toBytes, rfl, if_pos (fitsIn_byteCount _), ofBigEndian_toBytes x,
    isLeast_length_toBytes x⟩

/-- At the ends of the range of two bytes. -/
example : byteCount 32767 = 2 ∧ byteCount (-32768) = 2 ∧ byteCount 32768 = 3 ∧
    (finite true 32769 (-2)).toBytes = [0xFF, 0x7F, 0xFF] := by decide +kernel

end Decimal

end PartitionPruning
