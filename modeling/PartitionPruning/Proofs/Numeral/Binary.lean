import Mathlib.Algebra.Order.Ring.Pow
import Mathlib.Data.Nat.Prime.Basic
import Mathlib.Tactic.FieldSimp
import Mathlib.Tactic.Linarith
import PartitionPruning.Numeral.Arithmetic
import PartitionPruning.Proofs.Numeral.Exact

/-!
# Exact values of doubles

A finite double is a signed multiple of a power of two, and its bits tell which one: a double is its
exact value, but for the zero, which has two signs.

* **`exactValue?_toDecimal`** — the exact decimal of a finite double has its value.
* **`eq_or_isZero`** — two doubles of one value are the same, or both are zero.
-/

namespace PartitionPruning

namespace Binary64

open Numeral

/-- The bits of a float are its sign, its exponent and its fraction side by side. -/
theorem toNat_bits (x : Binary64) :
    x.bits.toNat = (if x.isNegative then 2 ^ 63 else 0) + x.exponentField * 2 ^ 52 + x.fraction := by
  have hbits := x.bits.toNat_lt
  unfold isNegative exponentField fraction
  split <;> simp_all <;> omega

/-- The parts of a double make it up. -/
theorem eq_of_parts {x y : Binary64} (hsign : x.isNegative = y.isNegative)
    (hexponent : x.exponentField = y.exponentField) (hfraction : x.fraction = y.fraction) : x = y := by
  obtain ⟨a⟩ := x
  obtain ⟨b⟩ := y
  have hbits : a.toNat = b.toNat := by
    rw [toNat_bits ⟨a⟩, toNat_bits ⟨b⟩, hsign, hexponent, hfraction]
  exact congrArg mk (UInt64.toNat_inj.mp hbits)

/-- The fraction has 52 bits. -/
theorem fraction_lt (x : Binary64) : x.fraction < 2 ^ 52 := Nat.mod_lt _ (by decide)

/-- **The magnitude** of a double is in lowest terms, but for the smallest numbers. -/
theorem magnitude_bounds (x : Binary64) :
    x.magnitude.1 < 2 ^ 53 ∧
      (x.magnitude.2 = -1074 ∨ -1074 < x.magnitude.2 ∧ 2 ^ 52 ≤ x.magnitude.1) := by
  have hfraction := x.fraction_lt
  unfold magnitude
  split
  · exact ⟨by dsimp only; omega, Or.inl rfl⟩
  · refine ⟨by dsimp only; omega, ?_⟩
    dsimp only
    omega

/-- A float is determined by its sign and its magnitude. -/
theorem eq_of_magnitude {x y : Binary64} (hsign : x.isNegative = y.isNegative)
    (h : x.magnitude = y.magnitude) : x = y := by
  have hx := x.fraction_lt
  have hy := y.fraction_lt
  unfold magnitude at h
  split at h <;> split at h <;> obtain ⟨hm, he⟩ := Prod.mk.inj h
  · exact eq_of_parts hsign (by omega) hm
  · omega
  · omega
  · exact eq_of_parts hsign (by omega) (by omega)

/-- A float is zero exactly when its significand is. -/
theorem isZero_iff {x : Binary64} : x.isZero = true ↔ x.magnitude.1 = 0 := decide_eq_true_iff

/-- There are two zeros. -/
theorem eq_zero_of_isZero {x : Binary64} (h : x.isZero = true) : ∃ negative, x = zero negative := by
  obtain ⟨_, hnormal⟩ := x.magnitude_bounds
  rw [isZero_iff] at h
  refine ⟨x.isNegative, eq_of_magnitude ?_ (Prod.ext ?_ ?_)⟩
  · cases x.isNegative <;> decide
  · rw [h]
    cases x.isNegative <;> decide
  · have hlowest : x.magnitude.2 = -1074 := by omega
    rw [hlowest]
    cases x.isNegative <;> decide

/-! ## Exact values -/

/-- A sign is a factor of one or of minus one. -/
theorem signed_cast (negative : Bool) (n : Nat) :
    ((signed negative n : Int) : ℚ) = (if negative then -1 else 1) * n := by
  cases negative <;> simp [signed]

/-- The value of a double that is finite. -/
def rational (x : Binary64) : ℚ := (if x.isNegative then -1 else 1) * x.magnitude.1 * 2 ^ x.magnitude.2

/-- Only the zeros have the value zero. -/
theorem rational_eq_zero {x : Binary64} : x.rational = 0 ↔ x.isZero = true := by
  have hsign : (if x.isNegative then -1 else 1 : ℚ) ≠ 0 := by split <;> norm_num
  have hpow : (2 : ℚ) ^ x.magnitude.2 ≠ 0 := zpow_ne_zero _ (by norm_num)
  rw [rational, mul_eq_zero_iff_right hpow, mul_eq_zero_iff_left hsign, isZero_iff, Nat.cast_eq_zero]

/-- **The exact decimal** of a finite double has its value. -/
theorem exactValue?_toDecimal {x : Binary64} (hnan : x.isNaN = false)
    (hinfinite : x.isInfinite = false) :
    x.toDecimal.exactValue? = some (x.rational : WithBotTop ℚ) := by
  unfold toDecimal rational
  simp only [hnan, hinfinite, Bool.false_eq_true, if_false]
  generalize x.magnitude = p
  obtain ⟨m, e⟩ := p
  dsimp only
  split
  · rename_i he
    obtain ⟨k, rfl⟩ := Int.eq_ofNat_of_zero_le he
    rw [Decimal.exactValue?, signed_cast]
    simp
  · rename_i he
    obtain ⟨n, rfl⟩ : ∃ n : Nat, e = -(n : Int) := ⟨e.natAbs, by omega⟩
    simp only [Int.natAbs_neg, Int.natAbs_natCast]
    -- what the magnitude has in common with the power of two is a power of two
    obtain ⟨k, hk, hcommon⟩ := (Nat.dvd_prime_pow Nat.prime_two).mp (Nat.gcd_dvd_right m (2 ^ n))
    obtain ⟨c, hc⟩ := hcommon ▸ Nat.gcd_dvd_left m (2 ^ n)
    have hsplit : (c : ℚ) * 5 ^ (n - k) * 10 ^ (-((n - k : Nat) : Int)) =
        2 ^ k * c * 2 ^ (-(n : Int)) := by
      have hten : (10 : ℚ) ^ (n - k) = 5 ^ (n - k) * 2 ^ (n - k) := by
        rw [← mul_pow]
        norm_num
      have htwo : (2 : ℚ) ^ n = 2 ^ k * 2 ^ (n - k) := by
        rw [← pow_add]
        congr 1
        omega
      rw [zpow_neg, zpow_neg, zpow_natCast, zpow_natCast, hten, htwo]
      field_simp
    rw [hcommon, Nat.log2_two_pow, hc, Nat.mul_div_cancel_left c (Nat.two_pow_pos k),
      Decimal.exactValue?, signed_cast]
    push_cast
    rw [mul_assoc, hsplit, ← mul_assoc]

/-- Two magnitudes of one value are equal. -/
theorem magnitude_unique {m m' : Nat} {e e' : Int} (hm : m < 2 ^ 53) (hpos : 0 < m')
    (he : -1074 ≤ e) (hnormal : e' = -1074 ∨ 2 ^ 52 ≤ m') (hle : e ≤ e')
    (h : (m : ℚ) * 2 ^ e = m' * 2 ^ e') : m = m' ∧ e = e' := by
  obtain ⟨k, rfl⟩ : ∃ k : Nat, e' = e + k := ⟨(e' - e).toNat, by omega⟩
  have hmul : m = m' * 2 ^ k := by
    rw [zpow_add₀ (by norm_num), zpow_natCast] at h
    have hne : (2 : ℚ) ^ e ≠ 0 := zpow_ne_zero _ (by norm_num)
    have hq : (m : ℚ) = m' * 2 ^ k := by
      apply mul_right_cancel₀ hne
      rw [h]
      ring
    exact_mod_cast hq
  cases k with
  | zero => exact ⟨by simpa using hmul, by simp⟩
  | succ k =>
    -- one factor of two is too much already
    have htwo : 2 ≤ 2 ^ (k + 1) := by
      rw [pow_succ]
      have := Nat.one_le_two_pow (n := k)
      omega
    have := Nat.mul_le_mul_left m' htwo
    omega

/-- A value belongs to one float, and zero to two. -/
theorem eq_or_isZero_of_rational {x y : Binary64} (h : x.rational = y.rational) :
    x = y ∨ x.isZero = true ∧ y.isZero = true := by
  by_cases hx : x.rational = 0
  · exact Or.inr ⟨rational_eq_zero.mp hx, rational_eq_zero.mp (h ▸ hx)⟩
  obtain ⟨hxlt, hxnormal⟩ := x.magnitude_bounds
  obtain ⟨hylt, hynormal⟩ := y.magnitude_bounds
  have hxpos : 0 < x.magnitude.1 :=
    Nat.pos_of_ne_zero fun hzero => hx (rational_eq_zero.mpr (isZero_iff.mpr hzero))
  have hypos : 0 < y.magnitude.1 :=
    Nat.pos_of_ne_zero fun hzero => hx (h ▸ rational_eq_zero.mpr (isZero_iff.mpr hzero))
  unfold rational at h
  have hpos (e : Int) : (0 : ℚ) < 2 ^ e := zpow_pos (by norm_num) e
  have hne (z : Binary64) : (if z.isNegative then -1 else 1 : ℚ) ≠ 0 := by split <;> norm_num
  have hvalue (z : Binary64) (hz : 0 < z.magnitude.1) : (0 : ℚ) < z.magnitude.1 * 2 ^ z.magnitude.2 :=
    mul_pos (by exact_mod_cast hz) (hpos _)
  have hxv := hvalue x hxpos
  have hyv := hvalue y hypos
  -- numbers that are not zero have one sign and one magnitude
  have hsign : x.isNegative = y.isNegative := by
    cases hnx : x.isNegative <;> cases hny : y.isNegative <;>
      simp only [hnx, hny, if_true, if_false, Bool.false_eq_true, mul_assoc] at h ⊢ <;> linarith
  have hmagnitude : (x.magnitude.1 : ℚ) * 2 ^ x.magnitude.2 =
      y.magnitude.1 * 2 ^ y.magnitude.2 := by
    rw [hsign, mul_assoc, mul_assoc] at h
    exact mul_left_cancel₀ (hne y) h
  refine Or.inl (eq_of_magnitude hsign ?_)
  rcases le_total x.magnitude.2 y.magnitude.2 with hle | hle
  · obtain ⟨hm, he⟩ := magnitude_unique hxlt hypos (by omega) (by omega) hle hmagnitude
    exact Prod.ext hm he
  · obtain ⟨hm, he⟩ := magnitude_unique hylt hxpos (by omega) (by omega) hle hmagnitude.symm
    exact (Prod.ext hm he).symm

/-- **Two doubles of one value** are the same, or both are zero. -/
theorem eq_or_isZero {x y : Binary64} {a : WithBotTop ℚ} (hx : x.toDecimal.exactValue? = some a)
    (hy : y.toDecimal.exactValue? = some a) : x = y ∨ x.isZero = true ∧ y.isZero = true := by
  have hnan {z : Binary64} (hz : z.toDecimal.exactValue? = some a) : z.isNaN = false := by
    rw [Bool.eq_false_iff]
    intro h
    simp [toDecimal, h, Decimal.exactValue?] at hz
  have hinfinite {z : Binary64} (hz : z.toDecimal.exactValue? = some a) (h : z.isInfinite = true) :
      a = if z.isNegative then ⊥ else ⊤ := by
    have hdecimal : z.toDecimal = .infinite z.isNegative := by simp [toDecimal, h, hnan hz]
    rw [hdecimal, Decimal.exactValue?] at hz
    exact (Option.some.inj hz).symm
  have hfinite {z : Binary64} (hz : z.toDecimal.exactValue? = some a) (h : z.isInfinite = false) :
      a = (z.rational : WithBotTop ℚ) :=
    Option.some.inj (hz.symm.trans (exactValue?_toDecimal (hnan hz) h))
  -- an infinity has its sign and nothing else, and its value is that of no finite number
  cases hix : x.isInfinite with
  | true =>
    cases hiy : y.isInfinite with
    | true =>
      have hsign : x.isNegative = y.isNegative := by
        have := (hinfinite hx hix).symm.trans (hinfinite hy hiy)
        cases hnx : x.isNegative <;> cases hny : y.isNegative <;> simp_all
      simp only [isInfinite, Bool.and_eq_true, decide_eq_true_eq] at hix hiy
      exact Or.inl (eq_of_parts hsign (hix.1.trans hiy.1.symm) (hix.2.trans hiy.2.symm))
    | false =>
      have := (hinfinite hx hix).symm.trans (hfinite hy hiy)
      split at this <;> cases this
  | false =>
    cases hiy : y.isInfinite with
    | true =>
      have := (hinfinite hy hiy).symm.trans (hfinite hx hix)
      split at this <;> cases this
    | false =>
      exact eq_or_isZero_of_rational
        (WithBotTop.coe_injective ((hfinite hx hix).symm.trans (hfinite hy hiy)))

end Binary64

end PartitionPruning
