import Mathlib.Algebra.Order.Field.Power
import Mathlib.Algebra.Order.Field.Rat
import Mathlib.Order.WithBotTop
import Mathlib.Tactic.NormNum
import Mathlib.Tactic.Ring
import PartitionPruning.Numeral.Decimal

/-!
# Exact values of decimals

`Decimal.order?` compares representations and builds no large power of ten in vain. Here it is shown
to be the order of the numbers that are represented, so that it does not depend on how many zeros a
number is written with.

* **`orderMagnitude_eq`** — positive numbers are ordered by the places of their leading digits first.
* **`order?_eq`** — two decimals are ordered as their exact values are.
-/

namespace PartitionPruning

namespace Decimal

open Numeral

/-- The exact value of a number, with the infinities at the ends; none if it is not a number. -/
def exactValue? : Decimal → Option (WithBotTop ℚ)
  | .finite negative c e => some (((signed negative c : ℚ) * 10 ^ e : ℚ))
  | .infinite negative => some (if negative then ⊥ else ⊤)
  | .nan .. => none

/-! ## Finite numbers -/

/-- Integers compare as rationals. -/
theorem compare_eq_cmp (m n : Int) : compare m n = cmp (m : ℚ) (n : ℚ) := by
  rcases lt_trichotomy m n with h | h | h
  · rw [Int.compare_eq_lt.mpr h, (cmp_eq_lt_iff _ _).mpr (by exact_mod_cast h)]
  · rw [h, cmp_self_eq_eq, Int.compare_eq_eq.mpr rfl]
  · rw [Int.compare_eq_gt.mpr h, (cmp_eq_gt_iff _ _).mpr (by exact_mod_cast h)]

/-- The place of the leading digit of a positive number. -/
theorem magnitude_bounds {c : Nat} (h : 0 < c) (e : Int) :
    (10 : ℚ) ^ (e + digitCount c - 1) ≤ c * 10 ^ e ∧ (c : ℚ) * 10 ^ e < 10 ^ (e + digitCount c) := by
  have hpos : 0 < digitCount c := Nat.length_toDigits_pos
  have hten : (0 : ℚ) < 10 ^ e := zpow_pos (by norm_num) e
  have hupper : c < 10 ^ digitCount c :=
    (Nat.length_toDigits_le_iff (by decide) hpos).mp le_rfl
  -- A number with so many digits is at least the power of ten below them.
  have hlower : 10 ^ (digitCount c - 1) ≤ c := by
    rcases Nat.eq_zero_or_pos (digitCount c - 1) with hzero | hmore
    · rw [hzero]
      exact h
    · by_contra hlt
      have := (Nat.length_toDigits_le_iff (n := c) (by decide : 1 < 10) hmore).mpr (by omega)
      simp only [digitCount] at *
      omega
  constructor
  · have hsplit : e + digitCount c - 1 = ((digitCount c - 1 : Nat) : Int) + e := by omega
    rw [hsplit, zpow_add₀ (by norm_num), zpow_natCast]
    exact mul_le_mul_of_nonneg_right (by exact_mod_cast hlower) hten.le
  · rw [add_comm e, zpow_add₀ (by norm_num), zpow_natCast]
    exact mul_lt_mul_of_pos_right (by exact_mod_cast hupper) hten

/-- **Positive numbers.** One whose leading digit stands further left is larger. -/
theorem orderMagnitude_eq {c₁ c₂ : Nat} (h₁ : 0 < c₁) (h₂ : 0 < c₂) (e₁ e₂ : Int) :
    orderMagnitude c₁ e₁ c₂ e₂ = cmp ((c₁ : ℚ) * 10 ^ e₁) (c₂ * 10 ^ e₂) := by
  obtain ⟨low₁, high₁⟩ := magnitude_bounds h₁ e₁
  obtain ⟨low₂, high₂⟩ := magnitude_bounds h₂ e₂
  by_cases hplace : e₁ + digitCount c₁ = e₂ + digitCount c₂
  · -- the leading digits stand at the same place: both are scaled to the lower exponent
    have horder : orderMagnitude c₁ e₁ c₂ e₂ =
        compare (c₁ * 10 ^ (e₁ - e₂).toNat) (c₂ * 10 ^ (e₂ - e₁).toNat) := if_neg (not_not.mpr hplace)
    have hscale (c : Nat) (e e' : Int) :
        (c : ℚ) * 10 ^ e = ((c * 10 ^ (e - e').toNat : Nat) : Int) * 10 ^ (min e e') := by
      have he : e = ((e - e').toNat : Int) + min e e' := by omega
      conv_lhs => rw [he, zpow_add₀ (by norm_num), zpow_natCast]
      push_cast
      ring
    rw [horder, hscale c₁ e₁ e₂, hscale c₂ e₂ e₁, min_comm e₂ e₁,
      cmp_mul_pos_right (zpow_pos (by norm_num) _), ← compare_eq_cmp]
    rcases lt_trichotomy (c₁ * 10 ^ (e₁ - e₂).toNat) (c₂ * 10 ^ (e₂ - e₁).toNat) with h | h | h
    · rw [Nat.compare_eq_lt.mpr h, Int.compare_eq_lt.mpr (by exact_mod_cast h)]
    · rw [h, Nat.compare_eq_eq.mpr rfl, Int.compare_eq_eq.mpr rfl]
    · rw [Nat.compare_eq_gt.mpr h, Int.compare_eq_gt.mpr (by exact_mod_cast h)]
  -- otherwise the place alone decides, and the bounds of the two places do not meet
  · have horder : orderMagnitude c₁ e₁ c₂ e₂ =
        compare (e₁ + digitCount c₁) (e₂ + digitCount c₂) := if_pos hplace
    rcases lt_or_gt_of_ne hplace with hlt | hgt
    · rw [horder, Int.compare_eq_lt.mpr hlt, eq_comm, cmp_eq_lt_iff]
      refine high₁.trans_le (le_trans ?_ low₂)
      exact zpow_le_zpow_right₀ (by norm_num) (by omega)
    · rw [horder, Int.compare_eq_gt.mpr hgt, eq_comm, cmp_eq_gt_iff]
      refine high₂.trans_le (le_trans ?_ low₁)
      exact zpow_le_zpow_right₀ (by norm_num) (by omega)

/-- Changing both signs turns a comparison around. -/
theorem cmp_neg (a b : ℚ) : cmp (-a) (-b) = cmp b a := by
  have hanti : StrictAnti (Neg.neg : ℚ → ℚ) := fun _ _ h => neg_lt_neg h
  exact hanti.cmp_map_eq a b

/-- Numbers of different signs are ordered as the integers are that they are multiples of. -/
theorem compare_eq_cmp_mul {n₁ n₂ : Int} {a b : ℚ} (h : n₁.sign ≠ n₂.sign ∨ n₁ = 0) (ha : 0 < a)
    (hb : 0 < b) : compare n₁ n₂ = cmp (n₁ * a) (n₂ * b) := by
  -- The signs alone decide, so the sizes of the factors do not matter.
  rcases lt_trichotomy n₁ 0 with hn | rfl | hn
  · have hsign : 0 ≤ n₂ := by
      by_contra hlt
      have := Int.sign_eq_neg_one_of_neg hn
      have := Int.sign_eq_neg_one_of_neg (by omega : n₂ < 0)
      omega
    have hneg : (n₁ : ℚ) * a < 0 := mul_neg_of_neg_of_pos (by exact_mod_cast hn) ha
    have hnonneg : (0 : ℚ) ≤ n₂ * b := mul_nonneg (by exact_mod_cast hsign) hb.le
    rw [Int.compare_eq_lt.mpr (by omega), (cmp_eq_lt_iff _ _).mpr (hneg.trans_le hnonneg)]
  · rw [Int.cast_zero, zero_mul, compare_eq_cmp, Int.cast_zero]
    have hzero := cmp_mul_pos_right hb (0 : ℚ) n₂
    rwa [zero_mul, eq_comm] at hzero
  · have hsign : n₂ ≤ 0 := by
      by_contra hlt
      have := Int.sign_eq_one_of_pos hn
      have := Int.sign_eq_one_of_pos (by omega : 0 < n₂)
      omega
    have hpos : (0 : ℚ) < n₁ * a := mul_pos (by exact_mod_cast hn) ha
    have hnonpos : (n₂ : ℚ) * b ≤ 0 :=
      mul_nonpos_of_nonpos_of_nonneg (by exact_mod_cast hsign) hb.le
    rw [Int.compare_eq_gt.mpr (by omega), (cmp_eq_gt_iff _ _).mpr (hnonpos.trans_lt hpos)]

/-- **Finite numbers.** -/
theorem orderFinite_eq (n₁ e₁ n₂ e₂ : Int) :
    orderFinite n₁ e₁ n₂ e₂ = cmp ((n₁ : ℚ) * 10 ^ e₁) (n₂ * 10 ^ e₂) := by
  have hten₁ : (0 : ℚ) < 10 ^ e₁ := zpow_pos (by norm_num) e₁
  have hten₂ : (0 : ℚ) < 10 ^ e₂ := zpow_pos (by norm_num) e₂
  by_cases h : e₁ = e₂ ∨ n₁.sign ≠ n₂.sign ∨ n₁ = 0
  · rw [orderFinite, if_pos h]
    rcases h with rfl | h
    · rw [cmp_mul_pos_right hten₁, compare_eq_cmp]
    · exact compare_eq_cmp_mul h hten₁ hten₂
  · rw [orderFinite, if_neg h]
    simp only [not_or, not_not] at h
    obtain ⟨_, hsign, hzero⟩ := h
    -- both have one sign, so the magnitudes decide
    by_cases hpos : 0 < n₁
    · have hpos₂ : 0 < n₂ := by
        rw [← Int.sign_eq_one_iff_pos, ← hsign, Int.sign_eq_one_iff_pos]
        exact hpos
      rw [if_pos hpos, orderMagnitude_eq (by omega) (by omega), Nat.cast_natAbs, Nat.cast_natAbs,
        abs_of_pos hpos, abs_of_pos hpos₂]
    · have hneg : n₁ < 0 := by omega
      have hneg₂ : n₂ < 0 := by
        rw [← Int.sign_eq_neg_one_iff_neg, ← hsign, Int.sign_eq_neg_one_iff_neg]
        exact hneg
      -- negative numbers are ordered against their magnitudes
      rw [if_neg hpos, orderMagnitude_eq (by omega) (by omega), Nat.cast_natAbs, Nat.cast_natAbs,
        abs_of_neg hneg, abs_of_neg hneg₂, Int.cast_neg, Int.cast_neg, neg_mul, neg_mul, cmp_neg]

/-! ## All numbers -/

/-- **The order of decimals** is that of their exact values; what is not a number has none. -/
theorem order?_eq (x y : Decimal) :
    order? x y = (exactValue? x).bind fun a => (exactValue? y).map fun b => cmp a b := by
  -- The order is defined by cases on both decimals; each case is the order of the exact values.
  cases x with
  | nan => cases y <;> rfl
  | infinite a =>
    cases y with
    | nan => rfl
    | infinite b => cases a <;> cases b <;> rfl
    | finite s c e =>
      cases a with
      | false => exact congrArg some ((cmp_eq_gt_iff _ _).mpr (WithBot.coe_lt_coe.mpr
          (WithTop.coe_lt_top _))).symm
      | true => exact congrArg some ((cmp_eq_lt_iff _ _).mpr (WithBot.bot_lt_coe _)).symm
  | finite s₁ c₁ e₁ =>
    cases y with
    | nan => rfl
    | infinite b =>
      cases b with
      | false => exact congrArg some ((cmp_eq_lt_iff _ _).mpr (WithBot.coe_lt_coe.mpr
          (WithTop.coe_lt_top _))).symm
      | true => exact congrArg some ((cmp_eq_gt_iff _ _).mpr (WithBot.bot_lt_coe _)).symm
    | finite s₂ c₂ e₂ =>
      rw [order?, orderFinite_eq]
      exact congrArg some (WithBotTop.coe_strictMono.cmp_map_eq _ _).symm

/-- Decimals with one exact value are ordered alike. -/
theorem order?_congr {x y : Decimal} (h : exactValue? x = exactValue? y) (z : Decimal) :
    order? x z = order? y z := by
  rw [order?_eq, order?_eq, h]

/-- The decimal of an integer is worth that integer. -/
theorem exactValue?_ofInt (n : Int) : exactValue? (ofInt n) = some (n : ℚ) := by
  have h := unscaled_ofInt n
  simp only [ofInt, unscaled] at h
  simp [ofInt, exactValue?, h]

/-- Two decimals are equal exactly if they have the same exact value. -/
theorem order?_eq_some_eq {x y : Decimal} :
    order? x y = some .eq ↔ ∃ a, exactValue? x = some a ∧ exactValue? y = some a := by
  rw [order?_eq]
  -- A decimal without a value is equal to none.
  cases hx : exactValue? x with
  | none =>
    rw [Option.bind_none]
    simp
  | some a =>
    cases hy : exactValue? y with
    | none =>
      rw [Option.bind_some, Option.map_none]
      simp
    | some b =>
      rw [Option.bind_some, Option.map_some, Option.some.injEq, cmp_eq_eq_iff]
      constructor
      · intro h
        exact ⟨a, rfl, congrArg some h.symm⟩
      · rintro ⟨_, ha, hb⟩
        exact Option.some.inj (ha.trans hb.symm)

end Decimal

end PartitionPruning
