import PartitionPruning.Proofs.Numeral.Count
import PartitionPruning.Value.Count

/-!
# Arithmetic on digits

A decimal with some places behind the point is a count of units of the last place, and the arithmetic of
filters and partitions is done on the counts: a number is taken apart and put together again, moved by one
unit, or cut to a multiple of a width. The places are kept and the value is exact, however many digits there
are and whatever the sign is.

* **`hasPlaces_ofUnscaled`** — what a count and a scale make up.
* **`scaled_unscaled`** — putting together is defined for the digits of each number within the limits.
* **`arithmetic_exact`** — a number that is taken apart, moved or cut.
-/

namespace PartitionPruning

open Numeral (floorMultiple)

namespace Decimal

/-- Whether a decimal is a number that is written with so many places behind the point. -/
structure HasPlaces (scale : Nat) (q : ℚ) (x : Decimal) : Prop where
  exponent : ∃ negative c, x = finite negative c (-(scale : Int))
  value : x.exactValue? = some (q : WithBotTop ℚ)

/-! ## Places -/

/-- The number of so many units of the last place. -/
theorem hasPlaces_ofUnscaled (n : Int) (scale : Nat) :
    (ofUnscaled n scale).HasPlaces scale (n * 10 ^ (-(scale : Int))) :=
  ⟨⟨_, _, rfl⟩, isCount_ofUnscaled n scale⟩

/-- A coefficient with so many places behind the point is a number of such steps. -/
theorem hasPlaces_finite (negative : Bool) (c scale : Nat) :
    (finite negative c (-(scale : Int))).HasPlaces scale
      ((finite negative c (-(scale : Int))).unscaled * 10 ^ (-(scale : Int))) :=
  ⟨⟨_, _, rfl⟩, isCount_unscaled⟩

variable {x : Decimal} {scale width : Nat} {q : ℚ}

/-- The number of places is the scale. -/
theorem HasPlaces.scale?_eq (h : x.HasPlaces scale q) : x.scale? = some scale := by
  obtain ⟨negative, c, rfl⟩ := h.exponent
  simp [scale?]

/-- The scale is there to be asked for. -/
theorem HasPlaces.scale_eq (h : x.HasPlaces scale q) : x.scale = .ok scale := by
  rw [Decimal.scale, h.scale?_eq]

/-- A number with some places is as many units of the last place as its digits say. -/
theorem HasPlaces.eq_units (h : x.HasPlaces scale q) : q = x.unscaled * 10 ^ (-(scale : Int)) := by
  obtain ⟨negative, c, rfl⟩ := h.exponent
  exact WithBotTop.coe_injective (Option.some.inj (h.value.symm.trans isCount_unscaled))

/-! ## Taking apart and putting together -/

/-- The digits and the scale of a number make up the number; of a negative zero they make up zero. -/
theorem HasPlaces.ofUnscaled (h : x.HasPlaces scale q) :
    (ofUnscaled x.unscaled scale).HasPlaces scale q := by
  rw [h.eq_units]
  exact hasPlaces_ofUnscaled x.unscaled scale

/-- The unscaled number and the scale give the decimal back. -/
theorem HasPlaces.eq_ofUnscaled (h : x.HasPlaces scale q) :
    Value.eq (.decimal (Decimal.ofUnscaled x.unscaled scale)) (.decimal x) = .ok true := by
  obtain ⟨negative, c, rfl⟩ := h.exponent
  exact Value.eq_exponent_iff.mpr (unscaled_ofUnscaled _ _)

/-- The unscaled number is the coefficient with the sign. -/
theorem natAbs_unscaled (negative : Bool) (c : Nat) (e : Int) :
    (finite negative c e).unscaled.natAbs = c := by
  cases negative <;> simp [unscaled, Numeral.signed]

/-- The digits of a number within the limits of the arithmetic can be given their scale again. -/
theorem scaled_unscaled {negative : Bool} {c : Nat} (h : inLimits c (-(scale : Int)) = true) :
    let x := finite negative c (-(scale : Int))
    Value.scaled (.int x.unscaled) (.int scale) = .ok (Decimal.ofUnscaled x.unscaled scale) := by
  intro x
  have hbottom : -1999999999999999997 ≤ -(scale : Int) :=
    of_decide_eq_true (Bool.and_eq_true_iff.mp h).1
  have hscale : (Value.int scale).scaleNumber = .ok scale := by
    have hword : -2 ^ (63 : Nat) < (scale : Int) ∧ (scale : Int) ≤ 2 ^ (63 : Nat) := by omega
    simp only [Value.scaleNumber, Value.integer, Outcome.ok_bind, if_pos hword]
    rfl
  have hlimits : inLimits (ofInt x.unscaled).unscaled.natAbs (-(scale : Int)) = true := by
    rwa [unscaled_ofInt, natAbs_unscaled]
  simp only [Value.scaled, Value.exactDecimal, Value.integer, Outcome.map_ok, Outcome.ok_bind, hscale,
    hlimits, if_true, withScale_ofInt]
  rfl

/-! ## Moving and cutting -/

/-- **Moving.** A number that is moved by some units of the last place keeps its places. -/
theorem HasPlaces.stepDecimal (h : x.HasPlaces scale q) (step : Int) :
    ∃ y, Literal.stepDecimal x step = .ok (.decimal y) ∧
      y.HasPlaces scale (q + step * 10 ^ (-(scale : Int))) := by
  have hplaces := hasPlaces_ofUnscaled (x.unscaled + step) scale
  rw [Int.cast_add, add_mul, ← h.eq_units] at hplaces
  refine ⟨_, ?_, hplaces⟩
  rw [Literal.stepDecimal, h.scale?_eq]

/-- Truncation goes down to a multiple of the width in units of the last place. -/
theorem HasPlaces.truncateBy_eq (h : x.HasPlaces scale q) (hwidth : 0 < width) :
    x.truncateBy (.int width) = .ok (Decimal.ofUnscaled (floorMultiple width x.unscaled) scale) := by
  have hne : (width : Int) ≠ 0 := by omega
  simp only [truncateBy_int, truncateTo, if_neg hne, h.scale_eq, ← truncate_eq]
  rfl

/-- **Cutting.** A number that is cut to a multiple of a width keeps its places, and is less than the width
below, in units of the last place. -/
theorem HasPlaces.truncateBy (h : x.HasPlaces scale q) (hwidth : 0 < width) :
    ∃ y r, x.truncateBy (.int width) = .ok y ∧ y.HasPlaces scale r ∧ (width : Int) ∣ y.unscaled ∧
      q - width * 10 ^ (-(scale : Int)) < r ∧ r ≤ q := by
  refine ⟨_, _, h.truncateBy_eq hwidth, hasPlaces_ofUnscaled _ _, ?_, ?_, ?_⟩
  · rw [unscaled_ofUnscaled]
    exact Numeral.dvd_floorMultiple width x.unscaled
  · have hlow : ((x.unscaled - width : Int) : ℚ) < floorMultiple width x.unscaled := by
      exact_mod_cast Int.sub_lt_iff.mpr (Numeral.lt_floorMultiple_add hwidth x.unscaled)
    rw [Int.cast_sub, Int.cast_natCast] at hlow
    rw [h.eq_units, ← sub_mul]
    exact mul_lt_mul_of_pos_right hlow (unit_pos scale)
  · have hhigh : ((floorMultiple width x.unscaled : Int) : ℚ) ≤ x.unscaled := by
      exact_mod_cast Numeral.floorMultiple_le hwidth x.unscaled
    rw [h.eq_units]
    exact mul_le_mul_of_nonneg_right hhigh (unit_pos scale).le

/-- **Arithmetic on digits is exact.** A number with some places behind the point is what its digits and its
scale make up. Moved by one unit of the last place it is larger or smaller by exactly the unit, and cut to a
multiple of a width it is not larger and less than that many units smaller. Each time it keeps its places. -/
theorem arithmetic_exact (negative : Bool) (c scale : Nat) {width : Nat} (hwidth : 0 < width) :
    let x := finite negative c (-(scale : Int))
    let unit : ℚ := 10 ^ (-(scale : Int))
    ∃ q : ℚ, x.HasPlaces scale q ∧ x.scale = .ok scale ∧
      ((ofUnscaled x.unscaled scale).HasPlaces scale q ∧
        Value.eq (.decimal (ofUnscaled x.unscaled scale)) (.decimal x) = .ok true ∧
        (inLimits c (-(scale : Int)) = true →
          Value.scaled (.int x.unscaled) (.int scale) = .ok (ofUnscaled x.unscaled scale))) ∧
      (∃ y, (Literal.decimal x).increment = .ok (.decimal y) ∧ y.HasPlaces scale (q + unit)) ∧
      (∃ y, (Literal.decimal x).decrement = .ok (.decimal y) ∧ y.HasPlaces scale (q - unit)) ∧
      ∃ y r, x.truncateBy (.int width) = .ok y ∧ y.HasPlaces scale r ∧ (width : Int) ∣ y.unscaled ∧
        q - width * unit < r ∧ r ≤ q := by
  intro x unit
  have hx := hasPlaces_finite negative c scale
  have hincrement := hx.stepDecimal 1
  have hdecrement := hx.stepDecimal (-1)
  -- Both steps are one unit of the last place, up and down.
  rw [Int.cast_one, one_mul] at hincrement
  rw [Int.cast_neg, Int.cast_one, neg_one_mul, ← sub_eq_add_neg] at hdecrement
  exact ⟨_, hx, hx.scale_eq, ⟨hx.ofUnscaled, hx.eq_ofUnscaled, scaled_unscaled⟩, hincrement, hdecrement,
    hx.truncateBy hwidth⟩

/-- One unit below -0.99 there is one digit more, and a width of 50 units leads there too. -/
theorem arithmetic_exact_carry :
    let x := finite true 99 (-2)
    let y := finite true 100 (-2)
    let unit : ℚ := 10 ^ (-2 : Int)
    0 < 50 ∧ inLimits 99 (-2) = true ∧ Value.scaled (.int (-99)) (.int 2) = .ok x ∧
      (Literal.decimal x).decrement = .ok (.decimal y) ∧ x.truncateBy (.int 50) = .ok y ∧
      ∃ q r : ℚ, x.HasPlaces 2 q ∧ y.HasPlaces 2 (q - unit) ∧ y.HasPlaces 2 r ∧
        q - 50 * unit < r ∧ r ≤ q := by
  intro x y unit
  obtain ⟨q, hx, -, ⟨-, -, hscaled⟩, -, ⟨y₁, hy₁, hplaces⟩, y₂, r, hy₂, hcut, -, hlow, hhigh⟩ :=
    @arithmetic_exact true 99 2 50 (by decide)
  have hlimits : inLimits 99 (-2) = true := by decide +kernel
  obtain rfl : y = y₁ := Literal.decimal.inj (Except.ok.inj hy₁)
  obtain rfl : y = y₂ := Except.ok.inj hy₂
  exact ⟨by decide, hlimits, hscaled hlimits, hy₁, hy₂, q, r, hx, hplaces, hcut, hlow, hhigh⟩

end Decimal

end PartitionPruning
