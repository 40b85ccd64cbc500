import PartitionPruning.Numeral.Multiple
import PartitionPruning.Proofs.Numeral.Exact
import PartitionPruning.Proofs.Value.Comparison

/-!
# Decimals as counts

A decimal of a scale is a count of units, which is its unscaled value, and decimals of one scale are
compared as their counts. The scale that is read off a decimal is the distance of its exponent from zero,
though, so a decimal with a positive exponent passes for one of that many places, with a count that is far
from its unscaled value.

* **`IsCount`** — how many units of a scale a decimal is.
* **`exists_count`** — the count of a decimal that has a scale: its unscaled value, or a large multiple.
* **`testCompare_count`** — a comparison of two decimals is that of their counts.
-/

namespace PartitionPruning

namespace Decimal

open Numeral

/-- Whether a decimal is a number of units of the last place of a scale. -/
def IsCount (scale : Nat) (d : Decimal) (n : Int) : Prop :=
  d.exactValue? = some (((n : ℚ) * 10 ^ (-(scale : Int)) : ℚ) : WithBotTop ℚ)

variable {scale : Nat} {x y : Decimal} {m n : Int}

/-- The unit of the last place is positive. -/
theorem unit_pos (scale : Nat) : (0 : ℚ) < 10 ^ (-(scale : Int)) := zpow_pos (by norm_num) _

/-- A decimal is one count of its units. -/
theorem IsCount.unique (hm : x.IsCount scale m) (hn : x.IsCount scale n) : m = n := by
  have hcoe : ((m : ℚ) * 10 ^ (-(scale : Int)) : ℚ) = n * 10 ^ (-(scale : Int)) :=
    WithBotTop.coe_injective (Option.some.inj (hm.symm.trans hn))
  exact_mod_cast mul_right_cancel₀ (unit_pos scale).ne' hcoe

/-- A decimal made of a count is that count. -/
theorem isCount_ofUnscaled (n : Int) (scale : Nat) : (ofUnscaled n scale).IsCount scale n := by
  have h := unscaled_ofUnscaled n scale
  simp only [ofUnscaled, unscaled] at h
  simp [ofUnscaled, IsCount, exactValue?, h]

/-- A row value of a type of decimals counts the units of its scale. -/
theorem isCount_unscaled {negative : Bool} {c scale : Nat} :
    (finite negative c (-(scale : Int))).IsCount scale
      (finite negative c (-(scale : Int))).unscaled := rfl

/-- **The count of a decimal** that passes for one of a scale. If the scale is that of a positive exponent,
the digits are as many places on the other side of the point. -/
theorem exists_count (h : x.scale? = some scale) :
    x.IsCount scale x.unscaled ∨
      0 < scale ∧ x.IsCount scale (x.unscaled * 10 ^ (2 * scale)) := by
  cases x with
  | finite negative c e =>
    obtain rfl : e.natAbs = scale := Option.some.inj h
    -- A positive exponent is taken for a scale of its size, which is off by twice as many places.
    rcases Int.le_total e 0 with hle | hle
    · left
      obtain ⟨k, rfl⟩ : ∃ k : Nat, e = -(k : Int) := ⟨e.natAbs, by omega⟩
      rw [Int.natAbs_neg, Int.natAbs_natCast]
      rfl
    · obtain ⟨k, rfl⟩ := Int.eq_ofNat_of_zero_le hle
      rcases Nat.eq_zero_or_pos k with rfl | hpos
      · exact Or.inl rfl
      · refine Or.inr ⟨by simpa using hpos, ?_⟩
        have hpower : (10 : ℚ) ^ (k : Int) = 10 ^ (2 * k) * 10 ^ (-(k : Int)) := by
          rw [← zpow_natCast (10 : ℚ) (2 * k), ← zpow_add₀ (by norm_num)]
          congr 1
          omega
        rw [IsCount, exactValue?, Int.natAbs_natCast, unscaled, hpower]
        push_cast
        rw [mul_assoc]
  | infinite | nan => simp [scale?] at h

/-- Truncation rounds the unscaled value down. -/
theorem truncate_eq (x : Decimal) (width scale : Nat) :
    x.truncate width scale = ofUnscaled (floorMultiple width x.unscaled) scale := by
  rw [truncate, Int.fmod_eq_emod_of_nonneg _ (Int.natCast_nonneg width)]
  rfl

/-- Decimals are ordered as their counts. -/
theorem order?_of_isCount (hx : x.IsCount scale m) (hy : y.IsCount scale n) :
    order? x y = some (compare m n) := by
  have hcmp : cmp (((m : ℚ) * 10 ^ (-(scale : Int)) : ℚ) : WithBotTop ℚ)
      ((n : ℚ) * 10 ^ (-(scale : Int)) : ℚ) =
        cmp ((m : ℚ) * 10 ^ (-(scale : Int))) (n * 10 ^ (-(scale : Int))) :=
    WithBotTop.coe_strictMono.cmp_map_eq _ _
  rw [order?_eq, hx, hy, Option.bind_some, Option.map_some, hcmp, cmp_mul_pos_right (unit_pos scale),
    compare_eq_cmp]

/-- What is a count is a number. -/
theorem isNaN_of_isCount (h : x.IsCount scale m) : x.isNaN = false := by
  cases x with
  | nan => simp [IsCount, exactValue?] at h
  | _ => rfl

/-- What is a count signals nothing. -/
theorem isSignaling_of_isCount (h : x.IsCount scale m) : x.isSignaling = false := by
  cases x with
  | nan => simp [IsCount, exactValue?] at h
  | _ => rfl

end Decimal

/-- Decimals with one exponent are equal exactly if they have one unscaled value. -/
theorem Value.eq_exponent_iff {negative negative' : Bool} {c c' : Nat} {e : Int} :
    Value.eq (.decimal (.finite negative c e)) (.decimal (.finite negative' c' e)) = .ok true ↔
      (Decimal.finite negative c e).unscaled = (Decimal.finite negative' c' e).unscaled := by
  simp [Value.eq, number?, eqNumber, Decimal.isSignaling, Decimal.order?, Decimal.orderFinite,
    Decimal.unscaled]

/-- Decimals have one key if they are the same count. -/
theorem Value.sameKey_count {scale : Nat} {x y : Decimal} {m n : Int} (hx : x.IsCount scale m)
    (hy : y.IsCount scale n) : (Value.decimal x).SameKey (.decimal y) ↔ m = n := by
  have hkey {z : Decimal} {k : Int} (hz : z.IsCount scale k) : (Value.decimal z).key? =
      some (.number (((k : ℚ) * 10 ^ (-(scale : Int)) : ℚ) : WithBotTop ℚ)) := by
    simp only [key?, number?, Option.bind_some, show z.exactValue? = _ from hz, Option.map_some]
  constructor
  · rintro ⟨k, hk, hk'⟩
    have hsame := (hkey hx).symm.trans (hk.trans (hk'.symm.trans (hkey hy)))
    refine hx.unique (Eq.trans hx ?_)
    simpa using hsame
  · rintro rfl
    exact ⟨_, hkey hx, hkey hy⟩

/-- **Comparisons of decimals** are those of their counts. -/
theorem Predicate.testCompare_count {scale : Nat} {x y : Decimal} {m n : Int} {op : Comparison}
    (hop : op.isBeginning = false) (hx : x.IsCount scale m) (hy : y.IsCount scale n) :
    testCompare op (.decimal x) (.decimal y) = .ok (op.holds m n) := by
  have hnull (outcome : Except Fault Bool) : unlessNull (.decimal x) outcome = outcome := rfl
  have horder := Decimal.order?_of_isCount hx hy
  have heq : Value.eq (.decimal x) (.decimal y) = .ok (decide (m = n)) := by
    have hbeq : (some (Ord.compare m n) == some .eq) = decide (m = n) := by
      rw [Bool.eq_iff_iff]
      simp
    simp [Value.eq, Value.number?, Value.eqNumber, Decimal.isSignaling_of_isCount hx,
      Decimal.isSignaling_of_isCount hy, horder, hbeq]
  have hvalues : Value.order (.decimal x) (.decimal y) = .ok (some (Ord.compare m n)) := by
    simp [Value.order, Value.number?, Value.isDecimal, Decimal.isNaN_of_isCount hx,
      Decimal.isNaN_of_isCount hy, horder]
  cases op with
  | startsWith | notStartsWith => simp [Comparison.isBeginning] at hop
  | equal => rw [testCompare, heq, Comparison.holds]
  | notEqual => simp [testCompare, heq, Comparison.holds]
  | less | greater | lessOrEqual | greaterOrEqual =>
    -- the order of the counts is told apart as that of the values
    rw [testCompare, hnull]
    simp only [Value.less, Value.greater, Value.lessOrEqual, Value.greaterOrEqual, hvalues,
      Outcome.map_ok, Comparison.holds, Except.ok.injEq]
    rw [Bool.eq_iff_iff]
    rcases Int.lt_trichotomy m n with h | rfl | h
    · simp [Int.compare_eq_lt.mpr h]
      omega
    · simp
    · simp [Int.compare_eq_gt.mpr h]
      omega

end PartitionPruning
