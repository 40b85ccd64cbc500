import PartitionPruning.Proofs.Numeral.Binary

/-!
# Integers as doubles

A double keeps the 53 leading bits of an integer and rounds away the others. The double of an integer has
the rounded integer as its value, and the integers that keep their value are those that have no more than
53 bits in front of their zeros. From half a unit below `2 ^ 1024` on there is no finite double.

* **`succ_le_divideHalfEven_iff`** — when a quotient is rounded up, ties included.
* **`nearest`**, **`nearest_eq_self_iff`** — the rounded integer, and which integers are kept.
* **`round?_natural`** — the format rounds an integer so, up to its limit.
* **`truncate_assemble`** — a double has the value that it is made of.
* **`ofScientific_natural`** — the double of an integer.
-/

namespace PartitionPruning

namespace BinaryFormat

/-! ## Rounded quotients -/

section DivideHalfEven

variable {num den k : Nat}

/-- **A quotient is rounded up** to a number from the middle in front of it on, in the middle itself only
to an even one. -/
theorem succ_le_divideHalfEven_iff (hden : 0 < den) :
    k + 1 ≤ divideHalfEven num den ↔
      (2 * k + 1) * den < 2 * num ∨ (2 * k + 1) * den = 2 * num ∧ k % 2 = 1 := by
  have hnum := Nat.div_add_mod num den
  have hrest := Nat.mod_lt num hden
  unfold divideHalfEven
  generalize num / den = q at *
  generalize num % den = r at *
  have hmiddle : (2 * k + 1) * den = 2 * (den * k) + den := by ring
  rw [hmiddle, ← hnum]
  rcases Nat.lt_trichotomy k q with hlt | rfl | hgt
  · -- the number is no more than the quotient
    have hle := Nat.mul_le_mul_left den (Nat.succ_le_of_lt hlt)
    rw [Nat.mul_succ] at hle
    dsimp only
    split_ifs <;> omega
  · -- the rest decides, and in the middle whether the quotient is odd
    dsimp only
    split_ifs <;> omega
  · have hle := Nat.mul_le_mul_left den (Nat.succ_le_of_lt hgt)
    rw [Nat.mul_succ] at hle
    dsimp only
    split_ifs <;> omega

/-- Rounding does not go below a whole number that the quotient has reached. -/
theorem le_divideHalfEven (hden : 0 < den) (h : k * den ≤ num) : k ≤ divideHalfEven num den := by
  cases k with
  | zero => exact Nat.zero_le _
  | succ k =>
    rw [Nat.succ_mul] at h
    refine (succ_le_divideHalfEven_iff hden).mpr (Or.inl ?_)
    have hmiddle : (2 * k + 1) * den = 2 * (k * den) + den := by ring
    omega

/-- Rounding does not go above a whole number that the quotient does not exceed. -/
theorem divideHalfEven_le (hden : 0 < den) (h : num ≤ k * den) : divideHalfEven num den ≤ k := by
  by_contra hlt
  have hmiddle : (2 * k + 1) * den = 2 * (k * den) + den := by ring
  rcases (succ_le_divideHalfEven_iff hden).mp (Nat.lt_of_not_le hlt) with h | ⟨h, _⟩ <;> omega

/-- A whole quotient is not rounded. -/
theorem divideHalfEven_of_eq_mul (hden : 0 < den) (h : num = k * den) : divideHalfEven num den = k :=
  Nat.le_antisymm (divideHalfEven_le hden h.le) (le_divideHalfEven hden h.ge)

end DivideHalfEven

/-! ## Rounded integers -/

/-- The place of the last bit of an integer that a double keeps. -/
def lastPlace (c : Nat) : Nat := c.log2 - 52

/-- The leading bits of an integer that a double keeps, after rounding. -/
def significand (c : Nat) : Nat := divideHalfEven c (2 ^ lastPlace c)

/-- The integer rounded to its 53 leading bits, a tie going to the even one. -/
def nearest (c : Nat) : Nat := significand c * 2 ^ lastPlace c

/-- An integer that has at most 53 bits in front of its zeros. -/
def FitsSignificand (c : Nat) : Prop := ∃ m e, c = m * 2 ^ e ∧ m < 2 ^ 53

variable {c : Nat}

/-- The last place of a number below `2^53` is the unit. -/
theorem lastPlace_eq_zero (h : c < 2 ^ 53) : lastPlace c = 0 := by
  rw [lastPlace, Nat.sub_eq_zero_iff_le]
  rcases Nat.eq_zero_or_pos c with rfl | hpos
  · decide
  · exact Nat.le_of_lt_succ ((Nat.log2_lt (by omega)).mpr h)

/-- The last place is 52 bits below the first. -/
theorem log2_eq (h : 2 ^ 53 ≤ c) : c.log2 = 52 + lastPlace c := by
  have hle : 53 ≤ c.log2 := (Nat.le_log2 (by omega)).mpr h
  rw [lastPlace]
  omega

/-- A number below `2^53` is a float. -/
theorem nearest_of_lt (h : c < 2 ^ 53) : nearest c = c := by
  rw [nearest, significand, lastPlace_eq_zero h, Nat.pow_zero, divideHalfEven_one, Nat.mul_one]

/-- **The significand** of an integer of more than 53 bits has 53 bits, or it is the next power of two. -/
theorem significand_bounds (h : 2 ^ 53 ≤ c) : 2 ^ 52 ≤ significand c ∧ significand c ≤ 2 ^ 53 := by
  have hlog := log2_eq h
  have hlow := Nat.log2_self_le (n := c) (by omega)
  have hhigh := Nat.lt_log2_self (n := c)
  rw [hlog, Nat.pow_add] at hlow
  rw [hlog, Nat.add_right_comm, Nat.pow_add] at hhigh
  exact ⟨le_divideHalfEven (Nat.two_pow_pos _) hlow, divideHalfEven_le (Nat.two_pow_pos _) hhigh.le⟩

/-- A power of two is not crossed by rounding. -/
theorem two_pow_le_nearest {k : Nat} (h : 2 ^ k ≤ c) : 2 ^ k ≤ nearest c := by
  by_cases hc : c < 2 ^ 53
  · rwa [nearest_of_lt hc]
  · have hc := Nat.le_of_not_lt hc
    have hk : k ≤ 52 + lastPlace c := log2_eq hc ▸ (Nat.le_log2 (by omega)).mpr h
    calc 2 ^ k ≤ 2 ^ (52 + lastPlace c) := Nat.pow_le_pow_right (by decide) hk
      _ = 2 ^ 52 * 2 ^ lastPlace c := Nat.pow_add ..
      _ ≤ nearest c := Nat.mul_le_mul_right _ (significand_bounds hc).1

/-- The tie behind `2 ^ 63` is rounded down to it. -/
theorem two_pow_lt_nearest_iff (h : 2 ^ 63 ≤ c) : 2 ^ 63 < nearest c ↔ 2 ^ 63 + 2 ^ 10 < c := by
  by_cases hc : 2 ^ 64 ≤ c
  · have := two_pow_le_nearest hc
    constructor <;> intro <;> omega
  · have hlog : c.log2 = 63 := by
      have hlow : 63 ≤ c.log2 := (Nat.le_log2 (by omega)).mpr h
      have hhigh : c.log2 < 64 := (Nat.log2_lt (by omega)).mpr (Nat.lt_of_not_le hc)
      omega
    have hplace : lastPlace c = 11 := by
      rw [lastPlace, hlog]
    have hround : 2 ^ 52 + 1 ≤ divideHalfEven c (2 ^ 11) ↔ _ :=
      succ_le_divideHalfEven_iff (Nat.two_pow_pos 11)
    rw [nearest, significand, hplace]
    omega

/-- **The integers that keep their value** are those with at most 53 bits in front of their zeros. -/
theorem nearest_eq_self_iff : nearest c = c ↔ FitsSignificand c := by
  constructor
  · intro h
    by_cases hc : c < 2 ^ 53
    · exact ⟨c, 0, (Nat.mul_one c).symm, hc⟩
    · rcases Nat.lt_or_eq_of_le (significand_bounds (Nat.le_of_not_lt hc)).2 with hlt | heq
      · exact ⟨significand c, lastPlace c, h.symm, hlt⟩
      · -- the next power of two has a single bit
        refine ⟨1, 53 + lastPlace c, ?_, by decide⟩
        rw [Nat.one_mul, Nat.pow_add, ← heq]
        exact h.symm
  · rintro ⟨m, e, rfl, hm⟩
    by_cases hc : m * 2 ^ e < 2 ^ 53
    · exact nearest_of_lt hc
    · have hc := Nat.le_of_not_lt hc
      have hle : lastPlace (m * 2 ^ e) ≤ e := by
        have hlow := Nat.log2_self_le (n := m * 2 ^ e) (by omega)
        have hlt : 2 ^ (m * 2 ^ e).log2 < 2 ^ (53 + e) := by
          rw [Nat.pow_add]
          exact Nat.lt_of_le_of_lt hlow (Nat.mul_lt_mul_of_pos_right hm (Nat.two_pow_pos e))
        have := (Nat.pow_lt_pow_iff_right (by decide)).mp hlt
        rw [lastPlace]
        omega
      -- nothing stands behind the last place
      have hsplit : m * 2 ^ e = m * 2 ^ (e - lastPlace (m * 2 ^ e)) * 2 ^ lastPlace (m * 2 ^ e) := by
        rw [Nat.mul_assoc, ← Nat.pow_add, Nat.sub_add_cancel hle]
      rw [nearest, significand, divideHalfEven_of_eq_mul (Nat.two_pow_pos _) hsplit, ← hsplit]

/-! ## Rounding in the format -/

/-- The first integer that is rounded beyond the largest double, which lies half a unit below
`2 ^ 1024`. -/
@[irreducible] def integerLimit : Nat := (2 ^ 54 - 1) * 2 ^ 970

/-- The limit with a name for the exponent, which is too large for the power to be computed. -/
theorem exists_integerLimit_eq : ∃ k, k = 970 ∧ integerLimit = (2 ^ 54 - 1) * 2 ^ k :=
  ⟨970, rfl, by unfold integerLimit; rfl⟩

/-- The floats reach beyond every integer column. -/
theorem two_pow_le_integerLimit : 2 ^ 64 ≤ integerLimit := by
  obtain ⟨k, hk, hlimit⟩ := exists_integerLimit_eq
  have hpow : 2 ^ 11 ≤ 2 ^ k := Nat.pow_le_pow_right (by decide) (by omega)
  rw [hlimit]
  omega

/-- The integer part of a magnitude. -/
def integerPart (m : Nat) (e : Int) : Nat := if 0 ≤ e then m * 2 ^ e.toNat else m / 2 ^ e.natAbs

/-- A shift that is undone leaves the number. -/
theorem integerPart_narrow (c k : Nat) : integerPart (c * 2 ^ k) (-(k : Int)) = c := by
  rw [integerPart]
  split
  · obtain rfl : k = 0 := by omega
    simp
  · rw [Int.natAbs_neg, Int.natAbs_natCast, Nat.mul_div_cancel c (Nat.two_pow_pos k)]

/-- A shift to the left is a product. -/
theorem integerPart_wide (m k : Nat) : integerPart m (k : Int) = m * 2 ^ k := by
  rw [integerPart, if_pos (Int.natCast_nonneg k), Int.toNat_natCast]

/-- Shifting to a larger unit multiplies the denominator. -/
theorem shift_wide {k : Nat} : shift c 1 k = (c, 2 ^ k) := by
  rw [shift, if_pos (Int.natCast_nonneg k), Nat.one_mul, Int.toNat_natCast]

/-- Shifting to a smaller unit multiplies the numerator. -/
theorem shift_narrow (k : Nat) : shift c 1 (-(k : Int)) = (c * 2 ^ k, 1) := by
  rw [shift]
  split
  · obtain rfl : k = 0 := by omega
    simp
  · rw [Int.natAbs_neg, Int.natAbs_natCast]

/-- The last bit of a natural number is 52 below its first. -/
theorem lastBit_natural (h : 0 < c) : double.lastBit c 1 = (c.log2 : Int) - 52 := by
  have hlow := Nat.log2_self_le (n := c) (by omega)
  have hlog : Nat.log2 1 = 0 := by decide
  have hleading : ¬ (shift c 1 ((c.log2 : Int) - 52)).1 <
      (shift c 1 ((c.log2 : Int) - 52)).2 * 2 ^ 52 := by
    rw [Nat.not_lt]
    -- The first guess is right: shifted by it, the number has 53 bits already.
    rcases Nat.le_total 52 c.log2 with hle | hle
    · obtain ⟨k, hk⟩ := Nat.exists_eq_add_of_le hle
      have hplace : (c.log2 : Int) - 52 = k := by omega
      rw [hplace, shift_wide, ← Nat.pow_add, Nat.add_comm, ← hk]
      exact hlow
    · obtain ⟨k, hk⟩ := Nat.exists_eq_add_of_le hle
      have hplace : (c.log2 : Int) - 52 = -(k : Int) := by omega
      rw [hplace, shift_narrow, Nat.one_mul]
      conv_lhs => rw [hk, Nat.pow_add]
      exact Nat.mul_le_mul_right _ hlow
  have hplace : (c.log2 : Int) - (0 : Nat) - ((53 - 1 : Nat) : Int) = c.log2 - 52 := by omega
  simp only [lastBit, double, hlog, hplace]
  rw [if_neg hleading]
  omega

/-- **A power of two is reached by rounding** from half a unit below it on. -/
theorem two_pow_reached_iff (h : 2 ^ 53 ≤ c) (k : Nat) :
    k + 54 ≤ lastPlace c + (significand c).log2 ↔ (2 ^ 54 - 1) * 2 ^ k ≤ c := by
  obtain ⟨hlow, hhigh⟩ := significand_bounds h
  have hlog : 52 ≤ (significand c).log2 ∧ (significand c).log2 ≤ 53 := by
    refine ⟨(Nat.le_log2 (by omega)).mpr hlow, Nat.le_of_lt_succ ((Nat.log2_lt (by omega)).mpr ?_)⟩
    omega
  have hcLow := Nat.log2_self_le (n := c) (by omega)
  have hcHigh := Nat.lt_log2_self (n := c)
  rw [log2_eq h] at hcLow hcHigh
  rcases Nat.lt_trichotomy (lastPlace c) (k + 1) with hplace | hplace | hplace
  · -- there is room for one more bit
    have hpow : 2 ^ (52 + lastPlace c + 1) ≤ 2 ^ (53 + k) :=
      Nat.pow_le_pow_right (by decide) (by omega)
    rw [Nat.pow_add 2 53] at hpow
    constructor <;> intro <;> omega
  · -- one bit more is needed: the significand is rounded up to it, the last one in front of it being odd
    have hmiddle : (2 * (2 ^ 53 - 1) + 1) * 2 ^ lastPlace c = 2 * ((2 ^ 54 - 1) * 2 ^ k) := by
      rw [hplace, Nat.pow_succ]
      ring
    have hround : 2 ^ 53 - 1 + 1 ≤ divideHalfEven c (2 ^ lastPlace c) ↔ _ :=
      succ_le_divideHalfEven_iff (Nat.two_pow_pos (lastPlace c))
    rw [hmiddle] at hround
    have hbits : 53 ≤ (significand c).log2 ↔ 2 ^ 53 ≤ significand c := Nat.le_log2 (by omega)
    have hceil : 2 ^ 53 ≤ significand c ↔ (2 ^ 54 - 1) * 2 ^ k ≤ c := by
      refine hround.trans ?_
      omega
    rw [← hceil, ← hbits]
    omega
  · -- the integer has the bit itself
    have hpow : 2 ^ (54 + k) ≤ 2 ^ (52 + lastPlace c) :=
      Nat.pow_le_pow_right (by decide) (by omega)
    rw [Nat.pow_add 2 54] at hpow
    constructor <;> intro <;> omega

/-- The significand passes the top of the format exactly at the limit. -/
theorem top_reached_iff (h : 2 ^ 53 ≤ c) :
    1024 ≤ lastPlace c + (significand c).log2 ↔ integerLimit ≤ c := by
  obtain ⟨k, hk, hlimit⟩ := exists_integerLimit_eq
  rw [hlimit, ← two_pow_reached_iff h k, hk]

/-- Rounding to the last bit, and whether the result is beyond the top. -/
theorem round?_eq {f : BinaryFormat} {num den n d : Nat} {e : Int} (hnum : num ≠ 0)
    (he : f.lastBit num den = e) (hshift : shift num den e = (n, d)) :
    f.round? num den =
      if divideHalfEven n d ≠ 0 ∧ f.top ≤ e + (divideHalfEven n d).log2 then none
      else some (divideHalfEven n d, e) := by
  rw [round?, if_neg hnum]
  simp only [he, hshift]

/-- **Integers of more than 53 bits** are rounded to the significand at the last place. -/
theorem round?_wide (h : 2 ^ 53 ≤ c) :
    double.round? c 1 =
      if integerLimit ≤ c then none else some (significand c, (lastPlace c : Int)) := by
  have hplace : (c.log2 : Int) - 52 = lastPlace c := by
    have := log2_eq h
    omega
  have hne : significand c ≠ 0 := by
    have := (significand_bounds h).1
    omega
  have htop : double.top ≤ (lastPlace c : Int) + (significand c).log2 ↔ integerLimit ≤ c := by
    rw [← top_reached_iff h]
    change (1024 : Int) ≤ _ ↔ _
    omega
  rw [round?_eq (by omega) ((lastBit_natural (by omega)).trans hplace) shift_wide]
  change (if significand c ≠ 0 ∧ _ ≤ (lastPlace c : Int) + (significand c).log2 then _ else _) = _
  simp only [ne_eq, hne, not_false_eq_true, true_and, htop]
  rfl

/-- **Integers of up to 53 bits** are kept. -/
theorem round?_narrow (hpos : 0 < c) (h : c < 2 ^ 53) :
    ∃ k : Nat, k ≤ 52 ∧ double.round? c 1 = some (c * 2 ^ k, -(k : Int)) ∧ 2 ^ 52 ≤ c * 2 ^ k ∧
      c * 2 ^ k < 2 ^ 53 := by
  have hlog : c.log2 ≤ 52 := Nat.le_of_lt_succ ((Nat.log2_lt (by omega)).mpr h)
  obtain ⟨k, hk⟩ := Nat.exists_eq_add_of_le hlog
  have hplace : (c.log2 : Int) - 52 = -(k : Int) := by omega
  have hlow := Nat.mul_le_mul_right (2 ^ k) (Nat.log2_self_le (n := c) (by omega))
  have hhigh := Nat.mul_lt_mul_of_pos_right (Nat.lt_log2_self (n := c)) (Nat.two_pow_pos k)
  rw [← Nat.pow_add, ← hk] at hlow
  rw [← Nat.pow_add, Nat.add_right_comm, ← hk] at hhigh
  -- Scaled to 53 bits it is far below the top of the format.
  have hlog' : (c * 2 ^ k).log2 ≤ 52 :=
    Nat.le_of_lt_succ ((Nat.log2_lt (by omega)).mpr hhigh)
  refine ⟨k, by omega, ?_, hlow, hhigh⟩
  rw [round?_eq (by omega) ((lastBit_natural hpos).trans hplace) (shift_narrow k),
    divideHalfEven_one, if_neg]
  rintro ⟨_, htop⟩
  change (1024 : Int) ≤ _ at htop
  omega

end BinaryFormat

namespace Binary64

open BinaryFormat (integerPart nearest integerLimit significand lastPlace)
open Numeral (signed digitCount)

/-! ## Doubles of a magnitude -/

/-- A magnitude of 53 bits, or the power of two that rounding gives instead, within the range of
doubles. -/
inductive InFormat : Nat → Int → Prop
  | full {m : Nat} {e : Int} (low : 2 ^ 52 ≤ m) (high : m < 2 ^ 53) (bottom : -1074 ≤ e)
      (top : e ≤ 971) : InFormat m e
  | carried {e : Int} (nonneg : 0 ≤ e) (top : e ≤ 970) : InFormat (2 ^ 53) e

section Assemble

variable {negative : Bool} {m : Nat} {e : Int}

/-- The bounds of significands and of exponents. -/
theorem InFormat.le (h : InFormat m e) : m ≤ 2 ^ 53 ∧ e ≤ 971 := by
  cases h <;> omega

/-- The bits of an assembled float. A significand of `2^53` carries into the exponent. -/
theorem toNat_assemble (h : InFormat m e) :
    (assemble negative m e).bits.toNat =
      (if negative then 2 ^ 63 else 0) + (e + 1074).toNat * 2 ^ 52 + m := by
  obtain ⟨hm, he⟩ := h.le
  rw [assemble, UInt64.toNat_ofNat']
  apply Nat.mod_eq_of_lt
  split <;> omega

/-- An assembled float has the sign it is given. -/
theorem isNegative_assemble (h : InFormat m e) : (assemble negative m e).isNegative = negative := by
  obtain ⟨hm, he⟩ := h.le
  rw [isNegative, toNat_assemble h]
  cases negative <;> simp <;> omega

/-- The exponent of a magnitude, and the carry that makes it the next one. -/
theorem exponentField_assemble (h : InFormat m e) :
    (assemble negative m e).exponentField = (e + 1075).toNat + m / 2 ^ 53 := by
  rw [exponentField, toNat_assemble h]
  cases h <;> split <;> omega

/-- The fraction is the significand without its first bit. -/
theorem fraction_assemble (h : InFormat m e) : (assemble negative m e).fraction = m % 2 ^ 52 := by
  rw [fraction, toNat_assemble h]
  split <;> omega

/-- An assembled float is finite. -/
theorem isFinite_assemble (negative : Bool) (h : InFormat m e) :
    (assemble negative m e).isNaN = false ∧ (assemble negative m e).isInfinite = false := by
  have hexponent : (assemble negative m e).exponentField ≠ 2047 := by
    rw [exponentField_assemble h]
    cases h <;> omega
  simp [isNaN, isInfinite, hexponent]

/-- The magnitude of an assembled float, with the carry of `2^53`. -/
theorem magnitude_assemble (h : InFormat m e) :
    (assemble negative m e).magnitude = if m < 2 ^ 53 then (m, e) else (2 ^ 52, e + 1) := by
  rw [magnitude, exponentField_assemble h, fraction_assemble h]
  cases h with
  | full low high bottom top =>
    rw [if_neg (by omega), if_pos high]
    exact Prod.ext (by dsimp only; omega) (by dsimp only; omega)
  | carried nonneg top =>
    rw [if_neg (by omega), if_neg (by decide)]
    exact Prod.ext (by dsimp only; omega) (by dsimp only; omega)

/-- **The integer part** of a double is that of the magnitude that it was made of. -/
theorem truncate_assemble (h : InFormat m e) :
    (assemble negative m e).truncate = signed negative (integerPart m e) := by
  rw [truncate, isNegative_assemble h, magnitude_assemble h]
  cases h with
  | full low high =>
    rw [if_pos high]
    rfl
  | carried nonneg =>
    obtain ⟨k, rfl⟩ := Int.eq_ofNat_of_zero_le nonneg
    -- The carried significand has one more in the exponent, which is the same number.
    have hcarry : 2 ^ 52 * 2 ^ (k + 1) = 2 ^ 53 * 2 ^ k := by
      rw [Nat.pow_succ]
      omega
    rw [if_neg (by decide), integerPart, if_pos nonneg]
    dsimp only
    rw [if_pos (by omega)]
    change signed negative (2 ^ 52 * 2 ^ (k + 1)) = _
    rw [hcarry]
    rfl

end Assemble

/-! ## Doubles of integers -/

/-- **An integer below the limit** has a magnitude in the format, which has the rounded integer as its
integer part. -/
theorem round?_natural {c : Nat} (hpos : 0 < c) (h : c < integerLimit) :
    ∃ m e, BinaryFormat.double.round? c 1 = some (m, e) ∧ InFormat m e ∧
      integerPart m e = nearest c := by
  by_cases hc : c < 2 ^ 53
  · obtain ⟨k, hk, hround, hlow, hhigh⟩ := BinaryFormat.round?_narrow hpos hc
    refine ⟨c * 2 ^ k, -(k : Int), hround, .full hlow hhigh (by omega) (by omega), ?_⟩
    rw [BinaryFormat.nearest_of_lt hc, BinaryFormat.integerPart_narrow]
  · have hc := Nat.le_of_not_lt hc
    refine ⟨significand c, lastPlace c, ?_, ?_, BinaryFormat.integerPart_wide _ _⟩
    · rw [BinaryFormat.round?_wide hc, if_neg (by omega)]
    · obtain ⟨hlow, hhigh⟩ := BinaryFormat.significand_bounds hc
      have htop := (BinaryFormat.top_reached_iff hc).not.mpr (Nat.not_le.mpr h)
      have hlog (k : Nat) : k ≤ (significand c).log2 ↔ 2 ^ k ≤ significand c :=
        Nat.le_log2 (by omega)
      have hfull := (hlog 52).mpr hlow
      -- where rounding gives one bit more, the exponent has room for the carry
      rcases Nat.lt_or_eq_of_le hhigh with hlt | heq
      · exact .full hlow hlt (by omega) (by omega)
      · have hcarried := (hlog 53).mpr heq.ge
        rw [heq]
        exact .carried (by omega) (by omega)

/-- **The double of an integer** below the limit is finite and has the rounded integer as its value. -/
theorem ofFraction?_natural (negative : Bool) {c : Nat} (hpos : 0 < c) (h : c < integerLimit) :
    ∃ x, ofFraction? negative c 1 = some x ∧ x.isNaN = false ∧ x.isInfinite = false ∧
      x.truncate = signed negative (nearest c) := by
  obtain ⟨m, e, hround, hformat, hpart⟩ := round?_natural hpos h
  obtain ⟨hnan, hinfinite⟩ := isFinite_assemble negative hformat
  refine ⟨assemble negative m e, ?_, hnan, hinfinite, ?_⟩
  · rw [ofFraction?, hround]
    rfl
  · rw [truncate_assemble hformat, hpart]

/-- From the limit on there is no finite float. -/
theorem ofFraction?_of_limit_le {negative : Bool} {c : Nat} (h : integerLimit ≤ c) :
    ofFraction? negative c 1 = none := by
  have hc : 2 ^ 53 ≤ c := by
    have := BinaryFormat.two_pow_le_integerLimit
    omega
  rw [ofFraction?, BinaryFormat.round?_wide hc, if_pos h]
  rfl

/-- An integer that is too long to be looked at is beyond the limit. -/
theorem limit_le_of_digitCount {c : Nat} (h : 400 < digitCount c) : integerLimit ≤ c := by
  obtain ⟨k, hk, hlimit⟩ := BinaryFormat.exists_integerLimit_eq
  -- the power of ten is too large to be computed
  obtain ⟨n, hn⟩ : ∃ n, n = 400 := ⟨_, rfl⟩
  rw [← hn] at h
  have hten : 10 ^ n ≤ c := by
    by_contra hlt
    have := (Nat.length_toDigits_le_iff (n := c) (by decide : 1 < 10) (by omega)).mpr
      (Nat.lt_of_not_le hlt)
    exact Nat.not_le.mpr h this
  calc integerLimit = (2 ^ 54 - 1) * 2 ^ k := hlimit
    _ ≤ 2 ^ 54 * 2 ^ k := Nat.mul_le_mul_right _ (by decide)
    _ = 2 ^ (54 + k) := (Nat.pow_add ..).symm
    _ ≤ 2 ^ (3 * n) := Nat.pow_le_pow_right (by decide) (by omega)
    _ = 8 ^ n := Nat.pow_mul ..
    _ ≤ 10 ^ n := Nat.pow_le_pow_left (by decide) n
    _ ≤ c := hten

/-- Past four hundred digits the text is infinite without being rounded. -/
theorem ofScientific_natural_eq (negative : Bool) {c : Nat} (hpos : 0 < c) :
    ofScientific negative c 0 =
      if 400 < digitCount c then infinity negative
      else (ofFraction? negative c 1).getD (infinity negative) := by
  have hlong : 400 < (0 : Int) + digitCount c ↔ 400 < digitCount c := by omega
  have hshort : ¬ (0 : Int) + digitCount c < -400 := by omega
  rw [ofScientific, if_neg (by omega), if_neg hshort]
  simp only [hlong, le_refl, if_true, Int.toNat_zero, Nat.pow_zero, Nat.mul_one]

/-- Either zero is cut down to zero. -/
theorem truncate_zero (negative : Bool) : (assemble negative 0 (-1074)).truncate = 0 := by
  have hmagnitude : (assemble negative 0 (-1074)).magnitude = (0, -1074) := by
    cases negative <;> decide
  rw [truncate, hmagnitude]
  dsimp only
  rw [if_neg (by decide), Nat.zero_div]
  cases (assemble negative 0 (-1074)).isNegative <;> rfl

/-- **The double of an integer numeral** below the limit. -/
theorem ofScientific_natural (negative : Bool) {c : Nat} (h : c < integerLimit) :
    (ofScientific negative c 0).isNaN = false ∧ (ofScientific negative c 0).isInfinite = false ∧
      (ofScientific negative c 0).truncate = signed negative (nearest c) := by
  rcases Nat.eq_zero_or_pos c with rfl | hpos
  · have hzero : ofScientific negative 0 0 = assemble negative 0 (-1074) := if_pos rfl
    rw [hzero, truncate_zero, BinaryFormat.nearest_of_lt (by decide)]
    cases negative <;> decide
  · have hshort : ¬ 400 < digitCount c := fun hlong =>
      Nat.not_le.mpr h (limit_le_of_digitCount hlong)
    obtain ⟨x, hx, hfinite⟩ := ofFraction?_natural negative hpos h
    rw [ofScientific_natural_eq negative hpos, if_neg hshort, hx]
    exact hfinite

/-- An infinity is infinite, and not a missing number. -/
theorem isInfinite_infinity (negative : Bool) :
    (infinity negative).isNaN = false ∧ (infinity negative).isInfinite = true := by
  cases negative <;> decide

/-- **Beyond the limit** an integer numeral is infinite. -/
theorem ofScientific_of_limit_le (negative : Bool) {c : Nat} (h : integerLimit ≤ c) :
    ofScientific negative c 0 = infinity negative := by
  have hpos : 0 < c := by
    have := BinaryFormat.two_pow_le_integerLimit
    omega
  rw [ofScientific_natural_eq negative hpos, ofFraction?_of_limit_le h]
  split <;> rfl

end Binary64

end PartitionPruning
