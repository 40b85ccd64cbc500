import Mathlib.Algebra.GroupWithZero.Nat
import Mathlib.Order.Monotone.Basic
import PartitionPruning.Calendar.Epoch
import PartitionPruning.Proofs.Outcome

/-!
# Years and months of days

`Date.ofDay` finds the year of a day by splitting off cycles of years, and its month by walking over
the lengths of the months. Here both are tied to the calendar itself: a day lies between the first
day of its year and that of the next one, so later days are never in earlier years or months.

* **`splitYear_spec`** — the day is as many days behind the start of its year as `splitYear` says, and
  the year is longer than that.
* **`yearOrdinal_mono`, `monthOrdinal_mono`** — years and months never decrease from day to day.
* **`yearOfMicros_eq`, `monthOfMicros_eq`** — the year and the month of a moment are those of its day.
-/

namespace PartitionPruning

namespace Date

/-! ## Lengths of years -/

/-- The days of a year. -/
def yearLength (year : Nat) : Nat := if isLeap year then 366 else 365

/-- A year begins its own length before the next. -/
theorem daysBeforeYear_succ {year : Nat} (h : 1 ≤ year) :
    daysBeforeYear (year + 1) = daysBeforeYear year + yearLength year := by
  obtain ⟨p, rfl⟩ : ∃ p, year = p + 1 := ⟨year - 1, by omega⟩
  have hcentury : p / 100 ≤ p := Nat.div_le_self p 100
  simp only [daysBeforeYear, yearLength, isLeap, Nat.add_sub_cancel, Nat.succ_div,
    Nat.dvd_iff_mod_eq_zero, Bool.and_eq_true, Bool.or_eq_true, decide_eq_true_eq]
  -- a year that 400 divides is divided by 100, and one that 100 divides by 4
  by_cases h4 : (p + 1) % 4 = 0
  · by_cases h100 : (p + 1) % 100 = 0
    · by_cases h400 : (p + 1) % 400 = 0
      · simp [h4, h100, h400]
        omega
      · simp [h4, h100, h400]
        omega
    · have h400 : ¬(p + 1) % 400 = 0 := by omega
      simp [h4, h100, h400]
      omega
  · have h100 : ¬(p + 1) % 100 = 0 := by omega
    have h400 : ¬(p + 1) % 400 = 0 := by omega
    simp [h4, h100, h400]
    omega

/-- A later year begins no earlier. -/
theorem daysBeforeYear_mono {y z : Nat} (h : y ≤ z) : daysBeforeYear y ≤ daysBeforeYear z := by
  refine monotone_nat_of_le_succ (fun year => ?_) h
  cases year with
  | zero => simp [daysBeforeYear]
  | succ year =>
    have hsucc := daysBeforeYear_succ (Nat.le_add_left 1 year)
    rw [hsucc]
    exact Nat.le_add_right ..

/-- The months of a year make up the year. -/
theorem sum_monthLengths (year : Nat) :
    (monthLengths year).foldl (· + ·) 0 = yearLength year := by
  cases h : isLeap year <;> simp [monthLengths, yearLength, h]

/-! ## The year of a day -/

/-- The days before a year that lies so many cycles, centuries, fours and years behind year 1. -/
theorem daysBeforeYear_of_parts {q c f a : Nat} (hc : c ≤ 3) (hf : f ≤ 24) (ha : a ≤ 3) :
    daysBeforeYear (400 * q + 100 * c + 4 * f + a + 1) =
      146097 * q + 36524 * c + 1461 * f + 365 * a := by
  have h4 : (400 * q + 100 * c + 4 * f + a) / 4 = 100 * q + 25 * c + f := by omega
  have h100 : (400 * q + 100 * c + 4 * f + a) / 100 = 4 * q + c := by omega
  have h400 : (400 * q + 100 * c + 4 * f + a) / 400 = q := by omega
  simp only [daysBeforeYear, Nat.add_sub_cancel, h4, h100, h400]
  omega

/-- **The year of a day.** A cycle of 400 years has 146097 days, a century 36524 of them, four years
1461 and one year 365, but for the last one of each, which is a day longer. -/
theorem splitYear_spec (n : Nat) :
    daysBeforeYear ((splitYear n).1 + 1) + (splitYear n).2 = n ∧
      (splitYear n).2 < yearLength ((splitYear n).1 + 1) := by
  obtain ⟨q, hq⟩ : ∃ q, q = n / 146097 := ⟨_, rfl⟩
  obtain ⟨c, hc⟩ : ∃ c, c = min 3 (n % 146097 / 36524) := ⟨_, rfl⟩
  obtain ⟨m, hm⟩ : ∃ m, m = n % 146097 - c * 36524 := ⟨_, rfl⟩
  obtain ⟨a, ha⟩ : ∃ a, a = min 3 (m % 1461 / 365) := ⟨_, rfl⟩
  have hsplit : splitYear n = (400 * q + 100 * c + 4 * (m / 1461) + a, m % 1461 - a * 365) := by
    simp only [splitYear, hq, hc, hm, ha]
  -- the parts add up, and each minimum takes the longer last part into account
  have hn : n = 146097 * q + 36524 * c + m := by omega
  have hcentury : m < 36524 ∨ (c = 3 ∧ m = 36524) := by omega
  have hfours : m / 1461 ≤ 24 := by omega
  rw [hsplit]
  simp only
  refine ⟨?_, ?_⟩
  · rw [daysBeforeYear_of_parts (by omega) hfours (by omega)]
    omega
  · by_cases hlast : m % 1461 = 1460
    · -- the last day of four years: the year is a leap year, for a century lacks its last day
      have hleap : isLeap (400 * q + 100 * c + 4 * (m / 1461) + a + 1) = true := by
        simp only [isLeap, Bool.and_eq_true, Bool.or_eq_true, decide_eq_true_eq]
        omega
      simp only [yearLength, hleap, if_true]
      omega
    · have hshort : m % 1461 - a * 365 < 365 := by omega
      simp only [yearLength]
      split <;> omega

/-- A day lies before the start of the year behind its own. -/
theorem lt_daysBeforeYear (n : Nat) : n < daysBeforeYear ((splitYear n).1 + 2) := by
  have hspec := splitYear_spec n
  have hsucc : daysBeforeYear ((splitYear n).1 + 2) = _ :=
    daysBeforeYear_succ (Nat.le_add_left 1 (splitYear n).1)
  omega

/-- A later day is in no earlier year. -/
theorem splitYear_mono {m n : Nat} (h : m ≤ n) : (splitYear m).1 ≤ (splitYear n).1 := by
  have hm := splitYear_spec m
  have hn := lt_daysBeforeYear n
  by_contra hlt
  -- the year of `m` starts behind the end of that of `n`
  have := daysBeforeYear_mono (y := (splitYear n).1 + 2) (z := (splitYear m).1 + 1) (by omega)
  omega

/-! ## The month of a day -/

/-- The number found is counted from the first. -/
theorem le_locate (first : Nat) (lens : List Nat) (n : Nat) : first ≤ (locate first lens n).1 := by
  induction lens generalizing first n with
  | nil => exact Nat.le_refl first
  | cons len rest ih =>
    simp only [locate]
    split
    · exact Nat.le_refl first
    · exact Nat.le_of_succ_le (ih (first + 1) (n - len))

/-- A day inside a year lies in one of its months. -/
theorem locate_lt (first : Nat) {lens : List Nat} {n : Nat} (h : n < lens.sum) :
    (locate first lens n).1 < first + lens.length := by
  induction lens generalizing first n with
  | nil => simp at h
  | cons len rest ih =>
    simp only [locate]
    split
    · simp
    · have := ih (first + 1) (n := n - len) (by simp at h; omega)
      simp only [List.length_cons]
      omega

/-- A later place is found in no earlier month. -/
theorem locate_mono {first : Nat} {lens : List Nat} {m n : Nat} (h : m ≤ n) :
    (locate first lens m).1 ≤ (locate first lens n).1 := by
  induction lens generalizing first m n with
  | nil => exact Nat.le_refl first
  | cons len rest ih =>
    simp only [locate]
    by_cases hm : m < len
    · rw [if_pos hm]
      split
      · exact Nat.le_refl first
      · exact Nat.le_of_succ_le (le_locate (first + 1) rest (n - len))
    · rw [if_neg hm, if_neg (by omega)]
      exact ih (by omega)

/-- Years are counted from one. -/
theorem year_ofDay (n : Nat) : (ofDay n).year = (splitYear n).1 + 1 := by
  unfold ofDay
  generalize splitYear n = s
  rfl

/-- The month is found by going along the lengths of its year's months. -/
theorem month_ofDay (n : Nat) :
    (ofDay n).month = (locate 1 (monthLengths ((splitYear n).1 + 1)) (splitYear n).2).1 := by
  unfold ofDay
  generalize splitYear n = s
  rfl

/-- Months are counted from one. -/
theorem month_ofDay_pos (n : Nat) : 1 ≤ (ofDay n).month := by
  rw [month_ofDay]
  exact le_locate 1 _ _

/-- No month comes after the twelfth: the days of a year are spent by then. -/
theorem month_ofDay_le (n : Nat) : (ofDay n).month ≤ 12 := by
  have hlt := (splitYear_spec n).2
  rw [← sum_monthLengths, ← List.sum_eq_foldl] at hlt
  have := locate_lt 1 hlt
  rw [month_ofDay]
  simp only [monthLengths, List.length_cons, List.length_nil] at this ⊢
  omega

/-- A later day is in no earlier year. -/
theorem year_ofDay_mono {m n : Nat} (h : m ≤ n) : (ofDay m).year ≤ (ofDay n).year := by
  rw [year_ofDay, year_ofDay]
  exact Nat.succ_le_succ (splitYear_mono h)

/-! ## Ordinals -/

/-- Ordinals of years grow with the days. -/
theorem yearOrdinal_mono {m n : Nat} (h : m ≤ n) :
    (ofDay m).yearOrdinal ≤ (ofDay n).yearOrdinal := by
  have := year_ofDay_mono h
  simp only [yearOrdinal]
  omega

/-- Later days are never in earlier months: within a year by the walk over its months, across years
because a month of a year is at most the twelfth. -/
theorem monthOrdinal_mono {m n : Nat} (h : m ≤ n) :
    (ofDay m).monthOrdinal ≤ (ofDay n).monthOrdinal := by
  have hyear := year_ofDay_mono h
  have hpos := month_ofDay_pos n
  have hle := month_ofDay_le m
  simp only [monthOrdinal]
  -- A later year outweighs any month; within a year the month decides.
  rcases Nat.lt_or_eq_of_le hyear with hlt | heq
  · omega
  · have hsplit : (splitYear m).1 = (splitYear n).1 := by
      rw [year_ofDay, year_ofDay] at heq
      exact Nat.succ.inj heq
    have hm := splitYear_spec m
    have hn := splitYear_spec n
    have hday : (splitYear m).2 ≤ (splitYear n).2 := by
      rw [hsplit] at hm
      omega
    have hmonth : (ofDay m).month ≤ (ofDay n).month := by
      rw [month_ofDay, month_ofDay, hsplit]
      exact locate_mono hday
    omega

end Date

/-! ## Counting from 1970 -/

namespace Epoch

open Outcome (map_eq_ok)

/-- A day has a date exactly between the ends of the calendar. -/
theorem dateOfDay_eq_ok {n : Int} {d : Date} :
    dateOfDay n = .ok d ↔ (Date.firstNumber ≤ n ∧ n ≤ Date.lastNumber) ∧
      d = Date.ofDay (n + Date.epochOffset).toNat := by
  simp only [dateOfDay, Date.ofNumber?]
  split
  · simp [inCalendar, *, eq_comm]
  · simp [inCalendar, *]

/-- A day has a year exactly between the ends of the calendar. -/
theorem yearOfDay_eq_ok {n y : Int} :
    yearOfDay n = .ok y ↔ (Date.firstNumber ≤ n ∧ n ≤ Date.lastNumber) ∧
      y = (Date.ofDay (n + Date.epochOffset).toNat).yearOrdinal := by
  simp only [yearOfDay, map_eq_ok, dateOfDay_eq_ok]
  constructor
  · rintro ⟨d, ⟨hn, rfl⟩, rfl⟩
    exact ⟨hn, rfl⟩
  · rintro ⟨hn, rfl⟩
    exact ⟨_, ⟨hn, rfl⟩, rfl⟩

/-- A day has a month exactly between the ends of the calendar. -/
theorem monthOfDay_eq_ok {n y : Int} :
    monthOfDay n = .ok y ↔ (Date.firstNumber ≤ n ∧ n ≤ Date.lastNumber) ∧
      y = (Date.ofDay (n + Date.epochOffset).toNat).monthOrdinal := by
  simp only [monthOfDay, map_eq_ok, dateOfDay_eq_ok]
  constructor
  · rintro ⟨d, ⟨hn, rfl⟩, rfl⟩
    exact ⟨hn, rfl⟩
  · rintro ⟨hn, rfl⟩
    exact ⟨_, ⟨hn, rfl⟩, rfl⟩

/-- **The year of a moment** is that of its day. -/
theorem yearOfMicros_eq (n : Int) : yearOfMicros n = yearOfDay (Timestamp.dayOfMicros n) := by
  simp only [yearOfMicros, timestampOfMicros, Timestamp.ofMicros?, yearOfDay, dateOfDay]
  cases Date.ofNumber? (Timestamp.dayOfMicros n) <;> rfl

/-- **The month of a moment** is that of its day. -/
theorem monthOfMicros_eq (n : Int) : monthOfMicros n = monthOfDay (Timestamp.dayOfMicros n) := by
  simp only [monthOfMicros, timestampOfMicros, Timestamp.ofMicros?, monthOfDay, dateOfDay]
  cases Date.ofNumber? (Timestamp.dayOfMicros n) <;> rfl

/-- A moment has a day exactly when its days make a duration; the calendar's ends play no part. -/
theorem dayOfMicros_eq_ok {n d : Int} :
    dayOfMicros n = .ok d ↔
      (-longestDuration ≤ Timestamp.dayOfMicros n ∧ Timestamp.dayOfMicros n ≤ longestDuration) ∧
        d = Timestamp.dayOfMicros n := by
  simp only [dayOfMicros, duration]
  split
  · simp [*, eq_comm]
  · simp [*, Except.map]

/-- Later days are never in earlier years. -/
theorem yearOfDay_mono {m n y z : Int} (h : m ≤ n) (hm : yearOfDay m = .ok y)
    (hn : yearOfDay n = .ok z) : y ≤ z := by
  obtain ⟨_, rfl⟩ := yearOfDay_eq_ok.mp hm
  obtain ⟨_, rfl⟩ := yearOfDay_eq_ok.mp hn
  exact Date.yearOrdinal_mono (by omega)

/-- Later days are never in earlier months. -/
theorem monthOfDay_mono {m n y z : Int} (h : m ≤ n) (hm : monthOfDay m = .ok y)
    (hn : monthOfDay n = .ok z) : y ≤ z := by
  obtain ⟨_, rfl⟩ := monthOfDay_eq_ok.mp hm
  obtain ⟨_, rfl⟩ := monthOfDay_eq_ok.mp hn
  exact Date.monthOrdinal_mono (by omega)

end Epoch

end PartitionPruning
