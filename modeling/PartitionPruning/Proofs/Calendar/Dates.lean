import PartitionPruning.Proofs.Calendar.Ordinals
import PartitionPruning.Proofs.Value.Domain

/-!
# Days, hours, months and years of one moment

A date has a number, which is counted from the lengths of the years and months before it. The date that
is found for a number has this number again, so the units that are read off a date are those of the
calendar, and all of them are units of one day.

* **`number_ofDay`**, **`isValid_ofDay`** — the date of a day has its number and is one of the calendar.
* **`exists_date`** — the days of the calendar and their dates.
* **`units_of_day`** — hours, days, months and years of a moment are those of its day, and twelve months
  of a day are a year of it.
-/

namespace PartitionPruning

namespace Date

variable {n : Nat}

/-! ## The place of a day in its year -/

/-- The walk over the months stops at the month that the day lies in: the months before it and the days
before it in the month add up to the day. -/
theorem locate_spec (first : Nat) {lens : List Nat} (h : n < lens.sum) :
    ∃ i len, lens[i]? = some len ∧ (locate first lens n).1 = first + i ∧
      (lens.take i).sum + (locate first lens n).2 = n + 1 ∧ 1 ≤ (locate first lens n).2 ∧
      (locate first lens n).2 ≤ len := by
  -- On the lengths still to go through, for every first number.
  induction lens generalizing first n with
  | nil => simp at h
  | cons len rest ih =>
    rw [List.sum_cons] at h
    rw [locate]
    by_cases hlt : n < len
    · rw [if_pos hlt]
      exact ⟨0, len, rfl, by simp, by simp, by simp, Nat.succ_le_of_lt hlt⟩
    · rw [if_neg hlt]
      obtain ⟨i, len', hlen, hmonth, hsum, hpos, hle⟩ := ih (first + 1) (n := n - len) (by omega)
      refine ⟨i + 1, len', hlen, by omega, ?_, hpos, hle⟩
      rw [List.take_succ_cons, List.sum_cons]
      omega

/-- The day of the month is what is left after the months before it. -/
theorem day_ofDay (n : Nat) :
    (ofDay n).day = (locate 1 (monthLengths ((splitYear n).1 + 1)) (splitYear n).2).2 := by
  unfold ofDay
  generalize splitYear n = s
  rfl

/-- The day of the year is the last of the days before it, of its month and of the months before. -/
theorem day_of_year (n : Nat) :
    ∃ len, (monthLengths (ofDay n).year)[(ofDay n).month - 1]? = some len ∧
      daysBeforeMonth (ofDay n).year (ofDay n).month + (ofDay n).day = (splitYear n).2 + 1 ∧
      1 ≤ (ofDay n).day ∧ (ofDay n).day ≤ len := by
  have hlt := (splitYear_spec n).2
  rw [← sum_monthLengths, ← List.sum_eq_foldl] at hlt
  obtain ⟨i, len, hlen, hmonth, hsum, hpos, hle⟩ := locate_spec 1 hlt
  rw [← day_ofDay] at hsum hpos hle
  rw [← month_ofDay] at hmonth
  have hi : (ofDay n).month - 1 = i := by omega
  rw [year_ofDay, daysBeforeMonth, hi, ← List.sum_eq_foldl]
  exact ⟨len, hlen, hsum, hpos, hle⟩

/-! ## Dates and their numbers -/

/-- **The number of a date** that was found for a day is the day. -/
theorem number_ofDay (n : Nat) : (ofDay n).number = (n : Int) - epochOffset := by
  obtain ⟨_, _, hday, hpos, _⟩ := day_of_year n
  have hyear := (splitYear_spec n).1
  rw [← year_ofDay] at hyear
  rw [number]
  omega

/-- **The dates of the calendar** are found for its days. -/
theorem isValid_ofDay (h : n ≤ 3652058) : (ofDay n).isValid = true := by
  obtain ⟨len, hlen, _, hpos, hle⟩ := day_of_year n
  have hyear : (ofDay n).year ≤ 9999 := by
    have hspec := (splitYear_spec n).1
    rw [← year_ofDay] at hspec
    by_contra hlate
    -- a later year begins behind the last day
    have hstart := daysBeforeYear_mono (y := 10000) (z := (ofDay n).year) (by omega)
    have hfirst : daysBeforeYear 10000 = 3652059 := rfl
    omega
  have hmonth : 1 ≤ (ofDay n).month ∧ (ofDay n).month ≤ 12 := ⟨month_ofDay_pos n, month_ofDay_le n⟩
  have hfirst : 1 ≤ (ofDay n).year := by rw [year_ofDay]; omega
  simp [isValid, lastYear, hyear, hmonth, hfirst, hpos, List.getD_eq_getElem?_getD, hlen, hle]

/-- Twelve months are a year, before 1970 as well. -/
theorem monthOrdinal_div {x : Date} (h : x.isValid = true) : x.monthOrdinal / 12 = x.yearOrdinal := by
  simp only [isValid, Bool.and_eq_true, decide_eq_true_eq] at h
  rw [monthOrdinal, yearOrdinal]
  omega

end Date

namespace Epoch

variable {d m : Int}

/-- **The date of a day** of the calendar. -/
theorem exists_date (h : TimeForm.day.inCalendar d = true) :
    ∃ x : Date, x.isValid = true ∧ x.number = d ∧ dateOfDay d = .ok x := by
  simp only [TimeForm.inCalendar, Bool.and_eq_true, decide_eq_true_eq] at h
  refine ⟨_, ?_, ?_, dateOfDay_eq_ok.mpr ⟨h, rfl⟩⟩
  · apply Date.isValid_ofDay
    simp only [Date.firstNumber, Date.lastNumber, Date.epochOffset] at h ⊢
    omega
  · rw [Date.number_ofDay]
    simp only [Date.firstNumber, Date.epochOffset] at h ⊢
    omega

-- the calendar goes from the first day of the year 1 to the last one of the year 9999
example : Date.number ⟨1, 1, 1⟩ = Date.firstNumber ∧
    Date.number ⟨9999, 12, 31⟩ = Date.lastNumber := by decide

/-- A moment lies in the calendar if its day does. -/
theorem inCalendar_dayOfMicros :
    TimeForm.day.inCalendar (Timestamp.dayOfMicros m) = TimeForm.moment.inCalendar m := rfl

/-- A moment of the calendar has a day: its duration is within the limits of a duration. -/
theorem dayOfMicros_of_inCalendar (h : TimeForm.moment.inCalendar m = true) :
    dayOfMicros m = .ok (Timestamp.dayOfMicros m) := by
  simp only [TimeForm.inCalendar, Bool.and_eq_true, decide_eq_true_eq] at h
  refine dayOfMicros_eq_ok.mpr ⟨?_, rfl⟩
  simp only [Date.firstNumber, Date.lastNumber, longestDuration] at h ⊢
  omega

/-- The hours of a day are cut from its moments as the day is. -/
theorem hourOfMicros_div (m : Int) :
    Timestamp.hourOfMicros m / 24 = Timestamp.dayOfMicros m := by
  simp only [Timestamp.hourOfMicros, Timestamp.dayOfMicros, TimeOfDay.microsPerDay]
  omega

/-- **Units of one day.** A moment of the calendar lies on a day, which is the quotient of its
microseconds and that of its hours, and its month and year are those of the date with this number. Twelve
months of a day are a year of it. -/
theorem units_of_day (hm : TimeForm.moment.inCalendar m = true)
    (hd : TimeForm.day.inCalendar d = true) :
    dayOfMicros m = .ok (m / 86400000000) ∧
      Timestamp.hourOfMicros m / 24 = m / 86400000000 ∧
      (∃ x : Date, x.isValid = true ∧ x.number = m / 86400000000 ∧
        monthOfMicros m = .ok x.monthOrdinal ∧ (dayOfMicros m >>= monthOfDay) = .ok x.monthOrdinal ∧
        yearOfMicros m = .ok x.yearOrdinal ∧ (dayOfMicros m >>= yearOfDay) = .ok x.yearOrdinal) ∧
      ∃ x : Date, x.isValid = true ∧ x.number = d ∧ monthOfDay d = .ok x.monthOrdinal ∧
        yearOfDay d = .ok (x.monthOrdinal / 12) := by
  -- Month and year of a day both come from its one date, so that date serves all four equations.
  have hunits {n : Int} (hn : TimeForm.day.inCalendar n = true) :
      ∃ x : Date, x.isValid = true ∧ x.number = n ∧ monthOfDay n = .ok x.monthOrdinal ∧
        yearOfDay n = .ok x.yearOrdinal := by
    obtain ⟨x, hvalid, hnumber, hdate⟩ := exists_date hn
    exact ⟨x, hvalid, hnumber, by rw [monthOfDay, hdate]; rfl, by rw [yearOfDay, hdate]; rfl⟩
  have hday := dayOfMicros_of_inCalendar hm
  refine ⟨hday, hourOfMicros_div m, ?_, ?_⟩
  · obtain ⟨x, hvalid, hnumber, hmonth, hyear⟩ := hunits (inCalendar_dayOfMicros.trans hm)
    rw [monthOfMicros_eq, yearOfMicros_eq, hday]
    exact ⟨x, hvalid, hnumber, hmonth, hmonth, hyear, hyear⟩
  · obtain ⟨x, hvalid, hnumber, hmonth, hyear⟩ := hunits hd
    exact ⟨x, hvalid, hnumber, hmonth, by rw [Date.monthOrdinal_div hvalid, hyear]⟩

/-- The last microsecond before 1970 lies on the day before, and the leap day of 2000 lies in February of
that year. -/
theorem units_of_day_leap :
    TimeForm.moment.inCalendar (-1) = true ∧ TimeForm.day.inCalendar 11016 = true ∧
      dayOfMicros (-1) = .ok (-1) ∧ monthOfDay 11016 = .ok 361 ∧ yearOfDay 11016 = .ok 30 := by
  have hm : TimeForm.moment.inCalendar (-1) = true := by decide
  have hd : TimeForm.day.inCalendar 11016 = true := by decide
  obtain ⟨hday, _, _, x, _, _, hmonth, hyear⟩ := units_of_day hm hd
  have hfebruary : monthOfDay 11016 = .ok 361 := by decide
  obtain hx : x.monthOrdinal = 361 := Except.ok.inj (hmonth.symm.trans hfebruary)
  rw [hx] at hyear
  exact ⟨hm, hd, hday, hfebruary, hyear⟩

end Epoch

end PartitionPruning
