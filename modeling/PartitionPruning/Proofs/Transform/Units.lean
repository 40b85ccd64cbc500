import PartitionPruning.Proofs.Calendar.Dates
import PartitionPruning.Proofs.Transform.Boundaries
import PartitionPruning.Proofs.Value.Domain

/-!
# Units of time

Days and moments are cut to years, months, days and hours. Each unit keeps the order of what it is
counted from, and the units inside the calendar are none of those outside (`TimeUnit.coarsens`). So
the bounds that comparisons of dates and moments are projected to are sound and leave no gap.

* **`TimeUnit.coarsens`** — cutting to a unit keeps the order and the ends of the calendar.
* **`TimeUnit.ofForm_fits`** — units of the calendar and next to it have 32 bits.
* **`TimeUnit.succeeds_ofForm`** — what lies in a unit at all.
-/

namespace PartitionPruning

open Outcome (bind_eq_ok map_eq_ok Succeeds)

/-! ## Counting in units -/

namespace TimeForm

theorem inCalendar_day {n : Int} :
    TimeForm.day.inCalendar n = true ↔ -719162 ≤ n ∧ n ≤ 2932896 := by
  simp only [inCalendar, Bool.and_eq_true, decide_eq_true_eq]
  rfl

theorem inCalendar_moment {n : Int} :
    TimeForm.moment.inCalendar n = true ↔
      -719162 ≤ n / 86400000000 ∧ n / 86400000000 ≤ 2932896 := by
  simp only [inCalendar, Bool.and_eq_true, decide_eq_true_eq]
  rfl

end TimeForm

namespace TimeUnit

variable {u : TimeUnit} {form : TimeForm} {m n a b : Int}

/-- A unit holds whole days or is an hour of one. -/
theorem ofForm_mono (h : m ≤ n) (hm : u.ofForm form m = .ok a) (hn : u.ofForm form n = .ok b) :
    a ≤ b := by
  -- Years, months and days of moments are those of their days.
  have hday : Timestamp.dayOfMicros m ≤ Timestamp.dayOfMicros n :=
    Int.ediv_le_ediv (by decide) h
  cases form with
  | day =>
    cases u with
    | year => exact Epoch.yearOfDay_mono h hm hn
    | month => exact Epoch.monthOfDay_mono h hm hn
    | day | hour =>
      obtain rfl := Except.ok.inj hm
      obtain rfl := Except.ok.inj hn
      exact h
  | moment =>
    cases u with
    | year =>
      simp only [ofForm, ofMicros, Epoch.yearOfMicros_eq] at hm hn
      exact Epoch.yearOfDay_mono hday hm hn
    | month =>
      simp only [ofForm, ofMicros, Epoch.monthOfMicros_eq] at hm hn
      exact Epoch.monthOfDay_mono hday hm hn
    | day =>
      obtain ⟨_, rfl⟩ := Epoch.dayOfMicros_eq_ok.mp hm
      obtain ⟨_, rfl⟩ := Epoch.dayOfMicros_eq_ok.mp hn
      exact hday
    | hour =>
      obtain rfl := Except.ok.inj hm
      obtain rfl := Except.ok.inj hn
      exact Int.ediv_le_ediv (by decide) h

/-- No unit reaches over an end of the calendar. -/
theorem ofForm_apart (hm : u.ofForm form m = .ok a) (hn : u.ofForm form n = .ok b)
    (h : form.inCalendar m ≠ form.inCalendar n) : a ≠ b := by
  rintro rfl
  apply h
  cases form with
  | day =>
    cases u with
    | year | month =>
      -- both have a date
      simp only [ofForm, ofDay, Epoch.yearOfDay_eq_ok, Epoch.monthOfDay_eq_ok] at hm hn
      simp [TimeForm.inCalendar, hm.1, hn.1]
    | day | hour => rw [Except.ok.inj (hm.trans hn.symm)]
  | moment =>
    have hsame (hdays : Timestamp.dayOfMicros m = Timestamp.dayOfMicros n) :
        TimeForm.moment.inCalendar m = TimeForm.moment.inCalendar n := by
      simp only [TimeForm.inCalendar, hdays]
    cases u with
    | year | month =>
      simp only [ofForm, ofMicros, Epoch.yearOfMicros_eq, Epoch.yearOfDay_eq_ok,
        Epoch.monthOfMicros_eq, Epoch.monthOfDay_eq_ok] at hm hn
      simp [TimeForm.inCalendar, hm.1, hn.1]
    | day =>
      obtain ⟨_, hm⟩ := Epoch.dayOfMicros_eq_ok.mp hm
      obtain ⟨_, hn⟩ := Epoch.dayOfMicros_eq_ok.mp hn
      exact hsame (hm.symm.trans hn)
    | hour =>
      have hhours := (Except.ok.inj hm).trans (Except.ok.inj hn).symm
      apply hsame
      simp only [Timestamp.hourOfMicros, Timestamp.dayOfMicros, TimeOfDay.microsPerDay] at *
      omega

/-- **Units of time** are coarser than what they are counted from. -/
theorem coarsens (u : TimeUnit) (form : TimeForm) : Coarsens (u.ofForm form) form.inCalendar :=
  ⟨ofForm_mono, ofForm_apart⟩

/-- Whether a day or a moment lies in a unit. Years and months are those of the calendar, and the days
of moments are not further from 1970 than a duration may be long. -/
def hasUnit : TimeUnit → TimeForm → Int → Bool
  | .year, form, n | .month, form, n => form.inCalendar n
  | .day, .moment, n =>
    -Epoch.longestDuration ≤ Timestamp.dayOfMicros n &&
      Timestamp.dayOfMicros n ≤ Epoch.longestDuration
  | .day, .day, _ | .hour, _, _ => true

/-- **Units exist** where they are said to. -/
theorem succeeds_ofForm : Succeeds (u.ofForm form n) ↔ u.hasUnit form n = true := by
  -- years and months are those of dates; a moment has those of its day
  have hdate {k : Int} : TimeForm.day.inCalendar k = true ↔
      Date.firstNumber ≤ k ∧ k ≤ Date.lastNumber := by
    simp [TimeForm.inCalendar]
  have hyear {k : Int} : Succeeds (Epoch.yearOfDay k) ↔ TimeForm.day.inCalendar k = true := by
    simp only [Succeeds, Epoch.yearOfDay_eq_ok, hdate]
    constructor
    · rintro ⟨_, h, _⟩
      exact h
    · exact fun h => ⟨_, h, rfl⟩
  have hmonth {k : Int} : Succeeds (Epoch.monthOfDay k) ↔ TimeForm.day.inCalendar k = true := by
    simp only [Succeeds, Epoch.monthOfDay_eq_ok, hdate]
    constructor
    · rintro ⟨_, h, _⟩
      exact h
    · exact fun h => ⟨_, h, rfl⟩
  cases form with
  | day =>
    cases u with
    | year => exact hyear
    | month => exact hmonth
    | day | hour => exact ⟨fun _ => rfl, fun _ => ⟨n, rfl⟩⟩
  | moment =>
    cases u with
    | year =>
      simp only [ofForm, ofMicros, Epoch.yearOfMicros_eq]
      exact hyear
    | month =>
      simp only [ofForm, ofMicros, Epoch.monthOfMicros_eq]
      exact hmonth
    | day =>
      simp only [Succeeds, ofForm, ofMicros, Epoch.dayOfMicros_eq_ok, hasUnit, Bool.and_eq_true,
        decide_eq_true_eq]
      constructor
      · rintro ⟨_, h, _⟩
        exact h
      · exact fun h => ⟨_, h, rfl⟩
    | hour => exact ⟨fun _ => rfl, fun _ => ⟨_, rfl⟩⟩

/-- The days and moments of the calendar lie in units. -/
theorem hasUnit_of_inCalendar (u : TimeUnit) (hn : form.inCalendar n = true) :
    u.hasUnit form n = true := by
  cases u with
  | year | month => exact hn
  | hour => rfl
  | day =>
    cases form with
    | day => rfl
    | moment =>
      obtain ⟨hrange, _⟩ := Epoch.dayOfMicros_eq_ok.mp (Epoch.dayOfMicros_of_inCalendar hn)
      simpa [hasUnit] using hrange

/-- The years of the first and the last day. -/
theorem yearOfDay_ends :
    Epoch.yearOfDay Date.firstNumber = .ok (-1969) ∧ Epoch.yearOfDay Date.lastNumber = .ok 8029 := by
  decide

/-- The months of the first and the last day. -/
theorem monthOfDay_ends :
    Epoch.monthOfDay Date.firstNumber = .ok (-23628) ∧
      Epoch.monthOfDay Date.lastNumber = .ok 96359 := by
  decide

/-- **Units fit.** The units of the calendar and of what is next to it have 32 bits. -/
theorem ofForm_fits (hn : form.inCalendar n = true) (hstep : -1 ≤ m - n ∧ m - n ≤ 1)
    (h : u.ofForm form m = .ok a) : -2147483648 ≤ a ∧ a ≤ 2147483647 := by
  -- years and months lie between those of the ends of the calendar
  have hyear {day : Int} (h : Epoch.yearOfDay day = .ok a) : -1969 ≤ a ∧ a ≤ 8029 := by
    obtain ⟨hday, _⟩ := Epoch.yearOfDay_eq_ok.mp h
    exact ⟨Epoch.yearOfDay_mono hday.1 yearOfDay_ends.1 h,
      Epoch.yearOfDay_mono hday.2 h yearOfDay_ends.2⟩
  have hmonth {day : Int} (h : Epoch.monthOfDay day = .ok a) : -23628 ≤ a ∧ a ≤ 96359 := by
    obtain ⟨hday, _⟩ := Epoch.monthOfDay_eq_ok.mp h
    exact ⟨Epoch.monthOfDay_mono hday.1 monthOfDay_ends.1 h,
      Epoch.monthOfDay_mono hday.2 h monthOfDay_ends.2⟩
  cases form with
  | day =>
    cases u with
    | year =>
      have := hyear h
      omega
    | month =>
      have := hmonth h
      omega
    | day | hour =>
      obtain rfl := Except.ok.inj h
      have := TimeForm.inCalendar_day.mp hn
      omega
  | moment =>
    have := TimeForm.inCalendar_moment.mp hn
    cases u with
    | year =>
      simp only [ofForm, ofMicros, Epoch.yearOfMicros_eq] at h
      have := hyear h
      omega
    | month =>
      simp only [ofForm, ofMicros, Epoch.monthOfMicros_eq] at h
      have := hmonth h
      omega
    | day =>
      obtain ⟨_, rfl⟩ := Epoch.dayOfMicros_eq_ok.mp h
      simp only [Timestamp.dayOfMicros, TimeOfDay.microsPerDay]
      omega
    | hour =>
      obtain rfl := Except.ok.inj h
      simp only [Timestamp.hourOfMicros]
      omega

end TimeUnit

end PartitionPruning
