import PartitionPruning.Proofs.Calendar.Moments
import PartitionPruning.Transform.Human

/-!
# Texts of coarser units begin those of finer ones

The years and months of partition values are rendered from their ordinals alone, days and hours through
the date that they stand for. All of them are beginnings of the text of one moment, before 1970 and in
years of fewer than four digits as well; an hour has a hyphen where a moment has a `T`.

* **`renderYearOrdinal_eq`**, **`renderMonthOrdinal_eq`** — the ordinals of a date are rendered as its
  fields.
* **`renderLocal_eq`**, **`renderHour_eq`** — a moment and its hour are rendered on the date of its day.
* **`human_of_moment`** — the texts of the year, month, day and hour of a moment.
-/

namespace PartitionPruning

open TimeOfDay (microsPerDay)

/-! ## Fields of a date -/

namespace Date

theorem renderYear_natCast (year : Nat) : renderYear year = String.ofList (padded 4 year) := by
  rw [renderYear, if_neg (Int.not_lt.mpr (Int.natCast_nonneg year)), Int.natAbs_natCast]

/-- **The year of a date** is rendered as its first field. -/
theorem renderYearOrdinal_eq (d : Date) :
    renderYearOrdinal d.yearOrdinal = String.ofList (padded 4 d.year) := by
  have hyear : 1970 + d.yearOrdinal = (d.year : Int) := by
    rw [yearOrdinal]
    omega
  rw [renderYearOrdinal, hyear, renderYear_natCast]

/-- **The month of a date** is rendered as its first two fields: twelve months make a year, also when the
ordinal is negative. -/
theorem renderMonthOrdinal_eq {d : Date} (h : d.isValid = true) :
    renderMonthOrdinal d.monthOrdinal =
      String.ofList (padded 4 d.year ++ '-' :: padded 2 d.month) := by
  have hdiv := monthOrdinal_div h
  simp only [isValid, Bool.and_eq_true, decide_eq_true_eq] at h
  have hyear : 1970 + d.monthOrdinal / 12 = (d.year : Int) := by
    rw [hdiv, yearOrdinal]
    omega
  have hmonth : (1 + d.monthOrdinal % 12).toNat = d.month := by
    rw [monthOrdinal]
    omega
  rw [renderMonthOrdinal, hyear, hmonth, renderYear_natCast, String.ofList_append]

end Date

/-! ## Moments and their hours -/

namespace Epoch

variable {m : Int} {d : Date}

/-- **The text of a moment** is that of its day and of its time. -/
theorem renderLocal_eq (h : dateOfDay (Timestamp.dayOfMicros m) = .ok d) :
    renderLocal m = .ok (String.ofList (d.chars ++ 'T' :: (timeInDay m).chars)) := by
  rw [renderLocal, timestampOfMicros_eq h, Outcome.map_ok, Timestamp.render, d.render_eq,
    (timeInDay m).render_eq]
  simp [String.ofList_append, String.append_assoc]

/-- **The text of an hour** is that of the day and of the hour of a moment: the hour begins on the same
day. -/
theorem renderHour_eq (h : dateOfDay (Timestamp.dayOfMicros m) = .ok d) :
    renderHour (Timestamp.hourOfMicros m * 3600000000) =
      .ok (String.ofList (d.chars ++ '-' :: Date.padded 2 (timeInDay m).hour)) := by
  have hday : Timestamp.dayOfMicros (Timestamp.hourOfMicros m * 3600000000) =
      Timestamp.dayOfMicros m := by
    simp only [Timestamp.hourOfMicros, Timestamp.dayOfMicros, microsPerDay]
    omega
  have hhour : (timeInDay (Timestamp.hourOfMicros m * 3600000000)).hour = (timeInDay m).hour := by
    simp only [timeInDay, TimeOfDay.split, Timestamp.hourOfMicros, microsPerDay]
    omega
  rw [← hday] at h
  rw [renderHour, timestampOfMicros_eq h, Outcome.map_ok, Timestamp.renderHour, hhour, d.render_eq]
  simp [String.ofList_append, String.append_assoc]

end Epoch

/-! ## Beginnings -/

namespace Text

/-- The first characters of a text. -/
def beginning (n : Nat) (s : String) : String := String.ofList (s.toList.take n)

/-- The text with another character in place of one. -/
def replaced (old new : Char) (s : String) : String :=
  String.ofList (s.toList.map fun c => if c = old then new else c)

theorem beginning_append {run : List Char} {n : Nat} (h : run.length = n) (rest : List Char) :
    beginning n (String.ofList (run ++ rest)) = String.ofList run := by
  rw [beginning, String.toList_ofList, List.take_left' h]

theorem replaced_append {old new : Char} {run rest : List Char} (hrun : ∀ c ∈ run, c ≠ old)
    (hrest : ∀ c ∈ rest, c ≠ old) :
    replaced old new (String.ofList (run ++ old :: rest)) = String.ofList (run ++ new :: rest) := by
  have hself {cs : List Char} (h : ∀ c ∈ cs, c ≠ old) :
      (cs.map fun c => if c = old then new else c) = cs := by
    rw [List.map_congr_left fun c hc => if_neg (h c hc), List.map_id']
  rw [replaced, String.toList_ofList, List.map_append, List.map_cons, hself hrun, hself hrest, if_pos rfl]

end Text

theorem Date.ne_of_mem_padded {width n : Nat} {c : Char} (h : c ∈ padded width n) : c ≠ 'T' := by
  rintro rfl
  exact absurd (isDigit_of_mem_padded h) (by decide)

theorem Date.ne_of_mem_chars {d : Date} {c : Char} (h : c ∈ d.chars) : c ≠ 'T' := by
  simp only [chars, List.mem_append, List.mem_cons] at h
  rcases h with (h | rfl | h) | rfl | h
  · exact ne_of_mem_padded h
  · decide
  · exact ne_of_mem_padded h
  · decide
  · exact ne_of_mem_padded h

theorem TimeOfDay.exists_chars_append (t : TimeOfDay) :
    ∃ rest, t.chars = Date.padded 2 t.hour ++ rest :=
  ⟨_, by rw [chars, List.append_assoc, List.append_assoc]⟩

namespace TimeUnit

open Date (padded length_padded)

/-- The year and the month of a date are numbers of few digits. -/
theorem human_ordinals {d : Date} (h : d.isValid = true) :
    year.human d.yearOrdinal = .ok (Date.renderYearOrdinal d.yearOrdinal) ∧
      month.human d.monthOrdinal = .ok (Date.renderMonthOrdinal d.monthOrdinal) := by
  obtain ⟨hyear, hmonth, -⟩ := Date.fields_lt_of_isValid h
  have hshort {n : Int} (hn : n.natAbs < 10 ^ 20) : ∀ m ∈ [n.natAbs], Numeral.Readable m :=
    List.forall_mem_singleton.mpr (Numeral.readable_of_lt hn)
  constructor
  · refine Numeral.write_of_readable (hshort ?_) _
    rw [Date.yearOrdinal]
    omega
  · refine Numeral.write_of_readable (hshort ?_) _
    rw [Date.monthOrdinal]
    omega

/-- **The texts of one moment.** The day, the month and the year of a moment of the calendar are rendered
as the first ten, seven and four characters of its text, and its hour as the first thirteen, with a hyphen
for the `T`. -/
theorem human_of_moment {m : Int} (h : TimeForm.moment.inCalendar m = true) :
    ∃ text, Epoch.renderLocal m = .ok text ∧
      (Epoch.dayOfMicros m >>= day.human) = .ok (Text.beginning 10 text) ∧
      (Epoch.dayOfMicros m >>= Epoch.monthOfDay >>= month.human) = .ok (Text.beginning 7 text) ∧
      (Epoch.dayOfMicros m >>= Epoch.yearOfDay >>= year.human) = .ok (Text.beginning 4 text) ∧
      hour.human (Timestamp.hourOfMicros m) =
        .ok (Text.replaced 'T' '-' (Text.beginning 13 text)) := by
  obtain ⟨d, hvalid, -, hdate⟩ := Epoch.exists_date (Epoch.inCalendar_dayOfMicros.trans h)
  obtain ⟨hyear, hmonth, -⟩ := Date.fields_lt_of_isValid hvalid
  obtain ⟨hyearText, hmonthText⟩ := human_ordinals hvalid
  have hhour := (TimeOfDay.fields_lt_of_isValid (Epoch.isValid_timeInDay m)).1
  have hday := Epoch.dayOfMicros_of_inCalendar h
  -- the lengths of what the units show, from the left
  have hfour : (padded 4 d.year).length = 4 := length_padded (by decide) hyear
  have hseven : (padded 4 d.year ++ '-' :: padded 2 d.month).length = 7 := by
    rw [List.length_append, List.length_cons, hfour, length_padded (by decide) hmonth]
  have hten : d.chars.length = 10 := Date.length_chars hvalid
  have hthirteen : (d.chars ++ 'T' :: padded 2 (Epoch.timeInDay m).hour).length = 13 := by
    rw [List.length_append, List.length_cons, hten, length_padded (by decide) hhour]
  refine ⟨_, Epoch.renderLocal_eq hdate, ?_, ?_, ?_, ?_⟩
  · rw [hday, Outcome.ok_bind, human, Epoch.renderDay, hdate, Outcome.map_ok, d.render_eq,
      Text.beginning_append hten]
  · rw [hday, Outcome.ok_bind, Epoch.monthOfDay, hdate, Outcome.map_ok, Outcome.ok_bind, hmonthText,
      Date.renderMonthOrdinal_eq hvalid, Date.chars, List.append_assoc,
      Text.beginning_append hseven]
  · rw [hday, Outcome.ok_bind, Epoch.yearOfDay, hdate, Outcome.map_ok, Outcome.ok_bind, hyearText,
      Date.renderYearOrdinal_eq, Date.chars, List.append_assoc, List.append_assoc,
      Text.beginning_append hfour]
  · obtain ⟨rest, hrest⟩ := (Epoch.timeInDay m).exists_chars_append
    have hsplit : d.chars ++ 'T' :: (Epoch.timeInDay m).chars =
        (d.chars ++ 'T' :: padded 2 (Epoch.timeInDay m).hour) ++ rest := by
      rw [hrest, List.append_assoc, List.cons_append]
    rw [human, Epoch.renderHour_eq hdate, hsplit, Text.beginning_append hthirteen,
      Text.replaced_append (fun _ hc => Date.ne_of_mem_chars hc) fun _ hc => Date.ne_of_mem_padded hc]

/-- The last microsecond of a year of three digits. -/
theorem human_of_moment_year_999 :
    TimeForm.moment.inCalendar (-30610224000000001) = true ∧
      Epoch.renderLocal (-30610224000000001) = .ok "0999-12-31T23:59:59.999999" ∧
      (Epoch.dayOfMicros (-30610224000000001) >>= day.human) = .ok "0999-12-31" ∧
      (Epoch.dayOfMicros (-30610224000000001) >>= Epoch.monthOfDay >>= month.human) =
        .ok "0999-12" ∧
      (Epoch.dayOfMicros (-30610224000000001) >>= Epoch.yearOfDay >>= year.human) = .ok "0999" ∧
      hour.human (Timestamp.hourOfMicros (-30610224000000001)) = .ok "0999-12-31-23" := by
  have hm : TimeForm.moment.inCalendar (-30610224000000001) = true := by decide
  have hshown : Epoch.renderLocal (-30610224000000001) = .ok "0999-12-31T23:59:59.999999" := by
    decide
  obtain ⟨text, htext, hday, hmonth, hyear, hhour⟩ := human_of_moment hm
  obtain rfl := Except.ok.inj (htext.symm.trans hshown)
  exact ⟨hm, hshown, hday, hmonth, hyear, hhour⟩

end TimeUnit

end PartitionPruning
