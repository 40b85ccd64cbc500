import PartitionPruning.Literal.Basic
import PartitionPruning.Proofs.Calendar.Dates
import PartitionPruning.Proofs.Calendar.Texts

/-!
# Moments are read back

A timestamp is written as a date and a time, and an offset may stand behind them. Before it is read, the
text is asked for its shape, which tells whether there is an offset. The shape of a text that was written
is the one that is asked for, and its parts are read back.

* **`Stamp`**, **`Zone`** — a day and a time as they are written, and an offset.
* **`afterSeconds?_followedBy`** — what the shape leaves of a written text.
* **`parts?_followedBy`** — the day takes ten bytes, the time starts behind one more.
* **`parseLocal_text`**, **`parseZoned_text`** — timestamps without and with an offset.
* **`readsBack_calendar`** — days, times of day and moments are read back from their texts.
-/

namespace PartitionPruning

namespace Iso

open Date (padded length_padded isDigit_of_mem_padded)

variable {hour minute : Nat}

/-! ## The shape of a timestamp -/

/-- Digits have the shape of as many digits. -/
theorem dropShape?_digits {cs : List Char} (h : ∀ c ∈ cs, c.isDigit) (shape rest : List Char) :
    dropShape? (List.replicate cs.length '0' ++ shape) (cs ++ rest) = dropShape? shape rest := by
  induction cs with
  | nil => rfl
  | cons c cs ih =>
    rw [List.length_cons, List.replicate_succ, List.cons_append, List.cons_append, dropShape?]
    simp only [if_true, Numeral.isDecimalDigit_of_isDigit (h c List.mem_cons_self)]
    exact ih fun d hd => h d (List.mem_cons_of_mem c hd)

/-- A field of digits has the shape of one. -/
theorem dropShape?_padded {width n : Nat} (hwidth : 0 < width) (h : n < 10 ^ width)
    (shape rest : List Char) :
    dropShape? (List.replicate width '0' ++ shape) (padded width n ++ rest) =
      dropShape? shape rest := by
  have hdigits : ∀ c ∈ padded width n, c.isDigit := fun c hc => isDigit_of_mem_padded hc
  have hdrop := dropShape?_digits hdigits shape rest
  rwa [length_padded hwidth h] at hdrop

/-- A character that stands for itself. -/
theorem dropShape?_self {c : Char} (hc : c ≠ '0') (shape rest : List Char) :
    dropShape? (c :: shape) (c :: rest) = dropShape? shape rest := by
  simp [dropShape?, hc]

/-- The fraction of a written time has the shape of one. -/
theorem isFraction_of_writesMicro {micro : Nat} {fraction : List Char}
    (h : TimeOfDay.WritesMicro micro fraction) (hmicro : micro < 10 ^ (6 : Nat)) :
    isFraction fraction = true := by
  cases h with
  | nothing => rfl
  | digits hmark =>
    have hdigits : (padded 6 micro).all Text.isDecimalDigit = true := by
      rw [List.all_eq_true]
      exact fun c hc => Numeral.isDecimalDigit_of_isDigit (isDigit_of_mem_padded hc)
    rw [isFraction, hdigits, length_padded (by decide) hmicro]
    rcases hmark with rfl | rfl <;> rfl

/-- A written offset has the shape of one. -/
theorem isOffset_offsetChars (negative : Bool) (hhour : hour < 10 ^ (2 : Nat))
    (hminute : minute < 10 ^ (2 : Nat)) :
    isOffset (offsetChars negative hour minute) = true := by
  have hminutes := dropShape?_padded (by decide) hminute [] []
  rw [List.append_nil, List.append_nil] at hminutes
  have hshape : dropShape? "00:00".toList (padded 2 hour ++ ':' :: padded 2 minute) = some [] := by
    change dropShape? (List.replicate 2 '0' ++ ':' :: List.replicate 2 '0') _ = _
    rw [dropShape?_padded (by decide) hhour, dropShape?_self (by decide), hminutes]
    rfl
  rw [offsetChars, isOffset, hshape]
  cases negative <;> rfl

/-! ## Written timestamps -/

/-- A day and a time of day as they are written, the fraction of a second in one of its forms. -/
structure Stamp where
  date : Date
  time : TimeOfDay
  fraction : List Char
  isValid_date : date.isValid = true
  isValid_time : time.isValid = true
  writesMicro : TimeOfDay.WritesMicro time.micro fraction

/-- An offset as it is written. -/
structure Zone where
  negative : Bool
  hour : Nat
  minute : Nat
  hour_lt : hour < 24
  minute_lt : minute < 60

namespace Zone

def chars (z : Zone) : List Char := offsetChars z.negative z.hour z.minute

def text (z : Zone) : String := String.ofList z.chars

/-- The signed length of the offset. -/
def micros (z : Zone) : Int := offsetMicros z.negative z.hour z.minute

/-- Universal time. -/
def universal : Zone := ⟨false, 0, 0, by decide, by decide⟩

/-- The universal zone is written as the offset `+00:00`. -/
theorem text_universal : universal.text = Timestamp.renderOffset 0 := by decide

/-- The universal zone is no distance from itself. -/
theorem micros_universal : universal.micros = 0 := by decide

end Zone

namespace Stamp

variable (s : Stamp)

/-- The text of a day and a time with some characters behind them. -/
def followedBy (zone : List Char) : String :=
  String.ofList (s.date.chars ++ 'T' :: (s.time.charsWith s.fraction ++ zone))

def text : String := s.followedBy []

/-- The microseconds from the start of 1970, both taken without an offset. -/
def micros : Int := s.date.number * TimeOfDay.microsPerDay + s.time.micros

/-- A stamp's text with more behind it is one list of characters. -/
theorem text_append (zone : List Char) : s.text ++ String.ofList zone = s.followedBy zone := by
  rw [text, followedBy, ← String.ofList_append, followedBy]
  simp

/-- What follows the seconds is the fraction and the zone. -/
theorem afterSeconds?_followedBy (zone : List Char) :
    afterSeconds? (s.followedBy zone) = some (s.fraction ++ zone) := by
  obtain ⟨hyear, hmonth, hday⟩ := Date.fields_lt_of_isValid s.isValid_date
  obtain ⟨hhour, hminute, hsecond, _⟩ := s.time.fields_lt_of_isValid s.isValid_time
  have hchars : (s.followedBy zone).toList =
      padded 4 s.date.year ++ '-' :: (padded 2 s.date.month ++ '-' :: (padded 2 s.date.day ++ 'T' ::
        (padded 2 s.time.hour ++ ':' :: (padded 2 s.time.minute ++ ':' :: (padded 2 s.time.second ++
          (s.fraction ++ zone)))))) := by
    rw [followedBy, String.toList_ofList]
    simp [Date.chars, TimeOfDay.charsWith]
  rw [afterSeconds?, hchars]
  -- The shape is spelled out field by field, as the text is.
  change dropShape? (List.replicate 4 '0' ++ '-' :: (List.replicate 2 '0' ++ '-' ::
    (List.replicate 2 '0' ++ 'T' :: (List.replicate 2 '0' ++ ':' :: (List.replicate 2 '0' ++ ':' ::
      (List.replicate 2 '0' ++ [])))))) _ = _
  rw [dropShape?_padded (by decide) hyear, dropShape?_self (by decide),
    dropShape?_padded (by decide) hmonth, dropShape?_self (by decide),
    dropShape?_padded (by decide) hday, dropShape?_self (by decide),
    dropShape?_padded (by decide) hhour, dropShape?_self (by decide),
    dropShape?_padded (by decide) hminute, dropShape?_self (by decide),
    dropShape?_padded (by decide) hsecond]
  rfl

/-- The fraction a stamp is written with is one the shape takes. -/
theorem isFraction_fraction : isFraction s.fraction = true :=
  isFraction_of_writesMicro s.writesMicro (s.time.fields_lt_of_isValid s.isValid_time).2.2.2

/-- A stamp's text has the shape of a local moment. -/
theorem isLocalShape_text : isLocalShape s.text = true := by
  rw [isLocalShape, text, s.afterSeconds?_followedBy, List.append_nil]
  exact s.isFraction_fraction

/-- A stamp's text with a zone behind it has the shape of a moment with a zone. -/
theorem isZonedShape_text (z : Zone) : isZonedShape (s.text ++ z.text) = true := by
  have hhour : z.hour < 10 ^ (2 : Nat) := Nat.lt_trans z.hour_lt (by decide)
  have hminute : z.minute < 10 ^ (2 : Nat) := Nat.lt_trans z.minute_lt (by decide)
  have hlength : (s.fraction ++ z.chars).length - 6 = s.fraction.length := by
    rw [List.length_append, Zone.chars, length_offsetChars z.negative hhour hminute,
      Nat.add_sub_cancel]
  rw [isZonedShape, Zone.text, s.text_append, s.afterSeconds?_followedBy, Option.any_some, hlength,
    List.take_left, List.drop_left, s.isFraction_fraction, Zone.chars,
    isOffset_offsetChars z.negative hhour hminute]
  rfl

/-- The day takes ten bytes, and the time starts behind one more. -/
theorem parts?_followedBy {zone : List Char} (hzone : ∀ c ∈ zone, c.toNat < 128)
    {offset : Option Int}
    (htime : timeParts? (s.time.charsWith s.fraction ++ zone) = some (s.time, offset)) :
    parts? (s.followedBy zone) = some ⟨s.date, s.time, offset⟩ := by
  have hascii : ∀ c ∈ s.date.chars ++ 'T' :: (s.time.charsWith s.fraction ++ zone), c.toNat < 128 := by
    rw [List.forall_mem_append, List.forall_mem_cons, List.forall_mem_append]
    exact ⟨s.date.chars_ascii, by decide, s.time.charsWith_ascii s.writesMicro, hzone⟩
  obtain ⟨htake, hdrop⟩ := Date.take_drop_chars s.isValid_date 'T'
    (s.time.charsWith s.fraction ++ zone)
  have hdate := dateParts?_chars s.isValid_date []
  rw [List.append_nil] at hdate
  rw [parts?, followedBy, octets_ofList hascii, htake, hdrop, hdate, htime]
  rfl

/-- A stamp's text is read back to its date and its time, with no offset. -/
theorem parts?_text : parts? s.text = some ⟨s.date, s.time, none⟩ := by
  apply s.parts?_followedBy (by simp)
  rw [List.append_nil]
  exact timeParts?_charsWith s.isValid_time s.writesMicro

/-- With a zone behind it, a stamp's text is read back to its date, its time and that zone. -/
theorem parts?_text_append (z : Zone) :
    parts? (s.text ++ z.text) = some ⟨s.date, s.time, some z.micros⟩ := by
  rw [Zone.text, s.text_append]
  apply s.parts?_followedBy (offsetChars_ascii z.negative z.hour z.minute)
  exact timeParts?_offset (timeParts?_charsWith s.isValid_time s.writesMicro) z.negative z.hour_lt
    z.minute_lt

end Stamp

end Iso

/-! ## Moments -/

namespace Epoch

/-- **Times of day** are read back. -/
theorem parseTime_render {t : TimeOfDay} (h : t.isValid = true) :
    parseTime t.render = .ok (t.micros : Int) := by
  rw [parseTime, Iso.time?_render h]
  rfl

/-- **Timestamps without offset** are read back. -/
theorem parseLocal_text (s : Iso.Stamp) : parseLocal s.text = .ok s.micros := by
  rw [parseLocal, if_pos s.isLocalShape_text, s.parts?_text]
  simp [readable, Except.map, Timestamp.micros, Iso.Stamp.micros]

/-- **Timestamps with an offset** are read as moments of universal time. -/
theorem parseZoned_text (s : Iso.Stamp) (z : Iso.Zone) :
    parseZoned (s.text ++ z.text) = .ok (s.micros - z.micros) := by
  rw [parseZoned, if_pos (s.isZonedShape_text z), s.parts?_text_append z]
  rfl

variable {d t m : Int}

/-- The time of a moment on its day. -/
def timeInDay (m : Int) : TimeOfDay := .split (m % TimeOfDay.microsPerDay).toNat

/-- The time of day of every moment is one that a clock shows. -/
theorem isValid_timeInDay (m : Int) : (timeInDay m).isValid = true := by
  apply TimeOfDay.isValid_split
  simp only [TimeOfDay.microsPerDay]
  omega

/-- The fields of a moment are the date of its day and its time of day. -/
theorem timestampOfMicros_eq {x : Date} (h : dateOfDay (Timestamp.dayOfMicros m) = .ok x) :
    timestampOfMicros m = .ok ⟨x, timeInDay m, none⟩ := by
  rw [dateOfDay] at h
  rw [timestampOfMicros, Timestamp.ofMicros?]
  cases hx : Date.ofNumber? (Timestamp.dayOfMicros m) with
  | none => rw [hx] at h; cases h
  | some x' =>
    rw [hx] at h
    obtain rfl := Except.ok.inj h
    rfl

/-- **The timestamp of a moment** of the calendar: its day, and what is left of it as a time. -/
theorem exists_timestamp (h : TimeForm.moment.inCalendar m = true) :
    ∃ (x : Date) (y : TimeOfDay), x.isValid = true ∧ y.isValid = true ∧
      x.number * TimeOfDay.microsPerDay + y.micros = m ∧ timestampOfMicros m = .ok ⟨x, y, none⟩ := by
  obtain ⟨x, hvalid, hnumber, hdate⟩ := exists_date (inCalendar_dayOfMicros.trans h)
  have hrest : 0 ≤ m % TimeOfDay.microsPerDay := by
    simp only [TimeOfDay.microsPerDay]
    omega
  refine ⟨x, timeInDay m, hvalid, isValid_timeInDay m, ?_, timestampOfMicros_eq hdate⟩
  rw [timeInDay, TimeOfDay.micros_split, hnumber, Int.toNat_of_nonneg hrest]
  exact Timestamp.micros_of_day m

/-- How a timestamp is rendered. -/
def stampOf {x : Date} {y : TimeOfDay} (hx : x.isValid = true) (hy : y.isValid = true) : Iso.Stamp :=
  ⟨x, y, y.fractionChars, hx, hy, y.writesMicro_fractionChars⟩

/-- The text of a number is read as the number again, and the literal of the object that the number
stands for has it as its value. -/
def ReadsBack (text : Except Fault String) (parse : String → Except Fault Int)
    (object : Except Fault Value) (make : Whole → Literal) (n : Int) : Prop :=
  (text >>= parse) = .ok n ∧ (object >>= Literal.ofValue) = .ok (make (.number n)) ∧
    (make (.number n)).value = .int n

/-- Every date of the calendar is written and read back. -/
theorem readsBack_day (h : TimeForm.day.inCalendar d = true) :
    ReadsBack (renderDay d) parseDay ((dateOfDay d).map .date) .date d := by
  obtain ⟨x, hvalid, rfl, hdate⟩ := exists_date h
  have hread : parseDay x.render = .ok x.number := by
    rw [parseDay, Iso.date?_render hvalid]
    rfl
  refine ⟨?_, ?_, rfl⟩
  · rw [renderDay, hdate, Outcome.map_ok, Outcome.ok_bind, hread]
  · rw [hdate, Outcome.map_ok, Outcome.ok_bind, Literal.ofValue]

/-- Every time of a day is written and read back. -/
theorem readsBack_time (hlow : 0 ≤ t) (hhigh : t < 86400000000) :
    ReadsBack (renderTime t) parseTime ((timeOfMicros t).map .time) .time t := by
  obtain ⟨n, rfl⟩ := Int.eq_ofNat_of_zero_le hlow
  have hlt : n < TimeOfDay.microsPerDay := by simp only [TimeOfDay.microsPerDay]; omega
  have htime : timeOfMicros n = .ok (.split n) := by
    rw [timeOfMicros, TimeOfDay.ofMicros?, if_pos (by omega)]
    rfl
  have hread : parseTime (TimeOfDay.split n).render = .ok (n : Int) := by
    rw [parseTime_render (TimeOfDay.isValid_split hlt), TimeOfDay.micros_split]
  refine ⟨?_, ?_, rfl⟩
  · rw [renderTime, htime, Outcome.map_ok, Outcome.ok_bind, hread]
  · rw [htime, Outcome.map_ok, Outcome.ok_bind, Literal.ofValue, TimeOfDay.micros_split]

/-- A timestamp is rendered as its stamp and then the offset that it has. -/
theorem render_timestamp {x : Date} {y : TimeOfDay} (hx : x.isValid = true) (hy : y.isValid = true)
    (offset : Option Int) : (⟨x, y, offset⟩ : Timestamp).render "T" =
      (stampOf hx hy).text ++ (offset.map Timestamp.renderOffset).getD "" := by
  rw [Timestamp.render, x.render_eq, y.render_eq, y.chars_eq, stampOf, Iso.Stamp.text,
    Iso.Stamp.followedBy]
  simp [String.ofList_append, String.append_assoc]

/-- Every moment of the calendar is written without a zone and read back. -/
theorem readsBack_local (h : TimeForm.moment.inCalendar m = true) :
    ReadsBack (renderLocal m) parseLocal ((timestampOfMicros m).map .timestamp) .timestamp m := by
  obtain ⟨x, y, hx, hy, hmicros, htimestamp⟩ := exists_timestamp h
  have htext : (⟨x, y, none⟩ : Timestamp).render "T" = (stampOf hx hy).text :=
    (render_timestamp hx hy none).trans String.append_empty
  refine ⟨?_, ?_, rfl⟩
  · rw [renderLocal, htimestamp, Outcome.map_ok, Outcome.ok_bind, htext, parseLocal_text]
    exact congrArg Except.ok hmicros
  · rw [htimestamp, Outcome.map_ok, Outcome.ok_bind, Literal.ofValue, Timestamp.micros,
      Option.getD_none, Int.sub_zero, hmicros]

/-- Every moment of the calendar is written in the universal zone and read back. -/
theorem readsBack_zoned (h : TimeForm.moment.inCalendar m = true) :
    ReadsBack (renderZoned m) parseZoned
      ((timestampOfMicros m).map fun x => .timestamp ⟨x.date, x.time, some 0⟩) .timestamp m := by
  obtain ⟨x, y, hx, hy, hmicros, htimestamp⟩ := exists_timestamp h
  have htext : (⟨x, y, some 0⟩ : Timestamp).render "T" =
      (stampOf hx hy).text ++ Iso.Zone.universal.text := by
    rw [Iso.Zone.text_universal, render_timestamp hx hy, Option.map_some, Option.getD_some]
  refine ⟨?_, ?_, rfl⟩
  · rw [renderZoned, htimestamp, Outcome.map_ok, Outcome.ok_bind, htext, parseZoned_text,
      Iso.Zone.micros_universal, Int.sub_zero]
    exact congrArg Except.ok hmicros
  · rw [htimestamp, Outcome.map_ok, Outcome.ok_bind, Literal.ofValue, Timestamp.micros,
      Option.getD_some, Int.sub_zero, hmicros]

/-- **What was written is read back.** The texts of the days and moments of the calendar and of all times
of day are read as the numbers that were written, and the literals of their dates, times and timestamps
have these numbers as their values. -/
theorem readsBack_calendar (hd : TimeForm.day.inCalendar d = true) (hlow : 0 ≤ t)
    (hhigh : t < 86400000000) (hm : TimeForm.moment.inCalendar m = true) :
    ReadsBack (renderDay d) parseDay ((dateOfDay d).map .date) .date d ∧
      ReadsBack (renderTime t) parseTime ((timeOfMicros t).map .time) .time t ∧
      ReadsBack (renderLocal m) parseLocal ((timestampOfMicros m).map .timestamp) .timestamp m ∧
      ReadsBack (renderZoned m) parseZoned
        ((timestampOfMicros m).map fun x => .timestamp ⟨x.date, x.time, some 0⟩) .timestamp m :=
  ⟨readsBack_day hd, readsBack_time hlow hhigh, readsBack_local hm, readsBack_zoned hm⟩

/-- The first day of the calendar, the first microsecond of a day, and the last one before 1970. -/
theorem readsBack_first :
    TimeForm.day.inCalendar (-719162) = true ∧ TimeForm.moment.inCalendar (-1) = true ∧
      (renderDay (-719162) >>= parseDay) = .ok (-719162) ∧ (renderTime 1 >>= parseTime) = .ok 1 ∧
      (renderLocal (-1) >>= parseLocal) = .ok (-1) ∧
      (renderZoned (-1) >>= parseZoned) = .ok (-1) := by
  have hd : TimeForm.day.inCalendar (-719162) = true := by decide
  have hm : TimeForm.moment.inCalendar (-1) = true := by decide
  obtain ⟨hday, htime, hlocal, hzoned⟩ :=
    readsBack_calendar hd (t := 1) (by decide) (by decide) hm
  exact ⟨hd, hm, hday.1, htime.1, hlocal.1, hzoned.1⟩

end Epoch

end PartitionPruning
