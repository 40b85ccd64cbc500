import PartitionPruning.Calendar.Date

/-!
# Times and timestamps

A time of day and a point in time are counted in microseconds, the former from midnight, the latter
from the start of 1970. A timestamp may carry an offset from universal time; its count is then that
of the same moment in universal time. All conversions to coarser units round down, so that a moment
before 1970 falls into the unit that it lies in.
-/

namespace PartitionPruning

/-- A time of day. -/
structure TimeOfDay where
  hour : Nat
  minute : Nat
  second : Nat
  micro : Nat
  deriving DecidableEq, Repr

namespace TimeOfDay

def isValid (t : TimeOfDay) : Bool :=
  t.hour < 24 && t.minute < 60 && t.second < 60 && t.micro < 1000000

/-- The time of day with these parts, if there is one. -/
def ofParts? (hour minute second micro : Nat) : Option TimeOfDay :=
  let t : TimeOfDay := ⟨hour, minute, second, micro⟩
  if t.isValid then some t else none

def micros (t : TimeOfDay) : Nat := ((t.hour * 60 + t.minute) * 60 + t.second) * 1000000 + t.micro

/-- The time of day some microseconds after midnight, with as many hours as there are. -/
def split (n : Nat) : TimeOfDay :=
  ⟨n / 3600000000, n / 60000000 % 60, n / 1000000 % 60, n % 1000000⟩

def microsPerDay : Nat := 86400000000

/-- The time of day some microseconds after midnight. -/
def ofMicros? (n : Int) : Option TimeOfDay :=
  if 0 ≤ n ∧ n < microsPerDay then some (split n.toNat) else none

/-- Hours, minutes, seconds and microseconds add up to what they were split from. -/
theorem micros_split (n : Nat) : (split n).micros = n := by
  simp only [split, micros]
  omega

/-- The microseconds of one day are a time on the clock. -/
theorem isValid_split {n : Nat} (h : n < microsPerDay) : (split n).isValid = true := by
  simp only [microsPerDay] at h
  have hour : n / 3600000000 < 24 := by omega
  have minute : n / 60000000 % 60 < 60 := by omega
  have second : n / 1000000 % 60 < 60 := by omega
  have micro : n % 1000000 < 1000000 := by omega
  simp [isValid, split, hour, minute, second, micro]

/-- A time on the clock is the one that its microseconds are split into. -/
theorem split_micros {t : TimeOfDay} (h : t.isValid = true) : split t.micros = t := by
  obtain ⟨hour, minute, second, micro⟩ := t
  simp only [isValid, Bool.and_eq_true, decide_eq_true_eq] at h
  simp only [split, micros, TimeOfDay.mk.injEq]
  omega

/-- The text `hh:mm:ss`, followed by the microseconds when there are any. -/
def render (t : TimeOfDay) : String :=
  String.ofList (Date.padded 2 t.hour ++ ':' :: Date.padded 2 t.minute ++ ':' ::
    Date.padded 2 t.second ++ (if t.micro = 0 then [] else '.' :: Date.padded 6 t.micro))

end TimeOfDay

/-- A day, a time of day and the offset from universal time in microseconds, if one is given. -/
structure Timestamp where
  date : Date
  time : TimeOfDay
  offset : Option Int
  deriving DecidableEq, Repr

namespace Timestamp

open TimeOfDay (microsPerDay)

/-- Microseconds from the start of 1970, in universal time when an offset is given. -/
def micros (t : Timestamp) : Int :=
  t.date.number * microsPerDay + t.time.micros - t.offset.getD 0

/-- The day that a moment falls on. -/
def dayOfMicros (n : Int) : Int := n / microsPerDay

/-- The hour, counted from the start of 1970, that a moment falls into. -/
def hourOfMicros (n : Int) : Int := n / 3600000000

/-- The timestamp without offset of a moment, none outside the calendar. -/
def ofMicros? (n : Int) : Option Timestamp :=
  (Date.ofNumber? (dayOfMicros n)).map fun date =>
    ⟨date, TimeOfDay.split (n % microsPerDay).toNat, none⟩

/-- The offset as a sign, hours, minutes, and seconds when there are any. -/
def renderOffset (offset : Int) : String :=
  let n := offset.natAbs
  let t := TimeOfDay.split n
  String.ofList ((if offset < 0 then '-' else '+') :: Date.padded 2 t.hour ++ ':' ::
    Date.padded 2 t.minute ++
    (if t.second = 0 ∧ t.micro = 0 then []
     else ':' :: Date.padded 2 t.second ++ (if t.micro = 0 then [] else '.' :: Date.padded 6 t.micro)))

/-- The text of a timestamp, with a character of choice between day and time. -/
def render (separator : String) (t : Timestamp) : String :=
  t.date.render ++ separator ++ t.time.render ++ (t.offset.map renderOffset).getD ""

/-- The text of the hour that a timestamp falls into. -/
def renderHour (t : Timestamp) : String :=
  t.date.render ++ "-" ++ String.ofList (Date.padded 2 t.time.hour)

/-- A moment is the start of its day and the time since. -/
theorem micros_of_day (n : Int) :
    dayOfMicros n * microsPerDay + (n % microsPerDay) = n := by
  simp only [dayOfMicros, microsPerDay]
  omega

end Timestamp

end PartitionPruning
