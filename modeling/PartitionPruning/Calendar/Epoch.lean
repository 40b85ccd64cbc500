import PartitionPruning.Calendar.Iso
import PartitionPruning.Fault

/-!
# Counting from 1970

Days, hours, months and years are counted from the start of 1970 and moments in microseconds from it.
Counting in days or hours works for every moment within a billion days; months and years exist in
the calendar only, and so do texts.

All counts round down: a moment before 1970 falls into the unit that it lies in.
-/

namespace PartitionPruning.Epoch

/-- The largest count of days of a duration. -/
def longestDuration : Int := 999999999

/-- A duration in microseconds, which must not be too long. -/
def duration (micros : Int) : Except Fault Int :=
  let days := Timestamp.dayOfMicros micros
  if -longestDuration ≤ days ∧ days ≤ longestDuration then .ok micros else .error .outOfCalendar

/-- A result that may lie outside the calendar. -/
def inCalendar (x : Option α) : Except Fault α :=
  match x with
  | some a => .ok a
  | none => .error .outOfCalendar

def dateOfDay (day : Int) : Except Fault Date := inCalendar (Date.ofNumber? day)

def timestampOfMicros (micros : Int) : Except Fault Timestamp :=
  inCalendar (Timestamp.ofMicros? micros)

def dayOfMicros (micros : Int) : Except Fault Int := (duration micros).map Timestamp.dayOfMicros

def monthOfDay (day : Int) : Except Fault Int := (dateOfDay day).map Date.monthOrdinal

def yearOfDay (day : Int) : Except Fault Int := (dateOfDay day).map Date.yearOrdinal

def monthOfMicros (micros : Int) : Except Fault Int :=
  (timestampOfMicros micros).map fun t => t.date.monthOrdinal

def yearOfMicros (micros : Int) : Except Fault Int :=
  (timestampOfMicros micros).map fun t => t.date.yearOrdinal

/-- The largest hour that a time of day is asked for. -/
def hourLimit : Int := 2 ^ (31 : Nat)

/-- The time of day some microseconds after midnight. -/
def timeOfMicros (micros : Int) : Except Fault TimeOfDay :=
  match TimeOfDay.ofMicros? micros with
  | some t => .ok t
  | none =>
    let hour := Timestamp.hourOfMicros micros
    if -hourLimit ≤ hour ∧ hour < hourLimit then .error .unreadable else .error .outOfCalendar

/-! ### Texts -/

def renderDay (day : Int) : Except Fault String := (dateOfDay day).map Date.render

/-- The text of the hour of a moment. -/
def renderHour (micros : Int) : Except Fault String :=
  (timestampOfMicros micros).map Timestamp.renderHour

/-- The text of a time of day. -/
def renderTime (micros : Int) : Except Fault String := (timeOfMicros micros).map TimeOfDay.render

/-- The text of a moment without offset. -/
def renderLocal (micros : Int) : Except Fault String :=
  (timestampOfMicros micros).map (Timestamp.render "T")

/-- The text of a moment in universal time. -/
def renderZoned (micros : Int) : Except Fault String :=
  (timestampOfMicros micros).map fun t => (⟨t.date, t.time, some 0⟩ : Timestamp).render "T"

/-! ### Reading -/

/-- A text that may not be readable. -/
def readable (x : Option α) : Except Fault α :=
  match x with
  | some a => .ok a
  | none => .error .unreadable

def parseDay (text : String) : Except Fault Int := (readable (Iso.date? text)).map Date.number

def parseTime (text : String) : Except Fault Int :=
  (readable (Iso.time? text)).map fun t => (t.micros : Int)

/-- Reads a moment that is written without offset. -/
def parseLocal (text : String) : Except Fault Int :=
  if Iso.isLocalShape text then (readable (Iso.parts? text)).map Timestamp.micros
  else if Iso.isZonedShape text then .error (.unexpectedOffset text)
  else .error (.timestampForm text)

/-- Reads a moment that is written with an offset. -/
def parseZoned (text : String) : Except Fault Int :=
  if Iso.isZonedShape text then (readable (Iso.parts? text)).map Timestamp.micros
  else if Iso.isLocalShape text then .error (.missingOffset text)
  else .error (.zonedTimestampForm text)

end PartitionPruning.Epoch
