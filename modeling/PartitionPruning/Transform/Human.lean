import PartitionPruning.Calendar.Epoch
import PartitionPruning.Text.Base64
import PartitionPruning.Transform.Basic
import PartitionPruning.Value.Text

/-!
# Partition values for readers

Partition values are shown as a reader knows them: counts of days or microseconds as dates, times and
timestamps, years and months by their numbers in the calendar, bytes in base 64. A missing value is
shown as `null`. No text has a number that is too long to be written.
-/

namespace PartitionPruning

/-- The word for a missing value. -/
def nullText : String := "null"

namespace TimeUnit

/-- The text of a unit of time. -/
def human : TimeUnit → Int → Except Fault String
  | .year, n => Numeral.write [(1970 + n).natAbs] (Date.renderYearOrdinal n)
  | .month, n => Numeral.write [(1970 + n / 12).natAbs] (Date.renderMonthOrdinal n)
  | .day, n => Epoch.renderDay n
  | .hour, n => Epoch.renderHour (n * 3600000000)

end TimeUnit

/-- The text of a count of days or microseconds, for the types that are such counts. -/
def DataType.humanCount? : DataType → Option (Int → Except Fault String)
  | .primitive .date => some Epoch.renderDay
  | .primitive .time => some Epoch.renderTime
  | .primitive .timestamp => some Epoch.renderLocal
  | .primitive .timestamptz => some Epoch.renderZoned
  | _ => none

/-- The text of a value that is not null, with bytes in base 64. -/
def Value.humanText : Value → Except Fault String
  | .bytes bs => .ok (Text.Base64.encode bs)
  | v => v.write

namespace Transform

/-- The text of a value of a column. -/
def humanIdentity (source : DataType) (v : Value) : Except Fault String :=
  match v.whole?, source.humanCount? with
  | some n, some text => text n.toInt
  | _, _ => v.humanText

/-- The text of a partition value that is not null. -/
def humanOfValue (source : DataType) (v : Value) : Transform → Except Fault String
  | .identity => humanIdentity source v
  | .void => .ok nullText
  | .truncate _ => v.humanText
  | .bucket _ | .unknown _ => v.write
  | .time u => match v.whole? with
    | some n => u.human n.toInt
    | none => .ok nullText

/-- The text of a partition value. -/
def human (t : Transform) (source : DataType) (v : Value) : Except Fault String :=
  if v.isNull then .ok nullText else t.humanOfValue source v

end Transform

end PartitionPruning
