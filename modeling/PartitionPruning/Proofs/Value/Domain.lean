import PartitionPruning.Schema.Basic
import PartitionPruning.Transform.Basic
import PartitionPruning.Value.Basic

/-!
# Values of a type

Rows are not checked when they are read, so what a row of a schema is has to be said: each column
holds a value of its type, or a null if it is not required, and a struct holds a record of such values.

A value of a primitive type is of the kind of the type (`Primitive.admits`) and within its range
(`Primitive.inRange`): integers have 32 or 64 bits, days and moments lie in the calendar, fixed values
have their length and decimals the exponent that the scale says.
-/

namespace PartitionPruning

/-- Whether a count of days or of microseconds lies in the calendar. -/
def TimeForm.inCalendar : TimeForm → Int → Bool
  | .day, n => Date.firstNumber ≤ n && n ≤ Date.lastNumber
  | .moment, n =>
    Date.firstNumber ≤ Timestamp.dayOfMicros n && Timestamp.dayOfMicros n ≤ Date.lastNumber

namespace Primitive

/-- Whether a value is of the kind of a type, whatever its size. -/
def admits : Primitive → Value → Bool
  | .boolean, .bool _ => true
  | .int, .int _ | .long, .int _ | .date, .int _ | .time, .int _ | .timestamp, .int _
  | .timestamptz, .int _ => true
  | .float, .float _ | .double, .float _ => true
  | .string, .text _ => true
  | .uuid, .uuid _ => true
  | .binary, .bytes _ | .fixed _, .bytes _ => true
  | .decimal _ _, .decimal (.finite ..) => true
  | _, _ => false

/-- Whether a value of the kind of a type is within its range. -/
def inRange : Primitive → Value → Bool
  | .int, .int n => -2147483648 ≤ n && n ≤ 2147483647
  | .long, .int n => -9223372036854775808 ≤ n && n ≤ 9223372036854775807
  | .date, .int n => TimeForm.day.inCalendar n
  | .time, .int n => 0 ≤ n && n < 86400000000
  | .timestamp, .int n | .timestamptz, .int n => TimeForm.moment.inCalendar n
  | .fixed length, .bytes bs => bs.length = length
  | .decimal _ scale, .decimal (.finite _ _ e) => e = -(scale : Int)
  | _, _ => true

/-- Whether the value of a converted literal lies in the calendar, or is a decimal with the exponent
that the scale says; it may be beyond the range of the type otherwise. -/
def covers : Primitive → Value → Bool
  | .date, v => v.whole?.all fun w => TimeForm.day.inCalendar w.toInt
  | .timestamp, v | .timestamptz, v => v.whole?.all fun w => TimeForm.moment.inCalendar w.toInt
  | .decimal _ scale, .decimal (.finite _ _ e) => e = -(scale : Int)
  | .decimal _ _, _ => false
  | _, _ => true

/-- Whether a value belongs to a type. -/
def holds (p : Primitive) (v : Value) : Bool := p.admits v && p.inRange v

end Primitive

mutual

/-- Whether a value belongs to a type; the value of a struct is a record. -/
def DataType.holds : DataType → Value → Bool
  | .primitive p, v => p.holds v
  | .struct fields, .record values => Field.holdsAll fields values
  | .struct _, _ => false
  | .other .., _ => false
termination_by structural t => t

/-- Whether a value may stand in a field. -/
def Field.holds : Field → Value → Bool
  | ⟨_, _, type, required, _⟩, v => (v.isNull && !required) || DataType.holds type v
termination_by structural f => f

/-- Whether values may stand in the fields of a struct, one in each. -/
def Field.holdsAll : List Field → List Value → Bool
  | [], [] => true
  | f :: fields, v :: values => Field.holds f v && Field.holdsAll fields values
  | _, _ => false
termination_by structural fields => fields

end

/-- Whether a value is a row of a schema. -/
def Schema.holds (s : Schema) (row : Value) : Bool := s.asStruct.holds row

end PartitionPruning
