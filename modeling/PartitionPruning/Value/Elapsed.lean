import PartitionPruning.Calendar.Epoch
import PartitionPruning.Numeral.Quotient
import PartitionPruning.Value.Count

/-!
# Values as elapsed time

A span of time is given in microseconds, in hours or in days, by an integer or by a double. All spans
are counted in whole microseconds. `Value.hours` is the number of hours in a moment, which is a number
of the kind that the moment is given by.
-/

namespace PartitionPruning

namespace Value

/-- The microseconds of a span that is given in units of so many microseconds. -/
def span (unit : Nat) (v : Value) : Except Fault Int :=
  match v with
  | .float x =>
    if x.isNaN then .error .unreadable
    else if x.isInfinite then .error .outOfRange
    else .ok (x.units unit)
  | v => v.integer.map (· * unit)

def micros : Value → Except Fault Int := span 1

/-- The microseconds of a number of hours. -/
def hourSpan : Value → Except Fault Int := span 3600000000

/-- The day that a number of days ends on. -/
def days (v : Value) : Except Fault Int := (v.span TimeOfDay.microsPerDay).map Timestamp.dayOfMicros

/-- The hour that a moment falls into. -/
def hours : Value → Except Fault Value
  | .float x => .ok (.float (x.floorQuotient 3600000000))
  | .decimal d => match d.wholeQuotient? 3600000000 with
    | some q => .ok (.decimal q)
    | none => .error .undefinedDecimal
  | v => v.integer.map fun n => .int (Timestamp.hourOfMicros n)

/-! ### Integers only

Years, months and times of day are made from integers. A decimal is refused only after the first
division that it takes part in. -/

/-- The integer that a value is, for texts of years. A decimal is refused after it is added to the
first year. -/
def yearNumber : Value → Except Fault Int
  | .float _ => .error .unreadable
  | .decimal d => .error (d.refusal 1970)
  | v => v.integer

/-- The integer that a value is, for texts of months. -/
def monthNumber : Value → Except Fault Int
  | .float _ => .error .unreadable
  | .decimal d => .error (if d.hasRemainder 12 then .unreadable else .undefinedDecimal)
  | v => v.integer

/-- The integer that a value is, for times of day. -/
def clockNumber : Value → Except Fault Int
  | .decimal d => .error (if d.hasRemainder 1000000 then .wrongKind else .undefinedDecimal)
  | v => v.integer

end Value

end PartitionPruning
