import PartitionPruning.Calendar.Epoch
import PartitionPruning.Value.Order
import PartitionPruning.Value.Text

/-!
# Literals

A literal is a constant of a filter. Its class says how it is meant: a date is a count of days, a
timestamp one of microseconds, a single is a double that was rounded. When a number is beyond the
range of the type that it is converted to, a mark that it is above or below the range takes its
place.

`Literal.ofValue` makes a literal of a value, `Literal.value` gives the value back.
-/

namespace PartitionPruning

/-- A type with a range of numbers. -/
inductive Bounded where
  | int
  | long
  | float
  deriving DecidableEq, Repr

/-- A constant of a filter. -/
inductive Literal where
  | boolean (b : Bool)
  | long (n : Whole)
  | float (x : Binary64)
  | double (x : Binary64)
  | date (days : Whole)
  | time (micros : Whole)
  | timestamp (micros : Whole)
  | decimal (d : Decimal)
  | string (s : String)
  | uuid (u : Uuid)
  | fixed (bs : List UInt8)
  | binary (bs : List UInt8)
  | aboveMax (t : Bounded)
  | belowMin (t : Bounded)
  deriving DecidableEq, Repr

namespace Bounded

/-- The largest value of the range. -/
def max : Bounded → Value
  | .int => .int 2147483647
  | .long => .int 9223372036854775807
  | .float => .float ⟨0x47EFFFFFE54DAFF8⟩

/-- The smallest value of the range. -/
def min : Bounded → Value
  | .int => .int (-2147483648)
  | .long => .int (-9223372036854775808)
  | .float => .float ⟨0xC7EFFFFFE54DAFF8⟩

/-- The name of the range in that of a mark. -/
def name : Bounded → String
  | .int => "Int"
  | .long => "Long"
  | .float => "Float"

end Bounded

namespace Literal

/-- The value of a literal; a mark stands for the end of the range. -/
def value : Literal → Value
  | .boolean b => .bool b
  | .long n | .date n | .time n | .timestamp n => .ofWhole n
  | .float x | .double x => .float x
  | .decimal d => .decimal d
  | .string s => .text s
  | .uuid u => .uuid u
  | .fixed bs | .binary bs => .bytes bs
  | .aboveMax t => t.max
  | .belowMin t => t.min

def className : Literal → String
  | .boolean _ => "BooleanLiteral"
  | .long _ => "LongLiteral"
  | .float _ => "FloatLiteral"
  | .double _ => "DoubleLiteral"
  | .date _ => "DateLiteral"
  | .time _ => "TimeLiteral"
  | .timestamp _ => "TimestampLiteral"
  | .decimal _ => "DecimalLiteral"
  | .string _ => "StringLiteral"
  | .uuid _ => "UUIDLiteral"
  | .fixed _ => "FixedLiteral"
  | .binary _ => "BinaryLiteral"
  | .aboveMax t => t.name ++ "AboveMax"
  | .belowMin t => t.name ++ "BelowMin"

/-- The text of a literal: that of its value, or the name of a mark. -/
def render : Literal → String
  | .aboveMax t => className (.aboveMax t)
  | .belowMin t => className (.belowMin t)
  | l => l.value.render

def inspect : Literal → String
  | .string s => "literal(" ++ Text.quote s ++ ")"
  | .aboveMax t => className (.aboveMax t) ++ "()"
  | .belowMin t => className (.belowMin t) ++ "()"
  | l => l.className ++ "(" ++ l.value.inspect ++ ")"

/-! ### From values -/

/-- A double, unless it is not a number. -/
def ofDouble (make : Binary64 → Literal) (x : Binary64) : Except Fault Literal :=
  if x.isNaN then .error .literalNotANumber else .ok (make x)

/-- The literal of a value; days and moments are counted from 1970. -/
def ofValue : Value → Except Fault Literal
  | .bool b => .ok (.boolean b)
  | .int n => .ok (.long (.number n))
  | .float x => ofDouble .double x
  | .text s => .ok (.string s)
  | .uuid u => .ok (.uuid u)
  | .bytes bs => .ok (.binary bs)
  | .decimal d => .ok (.decimal d)
  | .timestamp t => .ok (.timestamp (.number t.micros))
  | .date d => .ok (.date (.number d.number))
  | .time t => .ok (.time (.number t.micros))
  | v => .error (.invalidLiteral v.inspect)

/-- The double of a number, none if there is no such double. -/
def double? : Value → Option Binary64
  | .bool b => Binary64.ofInt? (if b then 1 else 0)
  | .int n => Binary64.ofInt? n
  | .float x => some x
  | .decimal (.finite negative c e) => some (Binary64.ofScientific negative c e)
  | .decimal (.infinite negative) => some (Binary64.infinity negative)
  | .decimal (.nan _ signaling _) => if signaling then none else some Binary64.nan
  | _ => none

def ofNumber (v : Value) : Except Fault Literal :=
  match double? v with
  | none => .error .notPackable
  | some x => match x.toSingle? with
    | none => .error .outOfRange
    | some y => ofDouble .float y

/-! ### Steps -/

/-- The number one step of the last digit further. -/
def stepDecimal (d : Decimal) (step : Int) : Except Fault Literal :=
  match d.scale? with
  | some scale => .ok (.decimal (Decimal.ofUnscaled (d.unscaled + step) scale))
  | none => .error .unreadable

/-- The literal some steps further, for the classes that are counted. -/
def advance (step : Int) : Literal → Except Fault Literal
  | .long n => .ok (.long (.number (n.toInt + step)))
  | .date n => .ok (.date (.number (n.toInt + step)))
  | .timestamp n => .ok (.timestamp (.number (n.toInt + step)))
  | .decimal d => stepDecimal d step
  | _ => .error .lacksProperty

def increment (l : Literal) : Except Fault Literal := l.advance 1

def decrement (l : Literal) : Except Fault Literal := l.advance (-1)

/-! ### Comparing -/

/-- Whether two literals have equal values. -/
def eq (l m : Literal) : Except Fault Bool := Value.eq l.value m.value

/-- Whether two literals are the same member of a set. -/
def same (l m : Literal) : Bool := Value.same l.value m.value

/-- The literals without repetitions, of equal ones the first. -/
def distinct (ls : List Literal) : List Literal :=
  ls.foldl (fun kept l => if kept.any (same l) then kept else kept ++ [l]) []

/-- Whether two sets have the same members. -/
def sameSet (ls ms : List Literal) : Bool :=
  ls.length = ms.length && ls.all fun l => ms.any (same l)

/-- The value of a literal for an integer is that integer. -/
theorem value_long (n : Int) : (Literal.long (.number n)).value = .int n := rfl

end Literal

end PartitionPruning
