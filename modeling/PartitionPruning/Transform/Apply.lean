import PartitionPruning.Calendar.Epoch
import PartitionPruning.Hash.Murmur3
import PartitionPruning.Numeral.Multiple
import PartitionPruning.Text.Template
import PartitionPruning.Transform.Basic
import PartitionPruning.Value.Elapsed

/-!
# Applying transforms

`Transform.function` is the function from values of a column to partition values, for columns of a type
that the transform accepts. A null has no partition value but null.

Buckets are numbered by the hash of a value. It is made positive by dropping its sign bit, and the
remainder after division by the count of buckets is the number.
-/

namespace PartitionPruning

/-- The result for a value that is not null. -/
def Value.unlessNull (f : Value → Except Fault Value) (v : Value) : Except Fault Value :=
  if v.isNull then .ok .null else f v

/-! ### Hashes -/

namespace HashForm

/-- The largest number of 64 bits. -/
def largest : Int := 2 ^ (63 : Nat) - 1

/-- The smallest number of 64 bits. -/
def smallest : Int := -2 ^ (63 : Nat)

/-- The eight bytes of an integer, least significant first. -/
def numberBytes (n : Int) : Except Fault (List UInt8) :=
  if smallest ≤ n ∧ n ≤ largest then .ok (Decimal.bigEndian n 8).reverse else .error .notPackable

def toBytes : HashForm → Value → Except Fault (List UInt8)
  | .number, v => match v.whole? with
    | some n => numberBytes n.toInt
    | none => .error .notPackable
  | .decimal, .decimal d => .ok d.toBytes
  | .decimal, _ => .error .lacksProperty
  | .bytes, .text s => .ok s.toUTF8.toList
  | .bytes, .bytes bs => .ok bs
  | .bytes, _ => .error .wrongKind
  | .uuid, .uuid u => .ok u.bytes
  | .uuid, _ => .error .lacksProperty

def hash (form : HashForm) (v : Value) : Except Fault Int :=
  (form.toBytes v).map Murmur3.signedHash

end HashForm

def bucketOfHash (count : Nat) (hash : Int) : Int := (hash % 2 ^ (31 : Nat)) % count

/-! ### Truncation -/

/-- An arithmetic result that may be out of range. -/
def Value.inRange (x : Option α) (make : α → Value) (fault : Fault) : Except Fault Value :=
  match x with
  | some a => .ok (make a)
  | none => .error fault

namespace TruncateForm

/-- A number cut to a multiple of a width. Texts and bytes are templates that the width is filled
into, which never gives a number. -/
def cutNumber (width : Nat) (v : Value) : Except Fault Value :=
  match v with
  | .text s => .error (Text.Template.fault .text width s.toList)
  | .bytes bs => .error (Text.Template.fault .bytes width (bs.map fun b => Char.ofNat b.toNat))
  | .float x => Value.inRange (x.floorMultiple? width) .float .outOfRange
  | .decimal d => Value.inRange (d.cutToMultiple? width) .decimal .undefinedDecimal
  | v => match v.whole? with
    | some n => .ok (.int (Numeral.floorMultiple width n.toInt))
    | none => .error .wrongKind

/-- A decimal cut to a multiple of a width of its unscaled value. -/
def cutDecimal (width : Nat) : Value → Except Fault Value
  | .decimal d => match d.scale? with
    | some scale => .ok (.decimal (d.truncate width scale))
    | none => .error .unreadable
  | _ => .error .lacksProperty

def cutSequence (width : Nat) : Value → Except Fault Value
  | .text s => .ok (.text (String.ofList (s.toList.take width)))
  | .bytes bs => .ok (.bytes (bs.take width))
  | .list items => .ok (.list (items.take width))
  | _ => .error .wrongKind

def cut (width : Nat) : TruncateForm → Value → Except Fault Value
  | .number => cutNumber width
  | .decimal => cutDecimal width
  | .sequence => cutSequence width

end TruncateForm

/-! ### Units of time -/

/-- The days or microseconds that a value counts. -/
def TimeForm.count : TimeForm → Value → Except Fault Int
  | .day, v => v.days
  | .moment, v => v.micros

namespace TimeUnit

/-- The unit that a day lies in. -/
def ofDay : TimeUnit → Int → Except Fault Int
  | .year => Epoch.yearOfDay
  | .month => Epoch.monthOfDay
  | .day | .hour => .ok

/-- The unit that a moment lies in. -/
def ofMicros : TimeUnit → Int → Except Fault Int
  | .year => Epoch.yearOfMicros
  | .month => Epoch.monthOfMicros
  | .day => Epoch.dayOfMicros
  | .hour => fun n => .ok (Timestamp.hourOfMicros n)

/-- The unit that a number of a form lies in. -/
def ofForm (u : TimeUnit) : TimeForm → Int → Except Fault Int
  | .day => u.ofDay
  | .moment => u.ofMicros

/-- The unit that a value lies in. The day of a day is the value itself. -/
def cut (u : TimeUnit) (form : TimeForm) (v : Value) : Except Fault Value :=
  match u, form, v.whole? with
  | .day, .day, _ => .ok v
  | u, form, some n => (u.ofForm form n.toInt).map .int
  | .hour, .moment, none => v.hours
  | u, form, none => do pure (.int (← u.ofForm form (← form.count v)))

end TimeUnit

namespace Transform

/-- How values of a type are transformed. -/
def function (source : DataType) : Transform → Except Fault (Value → Except Fault Value)
  | .identity => .ok .ok
  | .void => .ok fun _ => .ok .null
  | .bucket count => match source.hashForm? with
    | some form =>
      .ok (Value.unlessNull fun v => (form.hash v).map fun h => .int (bucketOfHash count h))
    | none => .error (.cannotBucket source)
  | .truncate width => match source.truncateForm? with
    | some form => .ok (Value.unlessNull (form.cut width))
    | none => .error (.cannotTruncate source)
  | .time u => match u.form? source with
    | some form => .ok (Value.unlessNull (u.cut form))
    | none => .error (.cannotApply u.name source)
  | .unknown name => .error (.unsupportedTransform name)

/-- The partition value for a value of a column. -/
def apply (t : Transform) (source : DataType) (v : Value) : Except Fault Value := do
  (← t.function source) v

/-- The hash that the buckets of a type are numbered by. -/
def hash (source : DataType) (v : Value) : Except Fault Int :=
  match source.hashForm? with
  | some form => form.hash v
  | none => .error (.cannotBucket source)

/-- Identity gives every value back, whatever the type of the column. -/
theorem apply_identity (source : DataType) (v : Value) : identity.apply source v = .ok v := rfl

end Transform

/-- Buckets are counted from zero, also for negative hashes. -/
theorem bucketOfHash_nonneg {count : Nat} (h : 0 < count) (n : Int) : 0 ≤ bucketOfHash count n :=
  Int.emod_nonneg _ (by omega)

/-- A bucket is one of those that there are. -/
theorem bucketOfHash_lt {count : Nat} (h : 0 < count) (n : Int) : bucketOfHash count n < count :=
  Int.emod_lt_of_pos _ (by omega)

end PartitionPruning
