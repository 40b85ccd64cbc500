import PartitionPruning.Calendar.Timestamp
import PartitionPruning.Fault
import PartitionPruning.Numeral.Binary64
import PartitionPruning.Uuid

/-!
# Values

A cell of a row or of a partition tuple may hold any value; columns say which ones they expect, but
rows are not checked. A record is a row inside a row and is read by position, as is a list. What
stands for a type without being one is an object without positions.

`Value.at` reads a position. Truth values count as the numbers zero and one.
-/

namespace PartitionPruning

/-- A value. -/
inductive Value where
  | null
  | bool (b : Bool)
  | int (n : Int)
  | float (x : Binary64)
  | text (s : String)
  | decimal (d : Decimal)
  | bytes (bs : List UInt8)
  | uuid (u : Uuid)
  | date (d : Date)
  | time (t : TimeOfDay)
  | timestamp (t : Timestamp)
  | record (fields : List Value)
  | list (items : List Value)
  | type (t : DataType)

namespace Value

/-- A truth value or an integer as a value. -/
def ofWhole : Whole → Value
  | .flag b => .bool b
  | .number n => .int n

/-- The integer of a truth value or an integer. -/
def whole? : Value → Option Whole
  | .bool b => some (.flag b)
  | .int n => some (.number n)
  | _ => none

def isNull : Value → Bool
  | .null => true
  | _ => false

def element (items : List Value) (position : Nat) (fault : Fault) : Except Fault Value :=
  match items[position]? with
  | some v => .ok v
  | none => .error fault

def «at» (v : Value) (position : Nat) : Except Fault Value :=
  match v with
  | .record fields => element fields position .noPosition
  | .list items => element items position .noIndex
  | .text s => element (s.toList.map fun c => .text (String.singleton c)) position .noIndex
  | .bytes bs => element (bs.map fun b => .int b.toNat) position .noIndex
  | .type (.other ..) => .error .noPosition
  | _ => .error .notIndexed

/-- The integer of a value that stands for one is that integer. -/
theorem whole?_ofWhole (w : Whole) : (ofWhole w).whole? = some w := by cases w <;> rfl

end Value

end PartitionPruning
