import PartitionPruning.Literal.Basic

/-!
# Making literals of a class

A literal can be made of a value in the class that is asked for, which may be another one than the
value would have by itself: a date is made of a count of days. A class accepts values of one kind;
singles accept every number and round it, and marks are made of nothing.
-/

namespace PartitionPruning

/-- A class of literals that are made of a value. -/
inductive LiteralClass where
  | boolean
  | long
  | float
  | double
  | date
  | time
  | timestamp
  | decimal
  | string
  | uuid
  | fixed
  | binary
  deriving DecidableEq, Repr

namespace LiteralClass

def all : List LiteralClass :=
  [.boolean, .long, .float, .double, .date, .time, .timestamp, .decimal, .string, .uuid, .fixed,
    .binary]

def name : LiteralClass → String
  | .boolean => "BooleanLiteral"
  | .long => "LongLiteral"
  | .float => "FloatLiteral"
  | .double => "DoubleLiteral"
  | .date => "DateLiteral"
  | .time => "TimeLiteral"
  | .timestamp => "TimestampLiteral"
  | .decimal => "DecimalLiteral"
  | .string => "StringLiteral"
  | .uuid => "UUIDLiteral"
  | .fixed => "FixedLiteral"
  | .binary => "BinaryLiteral"

/-- The name of the kind of values that a class accepts. -/
def kind : LiteralClass → String
  | .boolean => "<class 'bool'>"
  | .long | .date | .time | .timestamp => "<class 'int'>"
  | .float | .double => "<class 'float'>"
  | .decimal => "<class 'decimal.Decimal'>"
  | .string => "<class 'str'>"
  | .uuid => "<class 'uuid.UUID'>"
  | .fixed | .binary => "<class 'bytes'>"

/-- The literal of an integer, or of a truth value that counts as one. -/
def ofInteger (make : Whole → Literal) (c : LiteralClass) (v : Value) : Except Fault Literal :=
  match v.whole? with
  | some n => .ok (make n)
  | none => .error (.wrongLiteral v.inspect c.kind)

/-- The literal of a class that is made of a value. -/
def ofValue (c : LiteralClass) (v : Value) : Except Fault Literal :=
  match c, v with
  | .boolean, .bool b => .ok (.boolean b)
  | .long, v => ofInteger .long c v
  | .date, v => ofInteger .date c v
  | .time, v => ofInteger .time c v
  | .timestamp, v => ofInteger .timestamp c v
  | .float, v => Literal.ofNumber v
  | .double, .float x => Literal.ofDouble .double x
  | .decimal, .decimal d => .ok (.decimal d)
  | .string, .text s => .ok (.string s)
  | .uuid, .uuid u => .ok (.uuid u)
  | .fixed, .bytes bs => .ok (.fixed bs)
  | .binary, .bytes bs => .ok (.binary bs)
  | c, v => .error (.wrongLiteral v.inspect c.kind)

/-- A literal of an integer holds the integer that was given. -/
theorem ofInteger_eq_ok {c : LiteralClass} {v : Value} {l : Literal} {make : Whole → Literal}
    (h : ofInteger make c v = .ok l) : ∃ n, v.whole? = some n ∧ l = make n := by
  unfold ofInteger at h
  split at h
  · rename_i n hn
    exact ⟨n, hn, (Except.ok.inj h).symm⟩
  · simp at h

end LiteralClass

namespace Bounded

/-- All types with a range of numbers. -/
def all : List Bounded := [.int, .long, .float]

end Bounded

namespace Literal

def markers : List Literal := Bounded.all.map .aboveMax ++ Bounded.all.map .belowMin

def marker? (name : String) : Option Literal := markers.find? (·.className = name)

end Literal

end PartitionPruning
