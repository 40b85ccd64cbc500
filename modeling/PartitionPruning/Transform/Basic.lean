import PartitionPruning.DataType.Metadata

/-!
# Partition transforms

A transform derives the value that a table is partitioned by from the value of a column. Its name is
how it is written in metadata: `identity`, `bucket[16]`, `truncate[4]`, `day`. A name that no
transform has is kept; nothing can be derived with it.

Each transform accepts some types of columns and has a type of results for each of them.
-/

namespace PartitionPruning

/-- A unit of time that days or moments are cut to. -/
inductive TimeUnit where
  | year
  | month
  | day
  | hour
  deriving DecidableEq, Repr

/-- How a partition value is derived from the value of a column. -/
inductive Transform where
  | identity
  | void
  | bucket (count : Nat)
  | truncate (width : Nat)
  | time (unit : TimeUnit)
  | unknown (name : String)
  deriving DecidableEq, Repr

namespace TimeUnit

def all : List TimeUnit := [.year, .month, .day, .hour]

def name : TimeUnit → String
  | .year => "year"
  | .month => "month"
  | .day => "day"
  | .hour => "hour"

/-- How the transform to a unit is made. -/
def inspect : TimeUnit → String
  | .year => "YearTransform()"
  | .month => "MonthTransform()"
  | .day => "DayTransform()"
  | .hour => "HourTransform()"

end TimeUnit

/-! ### What is transformed -/

/-- How the values of a type are hashed: as numbers of 64 bits, as unscaled decimal numbers, as
texts or bytes, or as identifiers. -/
inductive HashForm where
  | number
  | decimal
  | bytes
  | uuid
  deriving DecidableEq, Repr

/-- How the values of a type are truncated: as numbers, as decimal numbers, or as sequences. -/
inductive TruncateForm where
  | number
  | decimal
  | sequence
  deriving DecidableEq, Repr

/-- What the values of a type count: days, or the microseconds of moments. -/
inductive TimeForm where
  | day
  | moment
  deriving DecidableEq, Repr

namespace DataType

/-- How the values of the type are hashed. -/
def hashForm? : DataType → Option HashForm
  | .primitive .int | .primitive .long | .primitive .date | .primitive .time
  | .primitive .timestamp | .primitive .timestamptz => some .number
  | .primitive (.decimal _ _) => some .decimal
  | .primitive .string | .primitive (.fixed _) | .primitive .binary => some .bytes
  | .primitive .uuid => some .uuid
  | _ => none

/-- How the values of the type are truncated. -/
def truncateForm? : DataType → Option TruncateForm
  | .primitive .int | .primitive .long => some .number
  | .primitive (.decimal _ _) => some .decimal
  | .primitive .string | .primitive .binary => some .sequence
  | _ => none

/-- What the values of the type count. -/
def timeForm? : DataType → Option TimeForm
  | .primitive .date => some .day
  | .primitive .timestamp | .primitive .timestamptz => some .moment
  | _ => none

end DataType

namespace TimeUnit

/-- What the values of a type count, if they can be cut to the unit; days are not cut to hours. -/
def form? (u : TimeUnit) (source : DataType) : Option TimeForm :=
  match u, source.timeForm? with
  | .hour, some .day => none
  | _, form => form

end TimeUnit

namespace Transform

/-- Whether the transform accepts columns of a type. -/
def canTransform (source : DataType) : Transform → Bool
  | .identity => source.isPrimitive
  | .void => true
  | .bucket _ => source.hashForm?.isSome
  | .truncate _ => source.truncateForm?.isSome
  | .time u => (u.form? source).isSome
  | .unknown _ => false

/-- The type of the results for columns of a type. -/
def resultType (source : DataType) : Transform → DataType
  | .identity | .void | .truncate _ => source
  | .bucket _ => .primitive .int
  | .time .day => .primitive .date
  | .time _ => .primitive .int
  | .unknown _ => .primitive .string

/-- Whether the transform accepts columns of a type. Identity asks what stands for the type whether it
is primitive, which only types can tell. -/
def accepts (source : DataType) (t : Transform) : Except Fault Bool :=
  match t, source with
  | .identity, .other .. => .error .lacksProperty
  | t, source => .ok (t.canTransform source)

/-- Whether larger values never have smaller results. -/
def preservesOrder : Transform → Bool
  | .identity | .truncate _ | .time _ => true
  | .void | .bucket _ | .unknown _ => false

/-! ### Names -/

/-- The name of a transform, with a number of any length; `Transform.write` keeps to the limit. -/
def render : Transform → String
  | .identity => "identity"
  | .void => "void"
  | .bucket count => "bucket[" ++ toString count ++ "]"
  | .truncate width => "truncate[" ++ toString width ++ "]"
  | .time u => u.name
  | .unknown name => name

def inspect : Transform → String
  | .identity => "IdentityTransform()"
  | .void => "VoidTransform()"
  | .bucket count => "BucketTransform(num_buckets=" ++ toString count ++ ")"
  | .truncate width => "TruncateTransform(width=" ++ toString width ++ ")"
  | .time u => u.inspect
  | .unknown name => "UnknownTransform(transform=" ++ Text.quote name ++ ")"

/-- Whether two transforms have the same name. -/
def same (s t : Transform) : Bool := s.render = t.render

/-- The numbers in the name of a transform. -/
def numbers : Transform → List Nat
  | .bucket count => [count]
  | .truncate width => [width]
  | _ => []

/-- The name of a transform as it is written. -/
def write (t : Transform) : Except Fault String := Numeral.write t.numbers t.render

def toJson (t : Transform) : Except Fault Json := t.write.map .string

/-- The transform with a number in brackets, which must not be zero. -/
def parseNumber (make : Nat → Transform) (word name : String) : Except Fault Transform := do
  let n ← Text.Brackets.parse word name
  if n = 0 then throw .malformedMetadata else pure (make n)

def parse (name : String) : Except Fault Transform :=
  if name = "identity" then .ok .identity
  else if name = "void" then .ok .void
  else if "bucket".toList.isPrefixOf name.toList then parseNumber .bucket "bucket" name
  else if "truncate".toList.isPrefixOf name.toList then parseNumber .truncate "truncate" name
  else match TimeUnit.all.find? (·.name = name) with
    | some u => .ok (.time u)
    | none => .ok (.unknown name)

/-- Reads a transform from its document. Nothing can be made of the members of an object. -/
def ofJson : Json → Except Fault Transform
  | .string name => (parse name).mapError Fault.inMetadata
  | .object _ => .error .wrongKind
  | _ => .error .malformedMetadata

/-- A transform has the name that it has. -/
theorem same_refl (t : Transform) : t.same t = true := by simp [same]

end Transform

end PartitionPruning
