import PartitionPruning.Text.Quoted

/-!
# Data types

A column has a primitive type or is a struct of named fields. Every type has a name, which is how it
is written in metadata (`long`, `decimal(9, 2)`, `struct<1: a: optional int>`), and a longer form
that says how it is made. Something else that stands where a type is expected is kept with these two
texts; nothing more is known of it, and what has to look into the type reports it.

`DataType.field?` finds a field of a struct by its id.
-/

namespace PartitionPruning

/-- A type without parts. Fixed values have a length in bytes; decimals have a precision and a
scale. -/
inductive Primitive where
  | boolean
  | int
  | long
  | float
  | double
  | date
  | time
  | timestamp
  | timestamptz
  | string
  | uuid
  | binary
  | fixed (length : Nat)
  | decimal (precision scale : Nat)
  deriving DecidableEq, Repr

mutual

/-- A type, or something else that stands for one, with its text and the text of how it is made. -/
inductive DataType where
  | primitive (p : Primitive)
  | struct (fields : List Field)
  | other (shown made : String)

/-- A field of a struct or a column of a table. -/
structure Field where
  id : Int
  name : String
  type : DataType
  required : Bool
  doc : Option String

end

/-! ### Equality -/

mutual

def DataType.decEq : (a b : DataType) → Decidable (a = b)
  | .primitive p, .primitive q =>
    if h : p = q then isTrue (h ▸ rfl) else isFalse fun e => h (DataType.primitive.inj e)
  | .struct fields, .struct others => match Field.decEqList fields others with
    | isTrue h => isTrue (h ▸ rfl)
    | isFalse h => isFalse fun e => h (DataType.struct.inj e)
  | .other s m, .other s' m' =>
    if h : s = s' ∧ m = m' then isTrue (by rw [h.1, h.2])
    else isFalse fun e => h (DataType.other.inj e)
  | .primitive _, .struct _ => isFalse nofun
  | .primitive _, .other .. => isFalse nofun
  | .struct _, .primitive _ => isFalse nofun
  | .struct _, .other .. => isFalse nofun
  | .other .., .primitive _ => isFalse nofun
  | .other .., .struct _ => isFalse nofun
termination_by structural a => a

def Field.decEq : (a b : Field) → Decidable (a = b)
  | ⟨i, n, t, r, d⟩, ⟨i', n', t', r', d'⟩ =>
    if h : i = i' ∧ n = n' ∧ r = r' ∧ d = d' then
      match DataType.decEq t t' with
      | isTrue ht => isTrue (by obtain ⟨h₁, h₂, h₃, h₄⟩ := h; simp [h₁, h₂, h₃, h₄, ht])
      | isFalse ht => isFalse fun e => ht (congrArg Field.type e)
    else isFalse fun e => h (by cases e; exact ⟨rfl, rfl, rfl, rfl⟩)
termination_by structural a => a

/-- Equality of lists of fields is decided field by field. -/
def Field.decEqList : (as bs : List Field) → Decidable (as = bs)
  | [], [] => isTrue rfl
  | [], _ :: _ => isFalse nofun
  | _ :: _, [] => isFalse nofun
  | a :: as, b :: bs => match Field.decEq a b, Field.decEqList as bs with
    | isTrue h, isTrue hs => isTrue (h ▸ hs ▸ rfl)
    | isFalse h, _ => isFalse fun e => h (List.cons.inj e).1
    | _, isFalse hs => isFalse fun e => hs (List.cons.inj e).2
termination_by structural as => as

end

instance : DecidableEq DataType := DataType.decEq

instance : DecidableEq Field := Field.decEq

/-! ### Names -/

/-- The name of a type without parts, with numbers of any length; `Primitive.write` keeps to the limit. -/
def Primitive.render : Primitive → String
  | .boolean => "boolean"
  | .int => "int"
  | .long => "long"
  | .float => "float"
  | .double => "double"
  | .date => "date"
  | .time => "time"
  | .timestamp => "timestamp"
  | .timestamptz => "timestamptz"
  | .string => "string"
  | .uuid => "uuid"
  | .binary => "binary"
  | .fixed length => "fixed[" ++ toString length ++ "]"
  | .decimal precision scale => "decimal(" ++ toString precision ++ ", " ++ toString scale ++ ")"

mutual

def DataType.render : DataType → String
  | .primitive p => p.render
  | .struct fields => "struct<" ++ ", ".intercalate (Field.renderList fields) ++ ">"
  | .other shown _ => shown
termination_by structural t => t

/-- A field as its id, name, whether it is required, type and documentation. -/
def Field.render : Field → String
  | ⟨id, name, type, required, doc⟩ =>
    toString id ++ ": " ++ name ++ ": " ++ (if required then "required" else "optional") ++ " " ++
      DataType.render type ++
      match doc with
      | none => ""
      | some text => if text = "" then "" else " (" ++ text ++ ")"
termination_by structural f => f

def Field.renderList : List Field → List String
  | [] => []
  | f :: rest => Field.render f :: Field.renderList rest
termination_by structural fields => fields

end

/-! ### Numbers in names -/

/-- The numbers in the name of a type without parts. -/
def Primitive.numbers : Primitive → List Nat
  | .fixed length => [length]
  | .decimal precision scale => [precision, scale]
  | _ => []

mutual

/-- The numbers in the name of a type. -/
def DataType.numbers : DataType → List Nat
  | .primitive p => p.numbers
  | .struct fields => Field.numbersList fields
  | .other .. => []
termination_by structural t => t

def Field.numbers : Field → List Nat
  | ⟨id, _, type, _, _⟩ => id.natAbs :: DataType.numbers type
termination_by structural f => f

def Field.numbersList : List Field → List Nat
  | [] => []
  | f :: rest => Field.numbers f ++ Field.numbersList rest
termination_by structural fields => fields

end

/-! ### How types are made -/

/-- How a type without parts is made. -/
def Primitive.inspect : Primitive → String
  | .boolean => "BooleanType()"
  | .int => "IntegerType()"
  | .long => "LongType()"
  | .float => "FloatType()"
  | .double => "DoubleType()"
  | .date => "DateType()"
  | .time => "TimeType()"
  | .timestamp => "TimestampType()"
  | .timestamptz => "TimestamptzType()"
  | .string => "StringType()"
  | .uuid => "UUIDType()"
  | .binary => "BinaryType()"
  | .fixed length => "FixedType(length=" ++ toString length ++ ")"
  | .decimal precision scale =>
    "DecimalType(precision=" ++ toString precision ++ ", scale=" ++ toString scale ++ ")"

/-- A truth value, written with a capital letter. -/
def renderBool (b : Bool) : String := if b then "True" else "False"

mutual

def DataType.inspect : DataType → String
  | .primitive p => p.inspect
  | .struct fields => "StructType(fields=(" ++ ", ".intercalate (Field.inspectList fields) ++ ",))"
  | .other _ made => made
termination_by structural t => t

/-- How a field is made; its documentation is left out. -/
def Field.inspect : Field → String
  | ⟨id, name, type, required, _⟩ =>
    "NestedField(field_id=" ++ toString id ++ ", name=" ++ Text.quote name ++ ", field_type=" ++
      DataType.inspect type ++ ", required=" ++ renderBool required ++ ")"
termination_by structural f => f

def Field.inspectList : List Field → List String
  | [] => []
  | f :: rest => Field.inspect f :: Field.inspectList rest
termination_by structural fields => fields

end

/-- The texts of the fields of a struct are the texts of each of them. -/
theorem Field.renderList_eq_map (fields : List Field) :
    Field.renderList fields = fields.map Field.render := by
  induction fields with
  | nil => rfl
  | cons f rest ih => simp [Field.renderList, ih]

/-- How the fields of a struct are made is how each of them is made. -/
theorem Field.inspectList_eq_map (fields : List Field) :
    Field.inspectList fields = fields.map Field.inspect := by
  induction fields with
  | nil => rfl
  | cons f rest ih => simp [Field.inspectList, ih]

/-! ### Parts -/

namespace DataType

/-- The type of a column of which nothing is known. -/
def unspecified : DataType := .other "" "DataType()"

def isPrimitive : DataType → Bool
  | .primitive _ => true
  | _ => false

def isStruct : DataType → Bool
  | .struct _ => true
  | _ => false

/-- The fields of a struct; other types have none. -/
def fields : DataType → List Field
  | .struct fields => fields
  | _ => []

def field? (t : DataType) (id : Int) : Option Field := t.fields.find? (·.id = id)

/-- The length of a fixed type or the number of fields of a struct. -/
def length? : DataType → Option Nat
  | .primitive (.fixed length) => some length
  | .struct fields => some fields.length
  | _ => none

end DataType

end PartitionPruning
