import PartitionPruning.Assignment
import PartitionPruning.Json.Key
import PartitionPruning.Value.Order
import PartitionPruning.Value.Text

/-!
# Records

A record is a row whose values are addressed by position and by name. Its positions are named by a
struct, by the names that values are given with, or else by their numbers. A position may have no
value yet.
-/

namespace PartitionPruning

/-- A row of values with names. The values keep the order in which they were first assigned. -/
structure Record where
  names : List String
  assigned : List (String × Value)

namespace Record

def size (r : Record) : Nat := r.names.length

def nameAt (r : Record) (position : Int) : Except Fault String :=
  match if position < 0 then none else r.names[position.toNat]? with
  | some name => .ok name
  | none => .error .noPosition

/-- The record with a value assigned to a name. -/
def setName (r : Record) (name : String) (v : Value) : Record :=
  { r with assigned := Assignment.put name v r.assigned }

/-- The record with a value assigned to a position. -/
def set (r : Record) (position : Int) (v : Value) : Except Fault Record := do
  pure (r.setName (← r.nameAt position) v)

/-- The value of a name, if it has one. -/
def find? (r : Record) (name : String) : Option Value := r.assigned.lookup name

def get (r : Record) (position : Int) : Except Fault Value := do
  match r.find? (← r.nameAt position) with
  | some v => pure v
  | none => throw .lacksProperty

/-- The position that a document stands for. -/
def positionOf (key : Json) : Except Fault Int := do
  match ← key.integerKey with
  | some n => pure n
  | none => throw .noPosition

/-- The values at all positions, null where there is none. -/
def fields (r : Record) : List Value := r.names.map fun name => (r.find? name).getD .null

def namesFor (data : List Value) (struct : Option (List Field)) (named : List (String × Value)) :
    List String :=
  match struct with
  | some fields => fields.map Field.name
  | none =>
    if named.isEmpty then (List.range data.length).map Value.positionName
    else named.map Prod.fst

/-- Assigns values to the positions from one on. -/
def setFrom (r : Record) (position : Nat) : List Value → Except Fault Record
  | [] => .ok r
  | v :: rest => do (← r.set position v).setFrom (position + 1) rest

/-- The names that values cannot be given with. -/
def reservedNames : List String := ["self", "struct"]

/-- The record of some values by position and some values by name. -/
def make (data : List Value) (struct : Option (List Field)) (named : List (String × Value)) :
    Except Fault Record := do
  let named := Assignment.ofPairs named
  if named.any fun (name, _) => reservedNames.contains name then throw .wrongKind
  let positional ← setFrom ⟨namesFor data struct named, []⟩ 0 data
  pure (named.foldl (fun r (name, v) => r.setName name v) positional)

def toValue (r : Record) : Value := .record r.fields

/-- Whether a value is a record with equal values at all positions. -/
def eqValue (r : Record) (v : Value) : Except Fault Bool := r.toValue.eq v

/-- The text of an assigned name, unless the name is marked as hidden by an underscore. -/
def inspectAssigned (name : String) (v : Value) : Option String :=
  if name.toList.head? = some '_' then none else some (name ++ "=" ++ v.inspect)

def inspect (r : Record) : String :=
  "Record[" ++ commas (r.assigned.filterMap fun (name, v) => inspectAssigned name v) ++ "]"

/-- A record has as many values as places, set or not. -/
theorem length_fields (r : Record) : r.fields.length = r.size := by simp [fields, size]

/-- A value that was set by its name is found by it. -/
theorem find?_setName_self (r : Record) (name : String) (v : Value) :
    (r.setName name v).find? name = some v := Assignment.lookup_put_self name v r.assigned

/-- Setting a value by its name leaves those of other names as they are. -/
theorem find?_setName_of_ne (r : Record) {name other : String} (h : other ≠ name) (v : Value) :
    (r.setName name v).find? other = r.find? other :=
  Assignment.lookup_put_of_ne h v r.assigned

end Record

end PartitionPruning
