import PartitionPruning.Json.Key
import PartitionPruning.Schema.Basic
import PartitionPruning.Text.Case
import PartitionPruning.Value.Basic

/-!
# Finding columns

A column at any depth is found by its id or by its full name, the names of the structs around it and
its own joined by points. Full names must not repeat; when ids repeat, the last field counts, where
the fields of a struct come before the struct itself.

An accessor tells at which positions a value is read from a row. Structs are not values of a row, but
a struct without fields has an accessor nevertheless.

Nothing is found in a schema with a column whose type is not known.
-/

namespace PartitionPruning

/-! ### Unknown types -/

mutual

/-- The text of the first part of a type that is not known. -/
def DataType.unknown? : DataType → Option String
  | .primitive _ => none
  | .struct fields => Field.unknownInList? fields
  | .other shown _ => some shown
termination_by structural t => t

/-- The text of the first part of the type of a field that is not known. -/
def Field.unknown? : Field → Option String
  | ⟨_, _, type, _, _⟩ => DataType.unknown? type
termination_by structural f => f

/-- The text of the first part of the types of a list that is not known. -/
def Field.unknownInList? : List Field → Option String
  | [] => none
  | f :: rest => (Field.unknown? f).or (Field.unknownInList? rest)
termination_by structural fields => fields

end

/-- What a type holds, if all of its parts are known. -/
def DataType.visited (t : DataType) (found : α) : Except Fault α :=
  match t.unknown? with
  | some shown => .error (.notAType shown)
  | none => .ok found

/-! ### Fields at any depth -/

mutual

/-- The fields inside a type, each behind the fields inside it. -/
def DataType.allFields : DataType → List Field
  | .primitive _ => []
  | .struct fields => Field.allInList fields
  | .other .. => []
termination_by structural t => t

/-- The fields inside a field and the field itself. -/
def Field.allInside : Field → List Field
  | ⟨id, name, type, required, doc⟩ => DataType.allFields type ++ [⟨id, name, type, required, doc⟩]
termination_by structural f => f

def Field.allInList : List Field → List Field
  | [] => []
  | f :: rest => Field.allInside f ++ Field.allInList rest
termination_by structural fields => fields

end

mutual

/-- The full names and ids of the fields inside a type, below a path of names, with a fault for each
part that is not known. -/
def DataType.namesBelow (path : List String) : DataType → List (Except Fault (String × Int))
  | .primitive _ => []
  | .struct fields => Field.namesOfList path fields
  | .other shown _ => [.error (.notAType shown)]
termination_by structural t => t

/-- The full names and ids of a field and of the fields inside it. -/
def Field.namesOf (path : List String) : Field → List (Except Fault (String × Int))
  | ⟨id, name, type, _, _⟩ =>
    DataType.namesBelow (path ++ [name]) type ++ [.ok (".".intercalate (path ++ [name]), id)]
termination_by structural f => f

/-- The full names and ids of the fields of a list. -/
def Field.namesOfList (path : List String) : List Field → List (Except Fault (String × Int))
  | [] => []
  | f :: rest => Field.namesOf path f ++ Field.namesOfList path rest
termination_by structural fields => fields

end

/-! ### Accessors -/

/-- The positions at which a value is read: the first in the row, each further one in the struct that
was found at the position before. -/
structure Accessor where
  position : Nat
  inner : List Nat
  deriving DecidableEq, Repr

namespace Accessor

/-- The positions from the outside in. -/
def path (a : Accessor) : List Nat := a.position :: a.inner

/-- The accessor of what another accessor finds inside the struct at a position. -/
def inside (position : Nat) (a : Accessor) : Accessor := ⟨position, a.path⟩

/-- The text of the accessor at some positions. -/
def renderPath : List Nat → String
  | [] => "None"
  | p :: rest => "Accessor(position=" ++ toString p ++ ",inner=" ++ renderPath rest ++ ")"

def render (a : Accessor) : String := renderPath a.path

/-- Reads positions one after the other. A null struct has null children. -/
def follow (v : Value) : List Nat → Except Fault Value
  | [] => .ok v
  | p :: rest => if v.isNull then .ok .null else do follow (← v.at p) rest

/-- Reads the value from a row. -/
def get (a : Accessor) (row : Value) : Except Fault Value := do follow (← row.at a.position) a.inner

/-- All fields of a null are null, at any depth. -/
theorem follow_null (path : List Nat) : follow .null path = .ok .null := by
  cases path <;> rfl

end Accessor

mutual

/-- The ids and accessors of the values inside a type. -/
def DataType.accessors : DataType → List (Int × Accessor)
  | .primitive _ => []
  | .struct fields => Field.accessorsFrom 0 fields
  | .other .. => []
termination_by structural t => t

/-- The ids and accessors of a field at a position: those inside it, or its own if there are none. -/
def Field.accessorsAt (position : Nat) : Field → List (Int × Accessor)
  | ⟨id, _, type, _, _⟩ => match DataType.accessors type with
    | [] => [(id, ⟨position, []⟩)]
    | found => found.map fun (i, a) => (i, a.inside position)
termination_by structural f => f

/-- The ids and accessors of fields from a position on. -/
def Field.accessorsFrom (position : Nat) : List Field → List (Int × Accessor)
  | [] => []
  | f :: rest => Field.accessorsAt position f ++ Field.accessorsFrom (position + 1) rest
termination_by structural fields => fields

end

/-! ### Lookup -/

def lookupLast? [BEq κ] (key : κ) : List (κ × α) → Option α
  | [] => none
  | (k, a) :: rest => (lookupLast? key rest).or (if k == key then some a else none)

/-- The entries without those that a later one of the same key replaces. -/
def lastEntries [BEq κ] : List (κ × α) → List (κ × α)
  | [] => []
  | (k, a) :: rest => if rest.any (·.1 == k) then lastEntries rest else (k, a) :: lastEntries rest

/-- The names with one more, which must not be among them yet. -/
def addName (names : List (String × Int)) (entry : Except Fault (String × Int)) :
    Except Fault (List (String × Int)) := do
  let (name, id) ← entry
  match names.lookup name with
  | some first => throw (.repeatedName name first id)
  | none => pure (names ++ [(name, id)])

namespace Schema

/-- The fields at any depth with their ids. -/
def fieldsById (s : Schema) : Except Fault (List (Int × Field)) :=
  s.asStruct.visited (s.asStruct.allFields.map fun f => (f.id, f))

/-- The full names of the fields at any depth with their ids. -/
def idsByName (s : Schema) : Except Fault (List (String × Int)) :=
  (s.asStruct.namesBelow []).foldlM addName []

/-- The accessors of the values of a row with their ids. -/
def accessors (s : Schema) : Except Fault (List (Int × Accessor)) :=
  s.asStruct.visited s.asStruct.accessors

def fieldWithId (s : Schema) (id : Whole) : Except Fault Field := do
  match lookupLast? id.toInt (← s.fieldsById) with
  | some f => pure f
  | none => throw (.noFieldWithId id)

/-- The id of a full name. When case is ignored and several names agree, the last one counts. -/
def idOfName? (names : List (String × Int)) (name : String) (caseSensitive : Bool) : Option Int :=
  if caseSensitive then names.lookup name
  else lookupLast? (Text.toLower name) (names.map fun (n, id) => (Text.toLower n, id))

def fieldWithName (s : Schema) (name : String) (caseSensitive : Bool) : Except Fault Field := do
  match idOfName? (← s.idsByName) name caseSensitive with
  | some id => s.fieldWithId (.number id)
  | none => .error (.noFieldWithName name caseSensitive)

/-- A column is asked for by its id or by its full name. No other document asks for one. -/
inductive Key where
  | id (n : Whole)
  | name (s : String)
  | other (j : Json)

def Key.ofJson : Json → Key
  | .int n => .id (.number n)
  | .bool b => .id (.flag b)
  | .string s => .name s
  | j => .other j

/-- Why a document that is neither an id nor a name finds no field. -/
def otherFault (j : Json) (caseSensitive : Bool) : Fault :=
  if ¬caseSensitive then .lacksProperty
  else if j.isKey then .noFieldWithName j.shown caseSensitive
  else .notHashable

def findField (s : Schema) (key : Key) (caseSensitive : Bool) : Except Fault Field :=
  match key with
  | .id n => s.fieldWithId n
  | .name n => s.fieldWithName n caseSensitive
  | .other j => s.idsByName.bind fun _ => .error (otherFault j caseSensitive)

/-- The type of the field that is asked for. -/
def findType (s : Schema) (key : Key) (caseSensitive : Bool) : Except Fault DataType :=
  (s.findField key caseSensitive).map Field.type

/-- The full names with their ids, the other way round. -/
def namesById (s : Schema) : Except Fault (List (Int × String)) :=
  s.idsByName.map fun names => lastEntries (names.map fun (n, id) => (id, n))

def columnName (s : Schema) (id : Int) : Except Fault (Option String) :=
  s.namesById.map (lookupLast? id)

/-- The full name of the id that a document stands for. -/
def columnNameAt (s : Schema) (key : Json) : Except Fault (Option String) := do
  let names ← s.namesById
  pure ((← key.integerKey).bind fun id => lookupLast? id names)

/-- The accessor of the value with an id. -/
def accessorFor (s : Schema) (id : Int) : Except Fault Accessor := do
  match lookupLast? id (← s.accessors) with
  | some a => pure a
  | none => throw (.noAccessor (toString id))

/-- The accessor of the value with the id that a document stands for. -/
def accessorAt (s : Schema) (key : Json) : Except Fault Accessor := do
  let entries ← s.accessors
  match (← key.integerKey).bind fun id => lookupLast? id entries with
  | some a => pure a
  | none => throw (.noAccessor key.shown)

end Schema

end PartitionPruning
