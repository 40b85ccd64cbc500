import PartitionPruning.DataType.Grammar
import PartitionPruning.Json.Display
import PartitionPruning.Json.Lenient

/-!
# Types as JSON

A primitive type is written as its name, a struct as an object that holds its fields, and a field as an
object of its id, name, type, whether it is required, and its documentation if there is any. A number in
a name is subject to the limit on numerals; a number that stands for itself, as an id does, is written
whatever its length.

When several parts of a document are defective, a name that breaks the form of a parametrised type
is reported before all other defects, and so is a part that cannot be made of what it is given.
-/

namespace PartitionPruning

namespace Fault

/-- A fault found while a document is read. Only those that end the reading keep their cause. -/
def inMetadata : Fault → Fault
  | bracketForm text pattern => bracketForm text pattern
  | decimalForm text => decimalForm text
  | wrongKind => wrongKind
  | _ => malformedMetadata

/-- Both results; of two faults the first one that is more than a defect of the document. -/
def both (a : Except Fault α) (b : Except Fault β) : Except Fault (α × β) :=
  match a, b with
  | .ok x, .ok y => .ok (x, y)
  | .error e, .ok _ => .error e
  | .ok _, .error e => .error e
  | .error e, .error f => .error (if e = malformedMetadata then f else e)

/-- A part of a document that has to be there. -/
def required (part : Option α) : Except Fault α :=
  match part with
  | some x => .ok x
  | none => .error malformedMetadata

end Fault

/-! ### Writing -/

/-- The name of a type without parts as it is written. -/
def Primitive.write (p : Primitive) : Except Fault String := Numeral.write p.numbers p.render

/-- The object that a struct is written as, of the documents of its fields. -/
def DataType.structJson (fields : List Json) : Json :=
  .object [⟨"type", .string "struct"⟩, ⟨"fields", .array fields⟩]

/-- The object that a field is written as, with the document of its type. -/
def Field.jsonOfType (f : Field) (type : Json) : Json :=
  .object ([⟨"id", .int f.id⟩, ⟨"name", .string f.name⟩, ⟨"type", type⟩,
    ⟨"required", .bool f.required⟩] ++
    match f.doc with
    | none => []
    | some text => [⟨"doc", .string text⟩])

mutual

/-- The document of a type. Something that is no type has an empty one. -/
def DataType.toJson : DataType → Except Fault Json
  | .primitive p => p.write.map .string
  | .struct fields => (Field.toJsonList fields).map DataType.structJson
  | .other .. => .ok (.object [])
termination_by structural t => t

def Field.toJson : Field → Except Fault Json
  | ⟨id, name, type, required, doc⟩ =>
    (DataType.toJson type).map (Field.jsonOfType ⟨id, name, type, required, doc⟩)
termination_by structural f => f

def Field.toJsonList : List Field → Except Fault (List Json)
  | [] => .ok []
  | f :: rest => do
    let document ← Field.toJson f
    pure (document :: (← Field.toJsonList rest))
termination_by structural fields => fields

end

/-- Only the type of a field may fail to be written. -/
theorem Field.toJson_eq (f : Field) : f.toJson = f.type.toJson.map f.jsonOfType := by
  obtain ⟨id, name, type, required, doc⟩ := f
  rw [Field.toJson]

/-- The documents of fields are written one by one. -/
theorem Field.toJsonList_eq_mapM (fields : List Field) :
    Field.toJsonList fields = fields.mapM Field.toJson := by
  induction fields with
  | nil => rfl
  | cons f rest ih => rw [Field.toJsonList, ih, List.mapM_cons]

/-! ### Reading -/

/-- The first of two keys that is there. -/
def Json.Member.either? (key other : String) (members : List Json.Member) : Option Json :=
  (find? key members).or (find? other members)

/-- The key that no object of metadata can have. -/
def Json.Member.reservedKey : String := "self"

/-- What is read from members, unless they have the reserved key. -/
def Json.Member.unreserved (members : List Json.Member) (read : Except Fault α) : Except Fault α :=
  match find? reservedKey members with
  | some _ => .error .wrongKind
  | none => read

def Json.Member.isStruct (members : List Json.Member) : Bool :=
  match find? "type" members with
  | some (.string kind) => kind = "struct"
  | _ => false

/-- The documentation of a field, which may be left out. -/
def Field.docOfJson : Option Json → Except Fault (Option String)
  | none => .ok none
  | some .null => .ok none
  | some j => (Fault.required j.text?).map some

/-- Whether a field is required, which is the rule. -/
def Field.requiredOfJson : Option Json → Except Fault Bool
  | none => .ok true
  | some j => Fault.required j.boolean?

/-- The type of a column from its document and what was read from it. An object of any other form
says nothing about the type. -/
def DataType.ofColumn : Json → DataType → Except Fault DataType
  | .object _, .other .. => .ok unspecified
  | _, .other .. => .error .malformedMetadata
  | _, t => .ok t

def Field.ofParts (members : List Json.Member) (type : Except Fault DataType) :
    Except Fault Field := Json.Member.unreserved members do
  let id := Fault.required ((Json.Member.either? "id" "field_id" members).bind Json.integer?)
  let name := Fault.required ((Json.Member.find? "name" members).bind Json.text?)
  let required := Field.requiredOfJson (Json.Member.find? "required" members)
  let doc := Field.docOfJson (Json.Member.find? "doc" members)
  let (id, name, type, required, doc) ←
    Fault.both id (Fault.both name (Fault.both type (Fault.both required doc)))
  pure ⟨id, name, type, required, doc⟩

mutual

/-- Reads a type from its document. A document of another form stands for itself. -/
def DataType.ofJson : Json → Except Fault DataType
  | .string name => DataType.parse name
  | .object members =>
    if Json.Member.isStruct members then
      Json.Member.unreserved members
        (match Field.listInMembers "fields" members with
          | none => .ok (.struct [])
          | some fields => fields.map .struct)
    else .ok (.other (Json.object members).inspect (Json.object members).inspect)
  | j => .ok (.other j.inspect j.inspect)
termination_by structural j => j

def Field.ofJson : Json → Except Fault Field
  | .object members =>
    Field.ofParts members
      (match DataType.inMembers "type" members with
        | some type => type
        | none => (DataType.inMembers "field_type" members).getD (.error .malformedMetadata))
  | _ => .error .malformedMetadata
termination_by structural j => j

def Field.ofJsonItems : List Json → Except Fault (List Field)
  | [] => .ok []
  | j :: rest => (Fault.both (Field.ofJson j) (Field.ofJsonItems rest)).map fun (f, fs) => f :: fs
termination_by structural items => items

def Field.listOfJson : Json → Except Fault (List Field)
  | .array items => Field.ofJsonItems items
  | _ => .error .malformedMetadata
termination_by structural j => j

/-- Reads the type that a key holds. -/
def DataType.inMembers (key : String) : List Json.Member → Option (Except Fault DataType)
  | [] => none
  | m :: rest => match DataType.inMember key m with
    | some type => some type
    | none => DataType.inMembers key rest
termination_by structural members => members

/-- Reads the type of one member if it has the key. A name that no type has is a defect of the
document. -/
def DataType.inMember (key : String) : Json.Member → Option (Except Fault DataType)
  | ⟨k, j⟩ =>
    if k = key then
      some (((DataType.ofJson j).mapError Fault.inMetadata).bind (DataType.ofColumn j))
    else none
termination_by structural m => m

/-- Reads the fields that a key holds. -/
def Field.listInMembers (key : String) : List Json.Member → Option (Except Fault (List Field))
  | [] => none
  | m :: rest => match Field.listInMember key m with
    | some fields => some fields
    | none => Field.listInMembers key rest
termination_by structural members => members

/-- Reads the fields of one member if it has the key. -/
def Field.listInMember (key : String) : Json.Member → Option (Except Fault (List Field))
  | ⟨k, j⟩ => if k = key then some (Field.listOfJson j) else none
termination_by structural m => m

end

/-- Reads a field from a document that has to be an object. -/
def Field.ofObject : Json → Except Fault Field
  | .object members => Field.ofJson (.object members)
  | _ => .error .wrongKind

end PartitionPruning
