import PartitionPruning.DataType.Metadata

/-!
# Table schemas

A schema is the row type of a table: its columns, a version number and the ids of the columns that
identify a row. Two versions with the same columns and identifying ids are the same schema.
-/

namespace PartitionPruning

/-- The columns of a table. -/
structure Schema where
  fields : List Field
  schemaId : Int
  identifierFieldIds : List Int
  deriving DecidableEq

namespace Schema

/-- The schema of some columns, in its first version. -/
def ofFields (fields : List Field) : Schema := ⟨fields, 0, []⟩

def asStruct (s : Schema) : DataType := .struct s.fields

/-- Whether two schemas agree in all but their version. -/
def sameAs (s t : Schema) : Bool :=
  s.fields = t.fields && s.identifierFieldIds = t.identifierFieldIds

/-- The text of a schema, with a line for each column. -/
def render (s : Schema) : String :=
  "table \x7b\n" ++ "\n".intercalate (s.fields.map fun f => "  " ++ f.render) ++ "\n\x7d"

def inspect (s : Schema) : String :=
  "Schema(" ++ ", ".intercalate (s.fields.map Field.inspect) ++ ", schema_id=" ++
    toString s.schemaId ++ ", identifier_field_ids=[" ++
    ", ".intercalate (s.identifierFieldIds.map toString) ++ "])"

/-- The document of a schema. -/
def toJson (s : Schema) : Except Fault Json := do
  let fields ← s.fields.mapM Field.toJson
  pure (.object [⟨"type", .string "struct"⟩, ⟨"fields", .array fields⟩,
    ⟨"schema-id", .int s.schemaId⟩,
    ⟨"identifier-field-ids", .array (s.identifierFieldIds.map .int)⟩])

def idsOfJson : Option Json → Except Fault (List Int)
  | none => .ok []
  | some (.array items) => Fault.required (items.mapM Json.integer?)
  | some _ => .error .malformedMetadata

/-- Reads the version of a schema, zero when it is left out. -/
def versionOfJson : Option Json → Except Fault Int
  | none => .ok 0
  | some j => Fault.required j.integer?

/-- Whether the type of a document may be that of a schema: it is left out or a struct. -/
def hasStructType (members : List Json.Member) : Bool :=
  match Json.Member.find? "type" members with
  | none => true
  | some _ => Json.Member.isStruct members

/-- Reads a schema from its document. -/
def ofJson : Json → Except Fault Schema
  | .object members => Json.Member.unreserved members do
    let fields := match Json.Member.find? "fields" members with
      | none => .ok []
      | some j => Field.listOfJson j
    let version := versionOfJson (Json.Member.either? "schema-id" "schema_id" members)
    let ids := idsOfJson
      (Json.Member.either? "identifier-field-ids" "identifier_field_ids" members)
    let (fields, version, ids) ← Fault.both fields (Fault.both version ids)
    if hasStructType members then pure ⟨fields, version, ids⟩ else throw .malformedMetadata
  | _ => .error .wrongKind

/-- A schema is the same as itself. -/
theorem sameAs_refl (s : Schema) : s.sameAs s = true := by simp [sameAs]

/-- It does not matter which of two schemas is compared with the other. -/
theorem sameAs_symm (s t : Schema) : s.sameAs t = t.sameAs s := by
  simp [sameAs, eq_comm]

end Schema

end PartitionPruning
