import PartitionPruning.Schema.Index
import PartitionPruning.Transform.Basic

/-!
# Partition specs

A table is partitioned by a list of partition fields, each of which derives a value from one column.
Several fields may be derived from the same column. A table whose spec has no fields is not
partitioned.

The partition type is the struct of the derived values. They are optional, for a transform gives null
for null. The values of a transform that is only known by its name are carried as texts.
-/

namespace PartitionPruning

/-- How one partition value is derived. -/
structure PartitionField where
  sourceId : Int
  fieldId : Int
  transform : Transform
  name : String
  deriving DecidableEq, Repr

/-- The partition fields of a table and their version. -/
structure PartitionSpec where
  specId : Int
  fields : List PartitionField
  deriving DecidableEq, Repr

namespace PartitionField

/-- The text of a partition field. -/
def render (f : PartitionField) : String :=
  toString f.fieldId ++ ": " ++ f.name ++ ": " ++ f.transform.render ++ "(" ++ toString f.sourceId ++
    ")"

/-- How a partition field is made. -/
def inspect (f : PartitionField) : String :=
  "PartitionField(source_id=" ++ toString f.sourceId ++ ", field_id=" ++ toString f.fieldId ++
    ", transform=" ++ f.transform.inspect ++ ", name=" ++ Text.quote f.name ++ ")"

/-- Whether two partition fields agree, with transforms of the same name. -/
def sameAs (f g : PartitionField) : Bool :=
  f.sourceId = g.sourceId && f.fieldId = g.fieldId && f.transform.same g.transform &&
    f.name = g.name

/-- The field of the partition type, for the type of the column that the values are derived from. -/
def resultField (f : PartitionField) (source : DataType) : Except Fault Field :=
  match f.transform with
  | .unknown _ => .ok ⟨f.fieldId, f.name, f.transform.resultType source, false, none⟩
  | _ =>
    if f.transform.canTransform source then
      .ok ⟨f.fieldId, f.name, f.transform.resultType source, false, none⟩
    else .error (.transformMismatch f.transform.render source f.render)

/-- The document of a partition field. -/
def toJson (f : PartitionField) : Except Fault Json := do
  let transform ← f.transform.toJson
  pure (.object [⟨"source-id", .int f.sourceId⟩, ⟨"field-id", .int f.fieldId⟩,
    ⟨"transform", transform⟩, ⟨"name", .string f.name⟩])

/-- The id that one of two keys holds. The second key counts unless it is null. -/
def idOfMembers (key preferred : String) (members : List Json.Member) : Except Fault Int :=
  let found := match Json.Member.find? preferred members with
    | none | some .null => Json.Member.find? key members
    | some j => some j
  Fault.required (found.bind Json.integer?)

/-- Reads a transform that has to be there. -/
def transformOfMembers (members : List Json.Member) : Except Fault Transform := do
  Transform.ofJson (← Fault.required (Json.Member.find? "transform" members))

/-- Reads a partition field from its document. -/
def ofJson : Json → Except Fault PartitionField
  | .object members => Json.Member.unreserved members do
    let sourceId := idOfMembers "source-id" "source_id" members
    let fieldId := idOfMembers "field-id" "field_id" members
    let transform := transformOfMembers members
    let name := Fault.required ((Json.Member.find? "name" members).bind Json.text?)
    let (sourceId, fieldId, transform, name) ←
      Fault.both sourceId (Fault.both fieldId (Fault.both transform name))
    pure ⟨sourceId, fieldId, transform, name⟩
  | _ => .error .malformedMetadata

/-- A partition field is the same as itself. -/
theorem sameAs_refl (f : PartitionField) : f.sameAs f = true := by
  simp [sameAs, Transform.same_refl]

end PartitionField

namespace PartitionSpec

/-- Whether the table is not partitioned. -/
def isUnpartitioned (s : PartitionSpec) : Bool := s.fields.isEmpty

/-- The partition fields that are derived from a column, in the order of the spec. -/
def fieldsOfSource (s : PartitionSpec) (sourceId : Int) : List PartitionField :=
  s.fields.filter (·.sourceId = sourceId)

/-- Whether two specs agree in their versions and field by field. -/
def sameAs (s t : PartitionSpec) : Bool :=
  s.specId = t.specId && s.fields.length = t.fields.length &&
    (s.fields.zip t.fields).all fun (f, g) => f.sameAs g

/-- The field of the partition type that belongs to a partition field. -/
def resultField (schema : Schema) (f : PartitionField) : Except Fault Field := do
  f.resultField (← schema.findType (.id (.number f.sourceId)) true)

/-- The fields of the partition type, one for each partition field. -/
def resultFields (s : PartitionSpec) (schema : Schema) : Except Fault (List Field) :=
  s.fields.mapM (resultField schema)

def partitionType (s : PartitionSpec) (schema : Schema) : Except Fault DataType :=
  (s.resultFields schema).map .struct

/-- The text of a spec, with a line for each partition field. -/
def render (s : PartitionSpec) : String :=
  match s.fields with
  | [] => "[]"
  | fields => "[\n  " ++ "\n  ".intercalate (fields.map PartitionField.render) ++ "\n]"

def inspect (s : PartitionSpec) : String :=
  "PartitionSpec(" ++ String.join (s.fields.map fun f => f.inspect ++ ", ") ++ "spec_id=" ++
    toString s.specId ++ ")"

/-- The document of a spec. -/
def toJson (s : PartitionSpec) : Except Fault Json := do
  let fields ← s.fields.mapM PartitionField.toJson
  pure (.object [⟨"spec-id", .int s.specId⟩, ⟨"fields", .array fields⟩])

def fieldsOfJson : List Json → Except Fault (List PartitionField)
  | [] => .ok []
  | j :: rest => (Fault.both (PartitionField.ofJson j) (fieldsOfJson rest)).map fun (f, fs) => f :: fs

/-- Reads a spec from its document. Its version is zero when it is left out. -/
def ofJson : Json → Except Fault PartitionSpec
  | .object members => Json.Member.unreserved members do
    let specId := match Json.Member.either? "spec-id" "spec_id" members with
      | none => .ok 0
      | some j => Fault.required j.integer?
    let fields := match Json.Member.find? "fields" members with
      | none => .ok []
      | some (.array items) => fieldsOfJson items
      | some _ => .error .malformedMetadata
    let (specId, fields) ← Fault.both specId fields
    pure ⟨specId, fields⟩
  | _ => .error .wrongKind

/-- A spec is the same as itself. -/
theorem sameAs_refl (s : PartitionSpec) : s.sameAs s = true := by
  obtain ⟨id, fields⟩ := s
  have h : (fields.zip fields).all (fun (f, g) => f.sameAs g) = true := by
    induction fields with
    | nil => rfl
    | cons f rest ih => simp [PartitionField.sameAs_refl, ih]
  simp [sameAs, h]

end PartitionSpec

end PartitionPruning
