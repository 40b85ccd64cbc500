import PartitionPruning.Partition.Spec
import PartitionPruning.Proofs.Schema.Metadata
import PartitionPruning.Proofs.Transform.Names

/-!
# Partition specs survive as metadata

A spec is written and read back as a schema is. Its transforms are written as their names, so only a
transform that was read from a name can be read back.

* **`PartitionSpec.writtenIf_toJson`** — which specs have a document,
* **`PartitionSpec.ofJson_of_toJson`** — a spec is read back from its document,
* **`PartitionSpec.readable_of_toJson`** — and its document is read back from its text,
* **`metadata_roundTrip`** — schemas and specs are read back from their texts.
-/

namespace PartitionPruning

open Outcome (Succeeds map_eq_ok bind_eq_ok mapM_eq_ok)

/-- A partition field with a transform that was read from a name and no number that is too long to be
read. -/
structure PartitionField.Readable (f : PartitionField) : Prop where
  sourceId : Numeral.Readable f.sourceId.natAbs
  fieldId : Numeral.Readable f.fieldId.natAbs
  transform : ∃ name, Transform.parse name = .ok f.transform

/-- A spec with transforms that were read from names and no number that is too long to be read. -/
structure PartitionSpec.Readable (s : PartitionSpec) : Prop where
  version : Numeral.Readable s.specId.natAbs
  fields : ∀ f ∈ s.fields, f.Readable

/-! ## Writing -/

/-- **A transform that was read** from a name is written as its name. -/
theorem Transform.toJson_of_parse {name : String} {t : Transform} (h : parse name = .ok t) :
    t.toJson = .ok (.string t.render) := by
  rw [toJson, write_of_parse h]
  rfl

theorem PartitionField.writtenIf_toJson (f : PartitionField) :
    WrittenIf (∀ n ∈ f.transform.numbers, Numeral.Readable n) f.toJson :=
  ((WrittenIf.write f.transform.numbers f.transform.render).map Json.string).map _

/-- **A spec is written** exactly if no number in its transforms is too long. -/
theorem PartitionSpec.writtenIf_toJson (s : PartitionSpec) :
    WrittenIf (∀ f ∈ s.fields, ∀ n ∈ f.transform.numbers, Numeral.Readable n) s.toJson :=
  (WrittenIf.mapM fun f _ => f.writtenIf_toJson).map _

/-! ## Documents -/

/-- A partition field is read back from its document. -/
theorem PartitionField.ofJson_of_toJson {f : PartitionField} {j : Json} (h : f.Readable)
    (hwritten : f.toJson = .ok j) : PartitionField.ofJson j = .ok f := by
  obtain ⟨name, hname⟩ := h.transform
  have htransform := Transform.parse_render hname
  rw [toJson, Transform.toJson_of_parse hname] at hwritten
  obtain rfl := Except.ok.inj hwritten
  obtain ⟨sourceId, fieldId, transform, name⟩ := f
  simp only at htransform
  simp [ofJson, Json.Member.unreserved, Json.Member.find?, Json.Member.reservedKey, idOfMembers,
    transformOfMembers, Transform.ofJson, htransform, Fault.required, Json.integer?, Json.text?,
    Except.mapError]

theorem PartitionSpec.fieldsOfJson_of_mapM {fields : List PartitionField} {documents : List Json}
    (hwritten : fields.mapM PartitionField.toJson = .ok documents)
    (h : ∀ f ∈ fields, f.Readable) : fieldsOfJson documents = .ok fields := by
  induction mapM_eq_ok.mp hwritten with
  | nil => rfl
  | cons hdocument hrest ih =>
    rw [List.forall_mem_cons] at h
    rw [fieldsOfJson, PartitionField.ofJson_of_toJson h.1 hdocument,
      ih (mapM_eq_ok.mpr hrest) h.2]
    rfl

/-- **A spec is read back** from its document. -/
theorem PartitionSpec.ofJson_of_toJson {s : PartitionSpec} {j : Json} (h : s.Readable)
    (hwritten : s.toJson = .ok j) : PartitionSpec.ofJson j = .ok s := by
  obtain ⟨specId, fields⟩ := s
  obtain ⟨documents, hdocuments, hj⟩ := bind_eq_ok.mp hwritten
  obtain rfl := Except.ok.inj hj
  have hfields := fieldsOfJson_of_mapM hdocuments h.fields
  simp [ofJson, Json.Member.unreserved, Json.Member.find?, Json.Member.reservedKey,
    Json.Member.either?, hfields, Fault.required, Json.integer?]

/-- **The document of a spec** is read back from its text. -/
theorem PartitionSpec.readable_of_toJson {s : PartitionSpec} {j : Json} (h : s.Readable)
    (hwritten : s.toJson = .ok j) : j.Readable := by
  obtain ⟨documents, hdocuments, hj⟩ := bind_eq_ok.mp hwritten
  obtain rfl := Except.ok.inj hj
  refine .object (by simp) ?_
  simp only [List.forall_mem_cons]
  refine ⟨.int h.version, .array fun j hj => ?_, by simp⟩
  obtain ⟨f, hf, hdocument⟩ := Outcome.exists_of_mem_result hdocuments hj
  obtain ⟨name, hname⟩ := (h.fields f hf).transform
  rw [PartitionField.toJson, Transform.toJson_of_parse hname] at hdocument
  obtain rfl := Except.ok.inj hdocument
  refine .object (by simp) ?_
  simp only [List.forall_mem_cons]
  exact ⟨.int (h.fields f hf).sourceId, .int (h.fields f hf).fieldId, .string _, .string f.name,
    by simp⟩

/-- What can be read back can be written. -/
theorem PartitionSpec.Readable.succeeds_toJson {s : PartitionSpec} (h : s.Readable) :
    Succeeds s.toJson := by
  refine s.writtenIf_toJson.succeeds fun f hf => ?_
  obtain ⟨name, hname⟩ := (h.fields f hf).transform
  exact (Transform.named_of_parse hname).readable_numbers

/-! ## Texts -/

/-- **Schemas and specs are read back** from their texts, and transforms from their names, as long as no
number is too long to be read. A schema with a length, a precision or a scale that is too long has no
text. -/
theorem metadata_roundTrip :
    (∀ s : Schema, s.Readable → ∃ document, s.toJson = .ok document ∧
        (Json.parse? document.render).map Schema.ofJson = some (.ok s)) ∧
      (∀ s : Schema, ¬ s.asStruct.Writable → s.toJson = .error .numeralTooLong) ∧
      (∀ s : PartitionSpec, s.Readable → ∃ document, s.toJson = .ok document ∧
        (Json.parse? document.render).map PartitionSpec.ofJson = some (.ok s)) ∧
      ∀ name t, Transform.parse name = .ok t →
        t.write = .ok t.render ∧ Transform.parse t.render = .ok t := by
  refine ⟨fun s h => ?_, fun s h => s.writtenIf_toJson.eq_error h, fun s h => ?_,
    fun name t h => ⟨Transform.write_of_parse h, Transform.parse_render h⟩⟩
  · obtain ⟨document, hwritten⟩ := s.writtenIf_toJson.succeeds h.columns.writable
    refine ⟨document, hwritten, ?_⟩
    -- What could be written has no long number left, so its text can be parsed.
    rw [Json.parse?_render (Schema.readable_of_toJson h hwritten), Option.map_some,
      Schema.ofJson_of_toJson h hwritten]
  · obtain ⟨document, hwritten⟩ := h.succeeds_toJson
    refine ⟨document, hwritten, ?_⟩
    rw [Json.parse?_render (PartitionSpec.readable_of_toJson h hwritten), Option.map_some,
      PartitionSpec.ofJson_of_toJson h hwritten]

/-- A schema with a length of one digit too many. -/
def overlong : Schema :=
  Schema.ofFields [⟨1, "c", .primitive (.fixed (10 ^ Numeral.digitLimit)), false, none⟩]

theorem not_writable_overlong : ¬ overlong.asStruct.Writable := by
  intro h
  have hcolumn := DataType.writable_struct.mp h _ List.mem_cons_self
  have hlength := DataType.writable_primitive.mp hcolumn _ List.mem_cons_self
  exact Numeral.not_readable_of_le (Nat.le_refl _) hlength

/-- A nested schema with documentation, and a spec with a transform that is only known by its name. -/
theorem metadata_roundTrip_nested :
    let place : List Field := [⟨3, "lat", .primitive .double, true, none⟩,
      ⟨4, "say \x22hi\x22", .primitive (.fixed 16), false, some "line\nbreak"⟩]
    let schema : Schema := ⟨[⟨1, "price", .primitive (.decimal 9 2), true, some ""⟩,
      ⟨2, "place", .struct place, false, none⟩], -1, [1, -7]⟩
    let spec : PartitionSpec := ⟨3, [⟨1, 1000, .bucket 16, "price_bucket"⟩,
      ⟨3, 1001, .unknown "zorder", "lat_zorder"⟩]⟩
    (∃ document, schema.toJson = .ok document ∧
        (Json.parse? document.render).map Schema.ofJson = some (.ok schema)) ∧
      overlong.toJson = .error .numeralTooLong ∧
      (∃ document, spec.toJson = .ok document ∧
        (Json.parse? document.render).map PartitionSpec.ofJson = some (.ok spec)) ∧
      (Transform.unknown "zorder").write = .ok "zorder" ∧
      Transform.parse "zorder" = .ok (.unknown "zorder") := by
  obtain ⟨hschema, hlong, hspec, htransform⟩ := metadata_roundTrip
  refine ⟨hschema _ ⟨.struct (by decide) ?_, by decide, by decide⟩, hlong _ not_writable_overlong,
    hspec _ ⟨by decide, ?_⟩, htransform "zorder" _ rfl⟩
  · simp only [List.forall_mem_cons]
    -- Readability goes down the tree, struct by struct.
    refine ⟨.primitive (by decide), .struct (by decide) ?_, by simp⟩
    simp only [List.forall_mem_cons]
    exact ⟨.primitive (by decide), .primitive (by decide), by simp⟩
  · simp only [List.forall_mem_cons]
    exact ⟨⟨by decide, by decide, "bucket[16]", rfl⟩, ⟨by decide, by decide, "zorder", rfl⟩, by simp⟩

/-- **A length of too many digits** cannot be written, so that there is no text to read the schema back
from. -/
theorem metadata_of_long_number :
    overlong.toJson = .error .numeralTooLong ∧
      ¬ ∃ document, overlong.toJson = .ok document ∧
        (Json.parse? document.render).map Schema.ofJson = some (.ok overlong) := by
  have herror := overlong.writtenIf_toJson.eq_error not_writable_overlong
  refine ⟨herror, ?_⟩
  rintro ⟨document, hwritten, _⟩
  rw [herror] at hwritten
  cases hwritten

end PartitionPruning
