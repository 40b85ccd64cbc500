import PartitionPruning.Proofs.DataType.Names
import PartitionPruning.Proofs.Json.RoundTrip
import PartitionPruning.Proofs.Outcome
import PartitionPruning.Schema.Basic

/-!
# Schemas survive as metadata

A schema is written as a document, and the document as a text. What is read back from the text is the
same schema, as long as no number in it is too long to be read. A type with a number that is too long is
not even written, for its name is a text that the number stands in.

* **`DataType.writtenIf_toJson`** — which types have a document,
* **`Schema.writtenIf_toJson`** — and which schemas,
* **`DataType.ofJson_of_toJson`** — a type is read back from its document, whatever it nests,
* **`Schema.ofJson_of_toJson`** — a schema is read back from its document,
* **`Schema.readable_of_toJson`** — and its document is read back from its text.
-/

namespace PartitionPruning

open Outcome (Succeeds succeeds_ok succeeds_map map_eq_ok bind_eq_ok mapM_eq_ok)

/-! ## Writing under a condition -/

/-- Whether something is written under a condition, and fails for a number that is too long without
it. -/
def WrittenIf {α : Type} (condition : Prop) (x : Except Fault α) : Prop :=
  (condition ∧ Succeeds x) ∨ (¬ condition ∧ x = .error .numeralTooLong)

namespace WrittenIf

variable {α β : Type} {condition : Prop} {x : Except Fault α}

theorem succeeds (h : WrittenIf condition x) (hcondition : condition) : Succeeds x :=
  h.elim And.right fun ⟨hnot, _⟩ => absurd hcondition hnot

theorem eq_error (h : WrittenIf condition x) (hcondition : ¬ condition) :
    x = .error .numeralTooLong :=
  h.elim (fun ⟨hyes, _⟩ => absurd hyes hcondition) And.right

/-- A text is written if no number in it is too long. -/
theorem write (numbers : List Nat) (text : String) :
    WrittenIf (∀ n ∈ numbers, Numeral.Readable n) (Numeral.write numbers text) := by
  rw [Numeral.write]
  split
  · rename_i h
    exact .inl ⟨h, succeeds_ok text⟩
  · rename_i h
    exact .inr ⟨h, rfl⟩

protected theorem map (h : WrittenIf condition x) (f : α → β) : WrittenIf condition (x.map f) := by
  rcases h with ⟨hyes, h⟩ | ⟨hno, rfl⟩
  · exact .inl ⟨hyes, succeeds_map.mpr h⟩
  · exact .inr ⟨hno, rfl⟩

/-- Two things are written one after the other, if both of them can be. -/
theorem cons {other : Prop} {xs : Except Fault (List α)} (h : WrittenIf condition x)
    (hs : WrittenIf other xs) :
    WrittenIf (condition ∧ other) (x >>= fun a => xs >>= fun as => pure (a :: as)) := by
  rcases h with ⟨hyes, a, rfl⟩ | ⟨hno, rfl⟩
  · rcases hs with ⟨hyes', as, rfl⟩ | ⟨hno, rfl⟩
    · exact .inl ⟨⟨hyes, hyes'⟩, a :: as, rfl⟩
    · exact .inr ⟨fun h => hno h.2, rfl⟩
  · exact .inr ⟨fun h => hno h.1, rfl⟩

/-- **A list is written** if all its elements can be. -/
theorem mapM {condition : α → Prop} {f : α → Except Fault β} {xs : List α}
    (h : ∀ x ∈ xs, WrittenIf (condition x) (f x)) :
    WrittenIf (∀ x ∈ xs, condition x) (xs.mapM f) := by
  induction xs with
  | nil => exact .inl ⟨List.forall_mem_nil _, succeeds_ok []⟩
  | cons x xs ih =>
    rw [List.forall_mem_cons] at h
    rw [List.mapM_cons, List.forall_mem_cons]
    exact h.1.cons (ih h.2)

end WrittenIf

/-! ## What can be written and read -/

/-- A type in which no length, precision or scale is too long. -/
inductive DataType.Writable : DataType → Prop
  | primitive {p : Primitive} (h : p.Readable) : Writable (.primitive p)
  | struct {fields : List Field} (h : ∀ f ∈ fields, f.type.Writable) : Writable (.struct fields)
  | other (shown made : String) : Writable (.other shown made)

/-- A type of primitive types and structs, with no number that is too long to be read. -/
inductive DataType.Readable : DataType → Prop
  | primitive {p : Primitive} (h : p.Readable) : Readable (.primitive p)
  | struct {fields : List Field} (ids : ∀ f ∈ fields, Numeral.Readable f.id.natAbs)
      (h : ∀ f ∈ fields, f.type.Readable) : Readable (.struct fields)

/-- A schema with no number that is too long to be read. -/
structure Schema.Readable (s : Schema) : Prop where
  columns : s.asStruct.Readable
  version : Numeral.Readable s.schemaId.natAbs
  identifiers : ∀ id ∈ s.identifierFieldIds, Numeral.Readable id.natAbs

/-- What can be read back can be written. -/
theorem DataType.Readable.writable {t : DataType} (h : t.Readable) : t.Writable := by
  induction h with
  | primitive h => exact .primitive h
  | struct _ _ ih => exact .struct ih

theorem DataType.writable_primitive {p : Primitive} :
    (DataType.primitive p).Writable ↔ p.Readable :=
  ⟨fun | .primitive h => h, .primitive⟩

theorem DataType.writable_struct {fields : List Field} :
    (DataType.struct fields).Writable ↔ ∀ f ∈ fields, f.type.Writable :=
  ⟨fun | .struct h => h, .struct⟩

/-! ## Writing -/

mutual

/-- **A type is written** exactly if no length, precision or scale in it is too long. Induction on the
type, with its fields. -/
theorem DataType.writtenIf_toJson : (t : DataType) → WrittenIf t.Writable t.toJson
  | .primitive p => by
    rw [DataType.toJson, DataType.writable_primitive]
    exact (WrittenIf.write p.numbers p.render).map _
  | .struct fields => by
    rw [DataType.toJson, DataType.writable_struct]
    exact (Field.writtenIf_toJsonList fields).map _
  | .other shown made => .inl ⟨.other shown made, succeeds_ok _⟩
termination_by structural t => t

theorem Field.writtenIf_toJson : (f : Field) → WrittenIf f.type.Writable f.toJson
  | ⟨_, _, type, _, _⟩ => by
    rw [Field.toJson]
    exact (DataType.writtenIf_toJson type).map _
termination_by structural f => f

theorem Field.writtenIf_toJsonList : (fields : List Field) →
    WrittenIf (∀ f ∈ fields, f.type.Writable) (Field.toJsonList fields)
  | [] => .inl ⟨List.forall_mem_nil _, succeeds_ok []⟩
  | f :: rest => by
    rw [Field.toJsonList, List.forall_mem_cons]
    exact (Field.writtenIf_toJson f).cons (Field.writtenIf_toJsonList rest)
termination_by structural fields => fields

end

/-- **A schema is written** exactly if its types are. -/
theorem Schema.writtenIf_toJson (s : Schema) : WrittenIf s.asStruct.Writable s.toJson := by
  rw [Schema.asStruct, DataType.writable_struct]
  exact (WrittenIf.mapM fun f _ => f.writtenIf_toJson).map _

/-! ## Documents of types -/

@[simp] theorem Fault.both_ok {α β : Type} (x : α) (y : β) :
    both (.ok x) (.ok y) = .ok (x, y) := rfl

theorem DataType.Readable.ofColumn {t : DataType} (h : t.Readable) (j : Json) :
    DataType.ofColumn j t = .ok t := by
  cases h <;> cases j <;> rfl

/-- A field is read back if its type is. -/
theorem Field.ofJson_jsonOfType {f : Field} {type : Json} (h : f.type.Readable)
    (htype : DataType.ofJson type = .ok f.type) : Field.ofJson (f.jsonOfType type) = .ok f := by
  obtain ⟨id, name, t, required, doc⟩ := f
  have hcolumn := h.ofColumn type
  simp only at htype hcolumn
  cases doc <;>
    simp [Field.jsonOfType, Field.ofJson, Field.ofParts, DataType.inMembers, DataType.inMember,
      htype, hcolumn, Json.Member.unreserved, Json.Member.find?, Json.Member.reservedKey,
      Json.Member.either?, Field.docOfJson, Field.requiredOfJson, Fault.required, Json.integer?,
      Json.text?, Json.boolean?, Except.mapError, Except.bind, Except.map]

/-- Fields are read back if each of them is. -/
theorem Field.ofJsonItems_of_forall₂ {fields : List Field} {documents : List Json}
    (h : List.Forall₂ (fun f j => Field.ofJson j = .ok f) fields documents) :
    Field.ofJsonItems documents = .ok fields := by
  induction h with
  | nil => rfl
  | cons hfield _ ih =>
    rw [Field.ofJsonItems, hfield, ih]
    rfl

/-- Fields are read back if their types are. -/
theorem Field.ofJsonItems_of_mapM {fields : List Field} {documents : List Json}
    (hwritten : fields.mapM Field.toJson = .ok documents) (h : ∀ f ∈ fields, f.type.Readable)
    (htypes : ∀ f ∈ fields, ∀ j, f.type.toJson = .ok j → DataType.ofJson j = .ok f.type) :
    Field.ofJsonItems documents = .ok fields := by
  refine Field.ofJsonItems_of_forall₂ ?_
  induction mapM_eq_ok.mp hwritten with
  | nil => exact .nil
  | @cons f document rest documents hdocument hrest ih =>
    rw [List.forall_mem_cons] at h htypes
    obtain ⟨type, htype, rfl⟩ := map_eq_ok.mp (f.toJson_eq.symm.trans hdocument)
    exact .cons (Field.ofJson_jsonOfType h.1 (htypes.1 type htype))
      (ih (mapM_eq_ok.mpr hrest) h.2 htypes.2)

/-- **A type is read back** from its document, whatever it nests. -/
theorem DataType.ofJson_of_toJson {t : DataType} {j : Json} (h : t.Readable)
    (hwritten : t.toJson = .ok j) : DataType.ofJson j = .ok t := by
  induction h generalizing j with
  | @primitive p h =>
    rw [DataType.toJson, Primitive.write_eq, if_pos h] at hwritten
    obtain rfl := Except.ok.inj hwritten
    rw [DataType.ofJson, DataType.parse_render, if_pos h]
  | @struct fields ids h ih =>
    rw [DataType.toJson, Field.toJsonList_eq_mapM] at hwritten
    obtain ⟨documents, hdocuments, rfl⟩ := map_eq_ok.mp hwritten
    have hfields := Field.ofJsonItems_of_mapM hdocuments h fun f hf j hj => ih f hf hj
    simp [DataType.structJson, DataType.ofJson, Json.Member.isStruct, Json.Member.unreserved,
      Json.Member.find?, Json.Member.reservedKey, Field.listInMembers, Field.listInMember,
      Field.listOfJson, hfields, Except.map]

theorem Schema.idsOfJson_map_int (ids : List Int) :
    idsOfJson (some (.array (ids.map .int))) = .ok ids := by
  have hids : (ids.map Json.int).mapM Json.integer? = some ids := by
    induction ids with
    | nil => rfl
    | cons id rest ih =>
      rw [List.map_cons, List.mapM_cons, ih]
      rfl
  rw [idsOfJson, hids, Fault.required]

/-- **A schema is read back** from its document. -/
theorem Schema.ofJson_of_toJson {s : Schema} {j : Json} (h : s.Readable)
    (hwritten : s.toJson = .ok j) : Schema.ofJson j = .ok s := by
  obtain ⟨fields, version, ids⟩ := s
  obtain ⟨documents, hdocuments, hj⟩ := bind_eq_ok.mp hwritten
  obtain rfl := Except.ok.inj hj
  obtain ⟨_, htypes⟩ : (∀ f ∈ fields, Numeral.Readable f.id.natAbs) ∧
      ∀ f ∈ fields, f.type.Readable := by
    cases h.columns with
    | struct ids htypes => exact ⟨ids, htypes⟩
  have hfields : Field.listOfJson (.array documents) = .ok fields := by
    rw [Field.listOfJson]
    exact Field.ofJsonItems_of_mapM hdocuments htypes fun f hf j hj =>
      DataType.ofJson_of_toJson (htypes f hf) hj
  simp [Schema.ofJson, Json.Member.unreserved, Json.Member.find?, Json.Member.reservedKey,
    Json.Member.either?, Json.Member.isStruct, versionOfJson, idsOfJson_map_int, hasStructType,
    hfields, Fault.required, Json.integer?]

/-! ## Texts of documents -/

/-- The document of a field is read back from its text if that of its type is. -/
theorem Field.readable_jsonOfType {f : Field} {type : Json} (hid : Numeral.Readable f.id.natAbs)
    (h : type.Readable) : (f.jsonOfType type).Readable := by
  obtain ⟨id, name, t, required, doc⟩ := f
  cases doc with
  | none =>
    refine .object (by simp) ?_
    simp only [List.append_nil, List.forall_mem_cons]
    exact ⟨.int hid, .string name, h, .bool required, by simp⟩
  | some text =>
    refine .object (by simp) ?_
    simp only [List.cons_append, List.nil_append, List.forall_mem_cons]
    exact ⟨.int hid, .string name, h, .bool required, .string text, by simp⟩

/-- The documents of fields are read back from their texts if those of their types are. -/
theorem Field.readable_of_mapM {fields : List Field} {documents : List Json}
    (hwritten : fields.mapM Field.toJson = .ok documents)
    (ids : ∀ f ∈ fields, Numeral.Readable f.id.natAbs)
    (htypes : ∀ f ∈ fields, ∀ j, f.type.toJson = .ok j → j.Readable) :
    ∀ j ∈ documents, j.Readable := by
  intro j hj
  obtain ⟨f, hf, hdocument⟩ := Outcome.exists_of_mem_result hwritten hj
  obtain ⟨type, htype, rfl⟩ := map_eq_ok.mp (f.toJson_eq.symm.trans hdocument)
  exact Field.readable_jsonOfType (ids f hf) (htypes f hf type htype)

theorem DataType.readable_of_toJson {t : DataType} {j : Json} (h : t.Readable)
    (hwritten : t.toJson = .ok j) : j.Readable := by
  induction h generalizing j with
  | @primitive p h =>
    rw [DataType.toJson] at hwritten
    obtain ⟨name, _, rfl⟩ := map_eq_ok.mp hwritten
    exact .string name
  | @struct fields ids h ih =>
    rw [DataType.toJson, Field.toJsonList_eq_mapM] at hwritten
    obtain ⟨documents, hdocuments, rfl⟩ := map_eq_ok.mp hwritten
    refine .object (by simp) ?_
    simp only [List.forall_mem_cons]
    exact ⟨.string _,
      .array (Field.readable_of_mapM hdocuments ids fun f hf j hj => ih f hf hj), by simp⟩

/-- **The document of a schema** is read back from its text. -/
theorem Schema.readable_of_toJson {s : Schema} {j : Json} (h : s.Readable)
    (hwritten : s.toJson = .ok j) : j.Readable := by
  obtain ⟨documents, hdocuments, hj⟩ := bind_eq_ok.mp hwritten
  obtain rfl := Except.ok.inj hj
  have hcolumns := h.columns
  cases hcolumns with
  | struct ids hfields =>
    refine .object (by simp) ?_
    simp only [List.forall_mem_cons]
    refine ⟨.string _, .array (Field.readable_of_mapM hdocuments ids fun f hf j hj =>
        DataType.readable_of_toJson (hfields f hf) hj),
      .int h.version, .array fun j hj => ?_, by simp⟩
    obtain ⟨id, hid, rfl⟩ := List.mem_map.mp hj
    exact .int (h.identifiers id hid)

end PartitionPruning
