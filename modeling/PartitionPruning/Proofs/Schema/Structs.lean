import PartitionPruning.Filter.Bind
import PartitionPruning.Proofs.Schema.Positions

/-!
# Structs and their accessors

The values of a row are read from fields that hold no other fields. Those are the primitive ones, but a
struct is known only by the accessors inside it, so that a struct without fields passes for a field to be
read as well. Any other struct has no accessor, at whatever depth, and no predicate on it binds; on a
struct without fields those bind that have no literal.

* **`Schema.accessorFor_by_fields`** — which ids have an accessor, and which predicates on structs bind.
* **`Schema.accessorFor_of_no_fields`** — the struct without fields that is read.
-/

namespace PartitionPruning

open Outcome (Succeeds)

namespace Schema

variable {s : Schema}

/-- An id has no accessor if no field that is read has it. -/
theorem accessorFor_eq_error (hknown : s.asStruct.unknown? = none) {id : Int}
    (h : ∀ f ∈ s.asStruct.allFields, f.id = id → f.isRead = false) :
    s.accessorFor id = .error (.noAccessor (toString id)) := by
  have hnone : lookupLast? id s.asStruct.accessors = none := by
    refine lookupLast?_eq_none fun hmem => ?_
    rw [ids_accessors] at hmem
    obtain ⟨f, hf, hid⟩ := List.mem_map.mp hmem
    obtain ⟨hf, hread⟩ := List.mem_filter.mp hf
    rw [h f hf hid] at hread
    exact Bool.noConfusion hread
  rw [accessorFor_eq hknown, hnone]

/-- The id of a field that is read has an accessor. -/
theorem succeeds_accessorFor (hknown : s.asStruct.unknown? = none) {f : Field}
    (hf : f ∈ s.asStruct.allFields) (hread : f.isRead = true) : Succeeds (s.accessorFor f.id) := by
  rw [accessorFor_eq hknown]
  cases hlook : lookupLast? f.id s.asStruct.accessors with
  | some a => exact ⟨a, rfl⟩
  | none =>
    refine absurd ?_ (not_mem_of_lookupLast? hlook)
    rw [ids_accessors]
    exact List.mem_map_of_mem (List.mem_filter.mpr ⟨hf, hread⟩)

/-- What is found by a name is a field at some depth. -/
theorem mem_of_fieldWithName {name : String} {caseSensitive : Bool} {f : Field}
    (h : s.fieldWithName name caseSensitive = .ok f) : f ∈ s.asStruct.allFields := by
  obtain ⟨names, -, h⟩ := Outcome.bind_eq_ok.mp h
  split at h
  · exact (mem_of_fieldWithId h).1
  · simp at h

end Schema

/-! ## Predicates on structs -/

/-- No literal is converted to a struct. -/
theorem Literal.not_succeeds_convert_struct (l : Literal) (fields : List Field) :
    ¬ Succeeds (l.convert (.struct fields)) := by
  cases l <;> simp [Literal.convert, Literal.convertLong, Literal.convertText]

/-- A predicate on a column that is a struct binds if there is no literal in it. -/
theorem Predicate.succeeds_bindTo_struct {c : Column} {fields : List Field} {p : Predicate String}
    (hc : c.field.type = .struct fields) : Succeeds (p.bindTo c) ↔ p.literals = [] := by
  cases p with
  | unary op name => exact iff_of_true ⟨_, rfl⟩ rfl
  | compare op name l =>
    rw [bindTo, hc, Outcome.succeeds_map]
    exact iff_of_false (l.not_succeeds_convert_struct fields) (List.cons_ne_nil l [])
  | member op name ls =>
    cases ls with
    | nil => exact iff_of_true ⟨_, rfl⟩ rfl
    | cons l ls =>
      refine iff_of_false (fun hbound => ?_) (List.cons_ne_nil l ls)
      rw [bindTo, hc, Outcome.succeeds_bind] at hbound
      obtain ⟨converted, hconverted, -⟩ := hbound
      exact l.not_succeeds_convert_struct fields
        (Outcome.succeeds_mapM.mp ⟨converted, hconverted⟩ l List.mem_cons_self)

namespace Schema

variable {s : Schema}

/-- **Which ids have an accessor.** In a schema of known types in which no id repeats, an id that is
unknown or the id of a struct with fields has none, and no predicate on such a struct binds. The id of any
other field has one, so that a predicate binds on a struct without fields if there is no literal in it. -/
theorem accessorFor_by_fields (hknown : s.asStruct.unknown? = none) (hids : s.HasDistinctIds) :
    (∀ id, (∀ path f, s.Reached path f → f.id = id → f.type.fields ≠ []) →
        s.accessorFor id = .error (.noAccessor (toString id))) ∧
      (∀ path f, s.Reached path f → f.type.fields = [] → Succeeds (s.accessorFor f.id)) ∧
      ∀ caseSensitive (p : Predicate String) f inner,
        s.fieldWithName p.term caseSensitive = .ok f → f.type = .struct inner →
        (inner ≠ [] → p.bind s caseSensitive = .error (.noAccessor (toString f.id))) ∧
        (inner = [] → (Succeeds (p.bind s caseSensitive) ↔ p.literals = [])) := by
  have hread (f : Field) : f.isRead = false ↔ f.type.fields ≠ [] := by
    rw [← Bool.not_eq_true, Field.isRead_iff]
  refine ⟨fun id h => ?noAccessor, fun path f hf h => ?accessor,
    fun caseSensitive p f inner hf htype => ⟨fun hinner => ?unbound, fun hinner => ?bound⟩⟩
  case noAccessor =>
    refine accessorFor_eq_error hknown fun f hf hid => (hread f).mpr ?_
    obtain ⟨path, hreached⟩ := exists_reached_of_mem hf
    exact h path f hreached hid
  case accessor => exact succeeds_accessorFor hknown (mem_allFields hf) (Field.isRead_iff.mpr h)
  case unbound =>
    -- the struct is the only field with its id
    have hnone : s.accessorFor f.id = .error (.noAccessor (toString f.id)) := by
      refine accessorFor_eq_error hknown fun g hg hid => ?_
      obtain rfl := List.inj_on_of_nodup_map hids hg (mem_of_fieldWithName hf) hid
      exact (hread g).mpr (by rw [htype]; exact hinner)
    rw [Predicate.bind, column, hf, Outcome.ok_bind, hnone]
    rfl
  case bound =>
    have hnothing : f.type.fields = [] := by rw [htype]; exact hinner
    obtain ⟨a, ha⟩ :=
      succeeds_accessorFor hknown (mem_of_fieldWithName hf) (Field.isRead_iff.mpr hnothing)
    have hcolumn : s.column caseSensitive p.term = .ok ⟨f, a⟩ := by
      rw [column, hf, Outcome.ok_bind, ha]
      rfl
    rw [Predicate.bind, hcolumn, Outcome.ok_bind]
    exact Predicate.succeeds_bindTo_struct htype

/-- A struct without fields inside a struct. -/
theorem accessorFor_by_fields_nested :
    let inner : Field := ⟨2, "t", .struct [], false, none⟩
    let outer : Field := ⟨1, "s", .struct [inner], false, none⟩
    let schema := Schema.ofFields [outer]
    schema.asStruct.unknown? = none ∧ schema.HasDistinctIds ∧
      (∀ path f, schema.Reached path f → f.id = 1 → f.type.fields ≠ []) ∧
      schema.accessorFor 1 = .error (.noAccessor "1") ∧
      schema.Reached ["s", "t"] inner ∧ Succeeds (schema.accessorFor 2) ∧
      schema.fieldWithName "s" true = .ok outer ∧
      (Predicate.unary .isNull "s").bind schema true = .error (.noAccessor "1") := by
  intro inner outer schema
  have hids : schema.HasDistinctIds := by decide
  have hreached : schema.Reached ["s", "t"] inner :=
    .inside (f := outer) (List.mem_singleton.mpr rfl) rfl (.here (List.mem_singleton.mpr rfl))
  -- Of the two fields only the outer one has this id, and it has a field inside.
  have hfields : ∀ path f, schema.Reached path f → f.id = 1 → f.type.fields ≠ [] := by
    intro path f hf hid
    have hmem : f ∈ [inner, outer] := mem_allFields hf
    obtain rfl | rfl : f = inner ∨ f = outer := by simpa using hmem
    · exact absurd hid (by decide)
    · exact List.cons_ne_nil _ _
  have hname : schema.fieldWithName "s" true = .ok outer := rfl
  obtain ⟨hnone, hsome, hpredicates⟩ := accessorFor_by_fields (s := schema) rfl hids
  exact ⟨rfl, hids, hfields, hnone 1 hfields, hreached, hsome _ _ hreached rfl, hname,
    (hpredicates true (.unary .isNull "s") outer [inner] hname rfl).1 (List.cons_ne_nil _ _)⟩

/-- **A struct without fields** has an accessor, and a test of it binds. -/
theorem accessorFor_of_no_fields :
    let column : Field := ⟨1, "s", .struct [], false, none⟩
    let schema := Schema.ofFields [column]
    schema.asStruct.unknown? = none ∧ schema.HasDistinctIds ∧ schema.Reached ["s"] column ∧
      column.type.isStruct = true ∧ schema.accessorFor column.id = .ok ⟨0, []⟩ ∧
      (Predicate.unary .isNull "s").bind schema true =
        .ok (.leaf (.unary .isNull ⟨column, ⟨0, []⟩⟩)) := by
  intro column schema
  exact ⟨rfl, by decide, .here (List.mem_singleton.mpr rfl), rfl, rfl, rfl⟩

end Schema

end PartitionPruning
