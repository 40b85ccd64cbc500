import PartitionPruning.Proofs.Schema.Lookup
import PartitionPruning.Proofs.Value.Domain

/-!
# Reading rows

The accessors of a schema belong to its columns one by one, and what an accessor reads from a row of
the schema is a value of its column or a null. The positions of an accessor lead from struct to struct;
where one of them is null, so is what is read.

How much of a row is checked is left open: `DataType.fits` asks for values that belong to primitive
types in some sense, of which `Primitive.holds` is the strictest and `Primitive.admits` a weaker one.

* **`accessors_read`** — the accessors of a type read the fields that have one.
* **`Schema.get_of_column`** — the column that a name leads to is read as a null or as what belongs to
  its type, also when ids repeat.
* **`Schema.get_of_accessorFor`** — the same for an id, when ids do not repeat.
-/

namespace PartitionPruning

/-! ## Rows of some kind -/

section

variable (q : Primitive → Value → Bool)

mutual

/-- Whether a value fits a type, where `q` tells what belongs to the primitive types. -/
def DataType.fits : DataType → Value → Bool
  | .primitive p, v => q p v
  | .struct fields, .record values => Field.fitsAll fields values
  | .struct _, _ => false
  | .other .., _ => false
termination_by structural t => t

/-- Whether a value that fits its type, or an allowed null, stands in a field. -/
def Field.fits : Field → Value → Bool
  | ⟨_, _, type, required, _⟩, v => (v.isNull && !required) || DataType.fits type v
termination_by structural f => f

/-- Whether there is one value for each field of a struct, which fits it. -/
def Field.fitsAll : List Field → List Value → Bool
  | [], [] => true
  | f :: fields, v :: values => Field.fits f v && Field.fitsAll fields values
  | _, _ => false
termination_by structural fields => fields

end

end

mutual

/-- Belonging to a type is fitting it in the strictest sense. -/
theorem DataType.fits_holds : ∀ (t : DataType) (v : Value), t.fits Primitive.holds v = t.holds v
  | .primitive _, _ => rfl
  | .struct fields, v => by
    cases v with
    | record values => exact Field.fitsAll_holds fields values
    | _ => rfl
  | .other .., _ => rfl

theorem Field.fits_holds : ∀ (f : Field) (v : Value), f.fits Primitive.holds v = f.holds v
  | ⟨_, _, type, _, _⟩, v => by rw [Field.fits, Field.holds, DataType.fits_holds type v]

theorem Field.fitsAll_holds : ∀ (fields : List Field) (values : List Value),
    Field.fitsAll Primitive.holds fields values = Field.holdsAll fields values
  | [], [] => rfl
  | [], _ :: _ => rfl
  | _ :: _, [] => rfl
  | f :: fields, v :: values => by
    rw [Field.fitsAll, Field.holdsAll, Field.fits_holds f v, Field.fitsAll_holds fields values]

end

mutual

theorem DataType.fits_mono {q q' : Primitive → Value → Bool}
    (hq : ∀ p v, q p v = true → q' p v = true) :
    ∀ (t : DataType) (v : Value), t.fits q v = true → t.fits q' v = true
  | .primitive p, v, h => hq p v h
  | .struct fields, v, h => by
    cases v with
    | record values => exact Field.fitsAll_mono hq fields values h
    | _ => simp [DataType.fits] at h
  | .other .., v, h => by simp [DataType.fits] at h

theorem Field.fits_mono {q q' : Primitive → Value → Bool}
    (hq : ∀ p v, q p v = true → q' p v = true) :
    ∀ (f : Field) (v : Value), f.fits q v = true → f.fits q' v = true
  | ⟨_, _, type, _, _⟩, v, h => by
    simp only [Field.fits, Bool.or_eq_true] at h ⊢
    exact h.imp_right (DataType.fits_mono hq type v)

theorem Field.fitsAll_mono {q q' : Primitive → Value → Bool}
    (hq : ∀ p v, q p v = true → q' p v = true) :
    ∀ (fields : List Field) (values : List Value),
      Field.fitsAll q fields values = true → Field.fitsAll q' fields values = true
  | [], [], _ => rfl
  | [], _ :: _, h => by simp [Field.fitsAll] at h
  | _ :: _, [], h => by simp [Field.fitsAll] at h
  | f :: fields, v :: values, h => by
    simp only [Field.fitsAll, Bool.and_eq_true] at h ⊢
    exact ⟨Field.fits_mono hq f v h.1, Field.fitsAll_mono hq fields values h.2⟩

end

/-- Whether a value is a row of a schema up to the sizes of its values: each is of the kind of its
column, or a null where the column allows one. -/
def Schema.admits (s : Schema) (row : Value) : Bool := s.asStruct.fits Primitive.admits row

theorem Schema.admits_of_holds {s : Schema} {row : Value} (h : s.holds row = true) :
    s.admits row = true := by
  refine DataType.fits_mono (q := Primitive.holds) (fun p v hv => ?_) s.asStruct row ?_
  · exact (Bool.and_eq_true_iff.mp hv).1
  · rw [DataType.fits_holds]
    exact h

variable {q : Primitive → Value → Bool}

theorem Field.fits_cases {f : Field} {v : Value} (h : f.fits q v = true) :
    v.isNull = true ∨ f.type.fits q v = true := by
  obtain ⟨id, name, type, required, doc⟩ := f
  simp only [Field.fits, Bool.or_eq_true, Bool.and_eq_true] at h
  exact h.imp_left And.left

theorem DataType.record_of_fits {fields : List Field} {v : Value}
    (h : (DataType.struct fields).fits q v = true) :
    ∃ values, v = .record values ∧ Field.fitsAll q fields values = true := by
  cases v with
  | record values => exact ⟨values, rfl, h⟩
  | _ => simp [DataType.fits] at h

/-- The values from a position on are one for the first field and those for the others. -/
theorem Field.fitsAll_drop {f : Field} {rest : List Field} {position : Nat} {values : List Value}
    (h : Field.fitsAll q (f :: rest) (values.drop position) = true) :
    ∃ w, values[position]? = some w ∧ f.fits q w = true ∧
      Field.fitsAll q rest (values.drop (position + 1)) = true := by
  -- A row that fits has a value for every field, so it cannot end here.
  cases hdrop : values.drop position with
  | nil =>
    rw [hdrop] at h
    simp [Field.fitsAll] at h
  | cons w ws =>
    rw [hdrop] at h
    simp only [Field.fitsAll, Bool.and_eq_true] at h
    have hw : values[position]? = some w := by
      rw [← List.head?_drop, hdrop]
      rfl
    have hws : values.drop (position + 1) = ws := by
      rw [← List.drop_drop, hdrop]
      rfl
    exact ⟨w, hw, h.1, hws ▸ h.2⟩

/-- There is a value for each field, which fits it. -/
theorem Field.fits_of_fitsAll {fields : List Field} {values : List Value} {i : Nat} {f : Field}
    (h : Field.fitsAll q fields values = true) (hf : fields[i]? = some f) :
    ∃ v, values[i]? = some v ∧ f.fits q v = true := by
  -- Fields and values are gone through together.
  induction fields generalizing values i with
  | nil => simp at hf
  | cons g rest ih =>
    cases values with
    | nil => simp [Field.fitsAll] at h
    | cons v values =>
      obtain ⟨hfirst, hrest⟩ := Bool.and_eq_true_iff.mp h
      cases i with
      | zero =>
        obtain rfl : g = f := by simpa using hf
        exact ⟨v, rfl, hfirst⟩
      | succ i =>
        obtain ⟨w, hw, hfits⟩ := ih (i := i) hrest (by simpa using hf)
        exact ⟨w, by simpa using hw, hfits⟩

/-! ## Accessors -/

namespace Accessor

/-- Whether an accessor reads from a value a null or what fits the type of a field. -/
def Reads (q : Primitive → Value → Bool) (a : Accessor) (v : Value) (f : Field) : Prop :=
  ∃ w, a.get v = .ok w ∧ (w.isNull = true ∨ f.type.fits q w = true)

/-- An accessor inside a struct reads what the struct at the position holds. -/
theorem get_inside {a : Accessor} {position : Nat} {values : List Value} {w : Value}
    (h : values[position]? = some w) :
    (a.inside position).get (.record values) = if w.isNull then .ok .null else a.get w := by
  simp only [inside, get, Value.at, Value.element, h, Outcome.ok_bind, path, follow]

theorem reads_at {position : Nat} {values : List Value} {w : Value} {f : Field}
    (hw : values[position]? = some w) (h : f.fits q w = true) :
    Reads q ⟨position, []⟩ (.record values) f :=
  ⟨w, by simp [get, Value.at, Value.element, hw, follow], Field.fits_cases h⟩

/-- What is inside a null is null. -/
theorem reads_inside {a : Accessor} {position : Nat} {values : List Value} {w : Value} {f g : Field}
    (hw : values[position]? = some w) (h : f.fits q w = true)
    (hreads : f.type.fits q w = true → a.Reads q w g) :
    (a.inside position).Reads q (.record values) g := by
  rw [Reads, get_inside hw]
  cases hnull : w.isNull with
  | true => exact ⟨.null, rfl, Or.inl rfl⟩
  | false =>
    have hfits : f.type.fits q w = true := (Field.fits_cases h).resolve_left (by simp [hnull])
    exact hreads hfits

end Accessor

/-- Whether the values of a field are read from rows. Those of a struct are not, but for a struct that
holds nothing else to read. -/
def Field.isRead (f : Field) : Bool := f.type.accessors.isEmpty

mutual

/-- **Accessors read fields.** The accessors of a type and the fields that are read belong together one
by one: their ids agree, and an accessor reads its field from every value that fits the type. Induction
over types, fields and lists of fields. -/
theorem DataType.accessors_read : ∀ (t : DataType),
    List.Forall₂ (fun e g => e.1 = g.id ∧ ∀ q v, t.fits q v = true → e.2.Reads q v g)
      t.accessors (t.allFields.filter Field.isRead)
  | .primitive _ => .nil
  | .struct fields => by
    refine (Field.accessorsFrom_read fields 0).imp fun e g ⟨hid, hreads⟩ => ⟨hid, fun q v hv => ?_⟩
    obtain ⟨values, rfl, hvalues⟩ := DataType.record_of_fits hv
    exact hreads q values (by simpa using hvalues)
  | .other .. => .nil

theorem Field.accessorsAt_read : ∀ (f : Field) (position : Nat),
    List.Forall₂ (fun e g => e.1 = g.id ∧ ∀ q values w, values[position]? = some w →
        f.fits q w = true → e.2.Reads q (.record values) g)
      (f.accessorsAt position) (f.allInside.filter Field.isRead)
  | ⟨id, name, type, required, doc⟩, position => by
    have inner := DataType.accessors_read type
    rw [Field.accessorsAt, Field.allInside, List.filter_append]
    cases hfound : type.accessors with
    | nil =>
      -- nothing inside is read: the field is read itself
      rw [hfound, List.forall₂_nil_left_iff] at inner
      have hself : Field.isRead ⟨id, name, type, required, doc⟩ = true := by
        simp [Field.isRead, hfound]
      rw [inner, List.nil_append, List.filter_cons_of_pos hself, List.filter_nil]
      exact .cons ⟨rfl, fun q values w => Accessor.reads_at⟩ .nil
    | cons e rest =>
      have hself : Field.isRead ⟨id, name, type, required, doc⟩ = false := by
        simp [Field.isRead, hfound]
      rw [List.filter_cons_of_neg (by simp [hself]), List.filter_nil, List.append_nil]
      rw [hfound] at inner
      refine List.forall₂_map_left_iff.mpr (inner.imp fun e g ⟨hid, hreads⟩ => ⟨hid, ?_⟩)
      exact fun q values w hw hfits => Accessor.reads_inside hw hfits (hreads q w)

theorem Field.accessorsFrom_read : ∀ (fields : List Field) (position : Nat),
    List.Forall₂ (fun e g => e.1 = g.id ∧ ∀ q values,
        Field.fitsAll q fields (values.drop position) = true → e.2.Reads q (.record values) g)
      (Field.accessorsFrom position fields) ((Field.allInList fields).filter Field.isRead)
  | [], _ => .nil
  | f :: rest, position => by
    rw [Field.accessorsFrom, Field.allInList, List.filter_append]
    -- The first field's accessors come first in both lists, each at its own position.
    refine List.rel_append ((Field.accessorsAt_read f position).imp ?first)
      ((Field.accessorsFrom_read rest (position + 1)).imp ?others)
    case first =>
      refine fun e g ⟨hid, hreads⟩ => ⟨hid, fun q values hvalues => ?_⟩
      obtain ⟨w, hw, hfits, _⟩ := Field.fitsAll_drop hvalues
      exact hreads q values w hw hfits
    case others =>
      refine fun e g ⟨hid, hreads⟩ => ⟨hid, fun q values hvalues => ?_⟩
      obtain ⟨_, _, _, hfits⟩ := Field.fitsAll_drop hvalues
      exact hreads q values hfits

end

/-! ## Columns -/

namespace Schema

/-- **The field of an accessor.** The accessor of an id reads the last field that has the id, of those
that are read. -/
theorem exists_field_of_accessorFor {s : Schema} {id : Int} {a : Accessor}
    (h : s.accessorFor id = .ok a) :
    ∃ g, lookupLast? id ((s.asStruct.allFields.filter Field.isRead).map fun g => (g.id, g)) = some g ∧
      ∀ q row, s.asStruct.fits q row = true → a.Reads q row g := by
  have hrel := lookupLast?_rel
    (R := fun (a : Accessor) g => ∀ q row, s.asStruct.fits q row = true → a.Reads q row g)
    s.asStruct.accessors_read id
  rw [accessorFor_inv h] at hrel
  cases hlook : lookupLast? id
      ((s.asStruct.allFields.filter Field.isRead).map fun g => (g.id, g)) with
  | none =>
    rw [hlook] at hrel
    cases hrel
  | some g =>
    rw [hlook] at hrel
    exact ⟨g, rfl, Option.rel_some_some.mp hrel⟩

/-- **Reading a column by its name.** A column is read as something, and one of a primitive type as a
null or as what belongs to the type. Another field of the same id may have been found for a struct. -/
theorem get_of_column {s : Schema} {caseSensitive : Bool} {name : String} {c : Column} {row : Value}
    (hc : s.column caseSensitive name = .ok c) (hrow : s.asStruct.fits q row = true) :
    ∃ v, c.accessor.get row = .ok v ∧
      ∀ p, c.field.type = .primitive p → v.isNull = true ∨ q p v = true := by
  obtain ⟨hfield, haccessor⟩ := column_inv hc
  obtain ⟨g, hg, hreads⟩ := exists_field_of_accessorFor haccessor
  obtain ⟨v, hv, hcases⟩ := hreads q row hrow
  refine ⟨v, hv, fun p hp => ?_⟩
  -- a primitive field is read, so that it is the last one with the id among the fields that are
  have hread : c.field.isRead = true := by
    rw [Field.isRead, hp]
    rfl
  have hlast := lookupLast?_filter (fieldWithId_inv hfield).2 hread
  obtain rfl : g = c.field := Option.some.inj (hg.symm.trans hlast)
  rw [hp] at hcases
  exact hcases

/-- Whether no two fields of a schema have the same id, at any depth. -/
def HasDistinctIds (s : Schema) : Prop := (s.asStruct.allFields.map Field.id).Nodup

instance (s : Schema) : Decidable s.HasDistinctIds := inferInstanceAs (Decidable (List.Nodup _))

/-- **Reading a column.** In a schema with distinct ids the column of an id is read as a null or as a
value of its type. -/
theorem get_of_accessorFor {s : Schema} {id : Int} {f : Field} {a : Accessor} {row : Value}
    (hids : s.HasDistinctIds) (hrow : s.holds row = true)
    (hf : s.fieldWithId (.number id) = .ok f) (ha : s.accessorFor id = .ok a) :
    ∃ v, a.get row = .ok v ∧ (v.isNull = true ∨ f.type.holds v = true) := by
  obtain ⟨g, hg, hreads⟩ := exists_field_of_accessorFor ha
  obtain ⟨hmem, hfid⟩ := mem_of_fieldWithId hf
  obtain ⟨g', hg', heq⟩ := List.mem_map.mp (mem_of_lookupLast? hg)
  obtain ⟨hid, rfl⟩ := Prod.mk.inj heq
  obtain rfl : g' = f :=
    List.inj_on_of_nodup_map hids (List.mem_filter.mp hg').1 hmem (hid.trans hfid.symm)
  obtain ⟨v, hv, hcases⟩ := hreads Primitive.holds row (by rwa [DataType.fits_holds])
  rw [DataType.fits_holds] at hcases
  exact ⟨v, hv, hcases⟩

end Schema

end PartitionPruning
