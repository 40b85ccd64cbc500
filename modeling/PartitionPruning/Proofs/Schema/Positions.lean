import PartitionPruning.Proofs.Schema.Names
import PartitionPruning.Proofs.Value.Comparison

/-!
# Columns by their positions

A row nests records as a schema nests structs, so that a column is reached by positions: those of the
structs around it and its own. Its accessor is built from the inside out, and reads from the outside in.
It finds what stands at the positions, or a null if a struct on the way is null.

* **`Field.Placed.mem_accessorsFrom`** — the accessor of a field holds the positions that lead there,
* **`Field.Placed.nested`** — a row has something at the positions of a column unless a struct is null,
* **`Schema.get_placed`** — what the accessor of a column reads from a row.
-/

namespace PartitionPruning

/-! ## Positions -/

/-- Whether the positions of a path lead to a field: to one of some fields, or into the struct that one of
them is and on from there. -/
inductive Field.Placed : List Field → List Nat → Field → Prop
  | here {fields : List Field} {i : Nat} {f : Field} (h : fields[i]? = some f) : Placed fields [i] f
  | inside {fields inner : List Field} {i : Nat} {path : List Nat} {f g : Field}
      (h : fields[i]? = some f) (htype : f.type = .struct inner) (hg : Placed inner path g) :
      Placed fields (i :: path) g

theorem Field.Placed.ne_nil {fields : List Field} {path : List Nat} {f : Field}
    (h : Placed fields path f) : path ≠ [] := by
  cases h <;> exact List.cons_ne_nil _ _

namespace Value

/-- What stands at the positions of a path in nested records. -/
def nested? : List Nat → Value → Option Value
  | [], v => some v
  | i :: path, .record values => values[i]?.bind (nested? path)
  | _ :: _, _ => none

/-- Whether something on the way along the positions of a path is null. -/
def HasNullOn (v : Value) (path : List Nat) : Prop :=
  ∃ front, front <+: path ∧ front ≠ path ∧ v.nested? front = some .null

theorem nested?_cons_eq_some {i : Nat} {path : List Nat} {v w : Value} :
    v.nested? (i :: path) = some w ↔
      ∃ values u, v = .record values ∧ values[i]? = some u ∧ u.nested? path = some w := by
  cases v <;> simp [nested?, Option.bind_eq_some_iff]

theorem not_hasNullOn_nil (v : Value) : ¬ v.HasNullOn [] := by
  rintro ⟨front, hprefix, hne, -⟩
  exact hne (List.prefix_nil.mp hprefix)

theorem hasNullOn_null {path : List Nat} (h : path ≠ []) : null.HasNullOn path :=
  ⟨[], List.nil_prefix, h.symm, rfl⟩

/-- A record is no null, so the first null on the way is found from one of its values on. -/
theorem hasNullOn_cons_iff {i : Nat} {path : List Nat} {values : List Value} {v : Value}
    (hv : values[i]? = some v) : (record values).HasNullOn (i :: path) ↔ v.HasNullOn path := by
  constructor
  · rintro ⟨front, hprefix, hne, hnull⟩
    cases front with
    | nil => simp [nested?] at hnull
    | cons j front =>
      obtain ⟨rfl, htail⟩ := List.cons_prefix_cons.mp hprefix
      exact ⟨front, htail, by simpa using hne, by simpa [nested?, hv] using hnull⟩
  · rintro ⟨front, hprefix, hne, hnull⟩
    exact ⟨i :: front, (List.prefix_cons_inj i).mpr hprefix, by simpa using hne,
      nested?_cons_eq_some.mpr ⟨values, v, rfl, hv, hnull⟩⟩

end Value

/-- **Rows have what is placed.** What fits some fields has something at the positions of each field inside
them, or a null on the way. Induction on the path. -/
theorem Field.Placed.nested {q : Primitive → Value → Bool} {fields : List Field} {path : List Nat}
    {f : Field} {values : List Value} (h : Placed fields path f)
    (hvalues : Field.fitsAll q fields values = true) :
    (Value.record values).HasNullOn path ∨ ∃ v, (Value.record values).nested? path = some v := by
  induction h generalizing values with
  | here h =>
    obtain ⟨v, hv, -⟩ := Field.fits_of_fitsAll hvalues h
    exact Or.inr ⟨v, Value.nested?_cons_eq_some.mpr ⟨values, v, rfl, hv, rfl⟩⟩
  | @inside fields inner i path f g h htype hg ih =>
    obtain ⟨v, hv, hfits⟩ := Field.fits_of_fitsAll hvalues h
    rcases Field.fits_cases hfits with hnull | hstruct
    · -- the struct is null itself
      obtain rfl := Value.eq_null_of_isNull hnull
      exact Or.inl ((Value.hasNullOn_cons_iff hv).mpr (Value.hasNullOn_null hg.ne_nil))
    · rw [htype] at hstruct
      obtain ⟨inside, rfl, hinside⟩ := DataType.record_of_fits hstruct
      rcases ih hinside with hnull | ⟨w, hw⟩
      · exact Or.inl ((Value.hasNullOn_cons_iff hv).mpr hnull)
      · exact Or.inr ⟨w, Value.nested?_cons_eq_some.mpr ⟨values, _, rfl, hv, hw⟩⟩

/-! ## Accessors -/

namespace Accessor

/-- Positions are followed from what the first ones of them lead to. -/
theorem follow_nested {v w : Value} {front : List Nat} (h : v.nested? front = some w)
    (rest : List Nat) : follow v (front ++ rest) = follow w rest := by
  induction front generalizing v with
  | nil =>
    obtain rfl := Option.some.inj h
    rfl
  | cons i front ih =>
    obtain ⟨values, u, rfl, hu, hw⟩ := Value.nested?_cons_eq_some.mp h
    rw [List.cons_append, follow, if_neg (by simp [Value.isNull])]
    simp only [Value.at, Value.element, hu, Outcome.ok_bind]
    exact ih hw

theorem get_record (a : Accessor) (values : List Value) :
    a.get (.record values) = follow (.record values) a.path := rfl

theorem get_of_nested {a : Accessor} {values : List Value} {v : Value}
    (h : (Value.record values).nested? a.path = some v) : a.get (.record values) = .ok v := by
  have hfollow := follow_nested h []
  rw [List.append_nil] at hfollow
  rw [get_record, hfollow]
  rfl

theorem get_of_hasNullOn {a : Accessor} {values : List Value}
    (h : (Value.record values).HasNullOn a.path) : a.get (.record values) = .ok .null := by
  obtain ⟨front, ⟨rest, hrest⟩, -, hnull⟩ := h
  rw [get_record, ← hrest, follow_nested hnull, follow_null]

theorem path_inside (position : Nat) (a : Accessor) : (a.inside position).path = position :: a.path :=
  rfl

end Accessor

namespace Field

/-- The accessors of a field: its own if it is read, and otherwise those inside. -/
theorem accessorsAt_eq (position : Nat) (f : Field) :
    f.accessorsAt position =
      if f.isRead then [(f.id, ⟨position, []⟩)]
      else f.type.accessors.map fun e => (e.1, e.2.inside position) := by
  obtain ⟨id, name, type, required, doc⟩ := f
  rw [accessorsAt, isRead]
  cases type.accessors <;> rfl

theorem accessorsAt_ne_nil (position : Nat) (f : Field) : f.accessorsAt position ≠ [] := by
  rw [accessorsAt_eq]
  split
  · exact List.cons_ne_nil _ _
  · rename_i hread
    simpa [isRead] using hread

/-- **Fields that are read** are those without other fields inside. -/
theorem isRead_iff {f : Field} : f.isRead = true ↔ f.type.fields = [] := by
  obtain ⟨id, name, type, required, doc⟩ := f
  rw [isRead, List.isEmpty_iff]
  cases type with
  | primitive p => simp [DataType.accessors, DataType.fields]
  | struct fields =>
    cases fields with
    | nil => simp [DataType.accessors, accessorsFrom, DataType.fields]
    | cons f rest => simp [DataType.accessors, accessorsFrom, DataType.fields, accessorsAt_ne_nil]
  | other => simp [DataType.accessors, DataType.fields]

theorem mem_accessorsFrom {position i : Nat} {fields : List Field} {f : Field} {e : Int × Accessor}
    (hf : fields[i]? = some f) (he : e ∈ f.accessorsAt (position + i)) :
    e ∈ accessorsFrom position fields := by
  induction fields generalizing position i with
  | nil => simp at hf
  | cons g rest ih =>
    rw [accessorsFrom, List.mem_append]
    cases i with
    | zero =>
      obtain rfl : g = f := by simpa using hf
      exact Or.inl he
    | succ i => exact Or.inr (ih (by simpa using hf) (by rwa [Nat.add_right_comm]))

/-- **The accessor of a field** that is read holds the positions that lead there. Induction on the path:
an accessor inside a struct is the one of the struct put around it. -/
theorem Placed.mem_accessorsFrom {fields : List Field} {path : List Nat} {f : Field}
    (h : Placed fields path f) (hread : f.isRead = true) :
    ∃ a : Accessor, a.path = path ∧ (f.id, a) ∈ accessorsFrom 0 fields := by
  -- On the way down from the column's outermost struct.
  induction h with
  | @here fields i f h =>
    refine ⟨⟨i, []⟩, rfl, Field.mem_accessorsFrom h ?_⟩
    rw [accessorsAt_eq, if_pos hread, Nat.zero_add]
    exact List.mem_singleton.mpr rfl
  | @inside fields inner i path f g h htype _ ih =>
    obtain ⟨a, hpath, hmem⟩ := ih hread
    have hinside : (g.id, a) ∈ f.type.accessors := by
      rw [htype]
      exact hmem
    have hstruct : ¬ f.isRead = true := by
      rw [isRead, List.isEmpty_iff]
      exact List.ne_nil_of_mem hinside
    refine ⟨a.inside i, by rw [Accessor.path_inside, hpath], Field.mem_accessorsFrom h ?_⟩
    rw [accessorsAt_eq, if_neg hstruct, Nat.zero_add]
    exact List.mem_map.mpr ⟨(g.id, a), hinside, rfl⟩

end Field

/-! ## Reading columns -/

namespace Schema

variable {s : Schema}

/-- Whether the positions of a path lead to a column of a schema. -/
def Placed (s : Schema) (path : List Nat) (f : Field) : Prop := Field.Placed s.fields path f

theorem accessorFor_eq (hknown : s.asStruct.unknown? = none) (id : Int) :
    s.accessorFor id =
      match lookupLast? id s.asStruct.accessors with
      | some a => .ok a
      | none => .error (.noAccessor (toString id)) := by
  rw [accessorFor, accessors, DataType.visited, hknown]
  rfl

/-- The ids with an accessor are those of the fields that are read. -/
theorem ids_accessors : s.asStruct.accessors.map Prod.fst =
    (s.asStruct.allFields.filter Field.isRead).map Field.id := Field.ids_accessorsFrom 0 s.fields

theorem nodup_accessors (hids : s.HasDistinctIds) : (s.asStruct.accessors.map Prod.fst).Nodup := by
  rw [ids_accessors]
  exact hids.sublist (List.filter_sublist.map Field.id)

/-- **Accessors read the right values.** In a schema in which no id repeats, a primitive column has the
accessor of its positions. From a row it reads what stands there if no struct on the way is null, and a
null otherwise. What counts as a value of a primitive type is left open. The types are known: what is left
out are fields whose type is no data type at all, in whose schemas there are no accessors. -/
theorem get_placed {q : Primitive → Value → Bool} {path : List Nat} {f : Field} {p : Primitive}
    {row : Value} (hknown : s.asStruct.unknown? = none) (hids : s.HasDistinctIds)
    (hf : s.Placed path f) (hp : f.type = .primitive p) (hrow : s.asStruct.fits q row = true) :
    ∃ a, s.accessorFor f.id = .ok a ∧ a.path = path ∧
      (¬ row.HasNullOn path → ∃ v, row.nested? path = some v ∧ a.get row = .ok v) ∧
      (row.HasNullOn path → a.get row = .ok .null) := by
  have hread : f.isRead = true := Field.isRead_iff.mpr (by rw [hp]; rfl)
  obtain ⟨a, rfl, hmem⟩ := hf.mem_accessorsFrom hread
  obtain ⟨values, rfl, hvalues⟩ := DataType.record_of_fits hrow
  refine ⟨a, ?accessor, rfl, fun hnull => ?value, Accessor.get_of_hasNullOn⟩
  case accessor => rw [accessorFor_eq hknown, lookupLast?_of_mem (nodup_accessors hids) hmem]
  case value =>
    obtain ⟨v, hv⟩ := (hf.nested hvalues).resolve_left hnull
    exact ⟨v, hv, Accessor.get_of_nested hv⟩

/-- A column two structs deep, in a row that has it and in one with a null struct around it. -/
theorem get_placed_nested :
    let column : Field := ⟨4, "x", .primitive .int, true, none⟩
    let inner : Field := ⟨3, "t", .struct [column], false, none⟩
    let outer : Field := ⟨2, "s", .struct [inner], false, none⟩
    let schema := Schema.ofFields [⟨1, "a", .primitive .int, false, none⟩, outer]
    let full : Value := .record [.null, .record [.record [.int 7]]]
    let hollow : Value := .record [.int 5, .record [.null]]
    schema.asStruct.unknown? = none ∧ schema.HasDistinctIds ∧ schema.Placed [1, 0, 0] column ∧
      schema.asStruct.fits Primitive.holds full = true ∧ ¬ full.HasNullOn [1, 0, 0] ∧
      schema.asStruct.fits Primitive.holds hollow = true ∧ hollow.HasNullOn [1, 0, 0] ∧
      ∃ a, schema.accessorFor 4 = .ok a ∧ a.get full = .ok (.int 7) ∧ a.get hollow = .ok .null := by
  intro column inner outer schema full hollow
  have hids : schema.HasDistinctIds := by decide
  have hplaced : schema.Placed [1, 0, 0] column :=
    .inside (f := outer) rfl rfl (.inside (f := inner) rfl rfl (.here rfl))
  have hfull : schema.asStruct.fits Primitive.holds full = true := rfl
  have hhollow : schema.asStruct.fits Primitive.holds hollow = true := rfl
  -- The struct inside is null, one step before the column.
  have hnull : hollow.HasNullOn [1, 0, 0] := ⟨[1, 0], by decide, by decide, rfl⟩
  have hno : ¬ full.HasNullOn [1, 0, 0] := by
    rw [Value.hasNullOn_cons_iff (v := .record [.record [.int 7]]) rfl,
      Value.hasNullOn_cons_iff (v := .record [.int 7]) rfl,
      Value.hasNullOn_cons_iff (v := .int 7) rfl]
    exact Value.not_hasNullOn_nil _
  obtain ⟨a, ha, -, hvalue, -⟩ := get_placed rfl hids hplaced rfl hfull
  obtain ⟨a', ha', -, -, hhidden⟩ := get_placed rfl hids hplaced rfl hhollow
  obtain rfl : a = a' := Except.ok.inj (ha.symm.trans ha')
  obtain ⟨v, hv, hget⟩ := hvalue hno
  obtain rfl : Value.int 7 = v := Option.some.inj hv
  exact ⟨rfl, hids, hplaced, hfull, hno, hhollow, hnull, a, ha, hget, hhidden hnull⟩

end Schema

end PartitionPruning
