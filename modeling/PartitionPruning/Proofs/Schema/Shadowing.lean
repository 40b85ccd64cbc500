import PartitionPruning.Proofs.Schema.Rows

/-!
# Fields that others take the place of

A name leads to an id and the id to an accessor, and in both steps the last entry counts. So a field at
the top of a schema is found by its own name unless a field behind it takes its place: one with the same
name, when case is ignored, or one with the same id.

* **`idOfName?_append`** — the id that the name of a field leads to.
* **`accessor_eq_position_iff`** — when the accessor of an id is the one for a position.
* **`column_position_iff`** — when the name of a field leads to its own position.
* **`field_of_position`** — what it finds there.
* **`position_ne_of_isShadowed`** — where it leads otherwise.
* **`isShadowed_flat`** — the condition in a schema whose fields are all primitive.
-/

namespace PartitionPruning

open Outcome (bind_eq_ok map_eq_ok)

theorem lookupLast?_append {κ α : Type} [BEq κ] (key : κ) (es es' : List (κ × α)) :
    lookupLast? key (es ++ es') = (lookupLast? key es').or (lookupLast? key es) := by
  induction es with
  | nil => simp [lookupLast?]
  | cons e rest ih =>
    obtain ⟨k, a⟩ := e
    rw [List.cons_append, lookupLast?, ih, lookupLast?, Option.or_assoc]

/-! ## Names -/

/-- A name is added behind the others if it is not among them yet. -/
theorem addName_inv {names names' : List (String × Int)} {e : Except Fault (String × Int)}
    (h : addName names e = .ok names') :
    ∃ name id, e = .ok (name, id) ∧ names.lookup name = none ∧ names' = names ++ [(name, id)] := by
  obtain ⟨⟨name, id⟩, he, h⟩ := bind_eq_ok.mp h
  dsimp only at h
  split at h
  · simp [throw, throwThe, MonadExceptOf.throw] at h
  · rename_i hnew
    exact ⟨name, id, he, hnew, (Outcome.pure_eq_ok.mp h).symm⟩

theorem nodup_append_of_lookup {names : List (String × Int)} {name : String} (id : Int)
    (hnames : (names.map Prod.fst).Nodup) (hnew : names.lookup name = none) :
    ((names ++ [(name, id)]).map Prod.fst).Nodup := by
  have hfresh : name ∉ names.map Prod.fst := by
    intro hmem
    obtain ⟨⟨_, id'⟩, hentry, rfl⟩ := List.mem_map.mp hmem
    rw [lookup_of_mem hnames hentry] at hnew
    simp at hnew
  rw [List.map_append, List.nodup_append]
  refine ⟨hnames, List.nodup_singleton name, fun a ha b hb heq => ?_⟩
  obtain rfl : b = name := by simpa using hb
  exact hfresh (heq ▸ ha)

/-- **All names are added**, and none repeats. Induction on the names, over those added before. -/
theorem foldlM_addName_inv {names names' : List (String × Int)}
    {es : List (Except Fault (String × Int))} (hnames : (names.map Prod.fst).Nodup)
    (h : es.foldlM addName names = .ok names') :
    names' = names ++ es.filterMap Except.toOption ∧ (names'.map Prod.fst).Nodup := by
  induction es generalizing names with
  | nil =>
    obtain rfl := Outcome.pure_eq_ok.mp h
    simpa using hnames
  | cons e rest ih =>
    rw [List.foldlM_cons] at h
    obtain ⟨added, hadded, h⟩ := bind_eq_ok.mp h
    obtain ⟨name, id, rfl, hnew, rfl⟩ := addName_inv hadded
    obtain ⟨rfl, hnodup⟩ := ih (nodup_append_of_lookup id hnames hnew) h
    exact ⟨by simp [Except.toOption], hnodup⟩

namespace Schema

/-- Names with their ids, as they count for look-ups. -/
def keyed (caseSensitive : Bool) (names : List (String × Int)) : List (String × Int) :=
  names.map fun (name, id) => (nameKey caseSensitive name, id)

/-- **The id of a name** that is among the names: the last name behind it that agrees leads away. -/
theorem idOfName?_append {caseSensitive : Bool} {before behind : List (String × Int)} {name : String}
    {id : Int} (h : ((before ++ (name, id) :: behind).map Prod.fst).Nodup) :
    idOfName? (before ++ (name, id) :: behind) name caseSensitive =
      some ((lookupLast? (nameKey caseSensitive name) (keyed caseSensitive behind)).getD id) := by
  cases caseSensitive with
  | true =>
    -- no name repeats, so that none behind agrees
    have hbehind : name ∉ (keyed true behind).map Prod.fst := by
      rw [List.map_append, List.map_cons] at h
      have := (List.nodup_cons.mp (List.nodup_append.mp h).2.1).1
      simpa [keyed, nameKey] using this
    rw [show nameKey true name = name from rfl, lookupLast?_eq_none hbehind]
    exact lookup_of_mem h (by simp)
  | false =>
    have hkey : nameKey false name = Text.toLower name := rfl
    have hkeyed (names : List (String × Int)) :
        (names.map fun (n, id) => (Text.toLower n, id)) = keyed false names := rfl
    rw [idOfName?, if_neg (by simp), hkeyed, ← hkey]
    simp only [keyed, List.map_append, List.map_cons]
    rw [lookupLast?_append, lookupLast?]
    cases lookupLast? (nameKey false name) (behind.map fun (n, id) => (nameKey false n, id)) <;> simp

end Schema

/-! ## Accessors -/

namespace Field

theorem position_of_mem_accessorsAt {position : Nat} {f : Field} {e : Int × Accessor}
    (h : e ∈ f.accessorsAt position) : e.2.position = position := by
  obtain ⟨id, name, type, required, doc⟩ := f
  rw [accessorsAt] at h
  split at h
  · rw [List.mem_singleton.mp h]
  · obtain ⟨e', _, rfl⟩ := List.mem_map.mp h
    rfl

/-- Accessors of fields from a position on lead to the positions of these fields. -/
theorem position_of_mem_accessorsFrom {position : Nat} {fields : List Field} {e : Int × Accessor}
    (h : e ∈ accessorsFrom position fields) :
    position ≤ e.2.position ∧ e.2.position < position + fields.length := by
  induction fields generalizing position with
  | nil => simp [accessorsFrom] at h
  | cons f rest ih =>
    rw [accessorsFrom, List.mem_append] at h
    rw [List.length_cons]
    rcases h with hfirst | hrest
    · have := position_of_mem_accessorsAt hfirst
      omega
    · have := ih hrest
      omega

theorem accessorsFrom_append (position : Nat) (fields fields' : List Field) :
    accessorsFrom position (fields ++ fields') =
      accessorsFrom position fields ++ accessorsFrom (position + fields.length) fields' := by
  induction fields generalizing position with
  | nil => simp [accessorsFrom]
  | cons f rest ih =>
    rw [List.cons_append, accessorsFrom, ih, accessorsFrom, List.append_assoc, List.length_cons,
      Nat.add_right_comm, Nat.add_assoc]

/-- The fields at any depth of two lists one behind the other. -/
theorem allInList_append (fields fields' : List Field) :
    allInList (fields ++ fields') = allInList fields ++ allInList fields' := by
  induction fields with
  | nil => rfl
  | cons f rest ih => rw [List.cons_append, allInList, ih, allInList, List.append_assoc]

theorem namesOfList_append (path : List String) (fields fields' : List Field) :
    namesOfList path (fields ++ fields') = namesOfList path fields ++ namesOfList path fields' := by
  induction fields with
  | nil => rfl
  | cons f rest ih => rw [List.cons_append, namesOfList, ih, namesOfList, List.append_assoc]

/-- The ids that have accessors are those of the fields that are read. -/
theorem ids_accessorsFrom (position : Nat) (fields : List Field) :
    (accessorsFrom position fields).map Prod.fst =
      ((allInList fields).filter isRead).map Field.id := by
  have hids : List.Forall₂ (fun e g => e.1 = g.id) (accessorsFrom position fields)
      ((allInList fields).filter isRead) :=
    (accessorsFrom_read fields position).imp fun _ _ h => h.1
  rw [← List.forall₂_eq_eq_eq, List.forall₂_map_left_iff, List.forall₂_map_right_iff]
  exact hids

theorem accessorsAt_isPrimitive {f : Field} (h : f.IsPrimitive) (position : Nat) :
    f.accessorsAt position = [(f.id, ⟨position, []⟩)] := by
  obtain ⟨id, name, type, required, doc⟩ := f
  obtain ⟨p, hp⟩ := h
  obtain rfl : type = .primitive p := hp
  rfl

/-- A primitive field holds no others. -/
theorem allInside_isPrimitive {f : Field} (h : f.IsPrimitive) : f.allInside = [f] := by
  obtain ⟨id, name, type, required, doc⟩ := f
  obtain ⟨p, hp⟩ := h
  obtain rfl : type = .primitive p := hp
  rfl

/-- A primitive field is read. -/
theorem isRead_isPrimitive {f : Field} (h : f.IsPrimitive) : f.isRead = true := by
  obtain ⟨p, hp⟩ := h
  rw [isRead, hp]
  rfl

theorem namesOf_isPrimitive {f : Field} (h : f.IsPrimitive) : namesOf [] f = [.ok (f.name, f.id)] := by
  obtain ⟨id, name, type, required, doc⟩ := f
  obtain ⟨p, hp⟩ := h
  obtain rfl : type = .primitive p := hp
  simp [namesOf, DataType.namesBelow, String.intercalate_singleton]

end Field

namespace Schema

variable {s : Schema} {caseSensitive : Bool} {i : Nat} {g : Field}

theorem fields_split (hg : s.fields[i]? = some g) :
    s.fields = s.fields.take i ++ g :: s.fields.drop (i + 1) ∧ (s.fields.take i).length = i := by
  obtain ⟨hi, rfl⟩ := List.getElem?_eq_some_iff.mp hg
  refine ⟨?_, by simp; omega⟩
  rw [← List.drop_eq_getElem_cons hi, List.take_append_drop]

/-- **The accessor of a position.** An id has the accessor of a field exactly if it is the id of the
field and no field behind it that is read has the id. -/
theorem accessor_eq_position_iff {id : Int} {a : Accessor} (hg : s.fields[i]? = some g)
    (hprimitive : g.IsPrimitive) (ha : s.accessorFor id = .ok a) :
    a = ⟨i, []⟩ ↔ id = g.id ∧
      ¬ ∃ h ∈ Field.allInList (s.fields.drop (i + 1)), h.isRead = true ∧ h.id = id := by
  obtain ⟨hsplit, hlength⟩ := fields_split hg
  have hlook : lookupLast? id (Field.accessorsFrom 0 s.fields) = some a := accessorFor_inv ha
  rw [hsplit, Field.accessorsFrom_append, Field.accessorsFrom, Field.accessorsAt_isPrimitive hprimitive,
    lookupLast?_append, List.singleton_append, lookupLast?, hlength, Nat.zero_add] at hlook
  have hids : (∃ h ∈ Field.allInList (s.fields.drop (i + 1)), h.isRead = true ∧ h.id = id) ↔
      id ∈ (Field.accessorsFrom (i + 1) (s.fields.drop (i + 1))).map Prod.fst := by
    rw [Field.ids_accessorsFrom]
    simp [and_assoc]
  rw [hids]
  cases hbehind : lookupLast? id (Field.accessorsFrom (i + 1) (s.fields.drop (i + 1))) with
  | some b =>
    -- a field further on has another position
    have hmem := mem_of_lookupLast? hbehind
    obtain rfl : b = a := by simpa [hbehind] using hlook
    have hposition := (Field.position_of_mem_accessorsFrom hmem).1
    refine iff_of_false ?_ fun h => h.2 (List.mem_map_of_mem (f := Prod.fst) hmem)
    rintro rfl
    exact Nat.not_succ_le_self i hposition
  | none =>
    rw [hbehind, Option.none_or] at hlook
    have hnone := not_mem_of_lookupLast? hbehind
    by_cases hid : g.id = id
    · obtain rfl : ⟨i, []⟩ = a := by simpa [hid] using hlook
      exact iff_of_true rfl ⟨hid.symm, hnone⟩
    · -- a field in front of it has another position, too
      rw [if_neg (by simpa using hid), Option.none_or] at hlook
      have hposition := (Field.position_of_mem_accessorsFrom (mem_of_lookupLast? hlook)).2
      rw [hlength] at hposition
      refine iff_of_false ?_ fun h => hid h.1.symm
      rintro rfl
      exact absurd hposition (by simp)

/-! ## Columns -/

/-- The names of the fields behind a position with their ids, as they count for look-ups. -/
def keysBehind (s : Schema) (caseSensitive : Bool) (i : Nat) : List (String × Int) :=
  keyed caseSensitive ((Field.namesOfList [] (s.fields.drop (i + 1))).filterMap Except.toOption)

/-- Whether a field at the top of a schema is not found at its position by its name: the last name behind
it that agrees has another id, or a field behind it that is read has its id. -/
def IsShadowed (s : Schema) (caseSensitive : Bool) (i : Nat) : Prop :=
  ∃ g, s.fields[i]? = some g ∧
    ((∃ id, lookupLast? (nameKey caseSensitive g.name) (s.keysBehind caseSensitive i) = some id ∧
        id ≠ g.id) ∨
      ∃ h ∈ Field.allInList (s.fields.drop (i + 1)), h.isRead = true ∧ h.id = g.id)

/-- The id of the column that the name of a field leads to. -/
theorem id_of_column {c : Column} (hg : s.fields[i]? = some g) (hprimitive : g.IsPrimitive)
    (hc : s.column caseSensitive g.name = .ok c) :
    c.field.id =
      (lookupLast? (nameKey caseSensitive g.name) (s.keysBehind caseSensitive i)).getD g.id := by
  obtain ⟨f, hf, hc⟩ := bind_eq_ok.mp hc
  obtain ⟨a, _, hc⟩ := bind_eq_ok.mp hc
  obtain rfl := Outcome.pure_eq_ok.mp hc
  obtain ⟨names, hnames, hf⟩ := bind_eq_ok.mp hf
  obtain ⟨hnames, hnodup⟩ := foldlM_addName_inv (by simp) hnames
  obtain ⟨hsplit, _⟩ := fields_split hg
  -- The table of names is split at the field itself, which is primitive and adds one name.
  have hall : s.asStruct.namesBelow [] = Field.namesOfList [] (s.fields.take i) ++
      .ok (g.name, g.id) :: Field.namesOfList [] (s.fields.drop (i + 1)) := by
    rw [asStruct, DataType.namesBelow]
    conv_lhs => rw [hsplit]
    rw [Field.namesOfList_append, Field.namesOfList, Field.namesOf_isPrimitive hprimitive]
    rfl
  rw [hall, List.nil_append, List.filterMap_append, List.filterMap_cons] at hnames
  simp only [Except.toOption] at hnames
  rw [hnames] at hnodup hf
  rw [idOfName?_append hnodup] at hf
  exact (mem_of_fieldWithId hf).2

/-- **Names and positions.** The name of a primitive field at the top of a schema leads to its own
position exactly if no field behind takes its place. -/
theorem column_position_iff {c : Column} (hg : s.fields[i]? = some g) (hprimitive : g.IsPrimitive)
    (hc : s.column caseSensitive g.name = .ok c) :
    c.accessor = ⟨i, []⟩ ↔ ¬ s.IsShadowed caseSensitive i := by
  have hid := id_of_column hg hprimitive hc
  rw [accessor_eq_position_iff hg hprimitive (column_inv hc).2]
  constructor
  · rintro ⟨hown, hread⟩ ⟨g', hg', hshadow⟩
    obtain rfl : g = g' := Option.some.inj (hg.symm.trans hg')
    -- A field is shadowed by a later name or by a later accessor.
    rcases hshadow with ⟨id, hlook, hne⟩ | hread'
    · rw [hlook] at hid
      exact hne (hid.symm.trans hown)
    · rw [hown] at hread
      exact hread hread'
  · intro hshadow
    have hown : c.field.id = g.id := by
      rw [hid]
      cases hlook : lookupLast? (nameKey caseSensitive g.name) (s.keysBehind caseSensitive i) with
      | none => rfl
      | some id =>
        by_contra hne
        exact hshadow ⟨g, hg, Or.inl ⟨id, hlook, hne⟩⟩
    refine ⟨hown, fun hread => hshadow ⟨g, hg, Or.inr ?_⟩⟩
    rwa [hown] at hread

/-- **What is found at a position.** A name that leads to the position of a primitive field finds this field,
unless it finds one that is not read: a struct behind it that has its id. -/
theorem field_of_position {name : String} {c : Column} (hg : s.fields[i]? = some g)
    (hprimitive : g.IsPrimitive) (hc : s.column caseSensitive name = .ok c)
    (hposition : c.accessor = ⟨i, []⟩) (hread : c.field.isRead = true) : c.field = g := by
  obtain ⟨hfield, haccessor⟩ := column_inv hc
  obtain ⟨hid, hnone⟩ := (accessor_eq_position_iff hg hprimitive haccessor).mp hposition
  obtain ⟨hsplit, _⟩ := fields_split hg
  have hlook : lookupLast? c.field.id ((Field.allInList s.fields).map fun f => (f.id, f)) =
      some c.field := (fieldWithId_inv hfield).2
  rw [hsplit, Field.allInList_append, Field.allInList, Field.allInside_isPrimitive hprimitive,
    List.map_append, List.singleton_append, List.map_cons, lookupLast?_append, lookupLast?] at hlook
  cases hbehind : lookupLast? c.field.id
      ((Field.allInList (s.fields.drop (i + 1))).map fun f => (f.id, f)) with
  | some h =>
    -- a field behind it with its id counts, but none of these is read
    obtain rfl : h = c.field := by simpa [hbehind] using hlook
    obtain ⟨f, hf, heq⟩ := List.mem_map.mp (mem_of_lookupLast? hbehind)
    obtain ⟨_, rfl⟩ := Prod.mk.inj heq
    exact absurd ⟨c.field, hf, hread, rfl⟩ hnone
  | none =>
    rw [hbehind, Option.none_or] at hlook
    have hself : g = c.field := by simpa [hid] using hlook
    exact hself.symm

/-- **Where the name of a shadowed field leads**: to another position. -/
theorem position_ne_of_isShadowed {c : Column} (hg : s.fields[i]? = some g)
    (hprimitive : g.IsPrimitive) (hc : s.column caseSensitive g.name = .ok c)
    (hshadowed : s.IsShadowed caseSensitive i) : c.accessor.position ≠ i := by
  intro hposition
  obtain ⟨hsplit, hlength⟩ := fields_split hg
  have hmem := mem_of_lookupLast? (accessorFor_inv (column_inv hc).2)
  have hmem' : (c.field.id, c.accessor) ∈ Field.accessorsFrom 0 s.fields := hmem
  rw [hsplit, Field.accessorsFrom_append, Field.accessorsFrom, Field.accessorsAt_isPrimitive hprimitive,
    hlength, Nat.zero_add, List.mem_append, List.singleton_append, List.mem_cons] at hmem'
  rcases hmem' with hfront | hself | hbehind
  · have := (Field.position_of_mem_accessorsFrom hfront).2
    rw [hlength] at this
    simp [hposition] at this
  · -- the only accessor of the position is the one of the field itself
    exact (column_position_iff hg hprimitive hc).mp (Prod.mk.inj hself).2 hshadowed
  · have := (Field.position_of_mem_accessorsFrom hbehind).1
    simp only [hposition] at this
    omega

/-- The last field is not shadowed. -/
theorem not_isShadowed_last (h : s.fields.length ≤ i + 1) : ¬ s.IsShadowed caseSensitive i := by
  have hnone : s.fields.drop (i + 1) = [] := List.drop_eq_nil_of_le h
  rintro ⟨g, _, ⟨id, hlook, _⟩ | ⟨f, hf, _⟩⟩
  · simp [keysBehind, hnone, keyed, Field.namesOfList, lookupLast?] at hlook
  · simp [hnone, Field.allInList] at hf

/-- **In a flat schema** a field is shadowed if a field behind it has its id or a name that agrees. -/
theorem isShadowed_flat (hflat : ∀ f ∈ s.fields, f.IsPrimitive) (hg : s.fields[i]? = some g) :
    s.IsShadowed caseSensitive i ↔ ∃ h ∈ s.fields.drop (i + 1),
      h.id = g.id ∨ nameKey caseSensitive h.name = nameKey caseSensitive g.name := by
  have hbehind : ∀ f ∈ s.fields.drop (i + 1), f.IsPrimitive :=
    fun f hf => hflat f (List.mem_of_mem_drop hf)
  -- no field holds others, so those that are visited behind it are the ones behind it in the list
  have hread : (∃ h ∈ Field.allInList (s.fields.drop (i + 1)), h.isRead = true ∧ h.id = g.id) ↔
      ∃ h ∈ s.fields.drop (i + 1), h.id = g.id := by
    rw [Field.allInList_flat hbehind]
    refine exists_congr fun h => and_congr_right fun hh => and_iff_right ?_
    obtain ⟨p, hp⟩ := hbehind h hh
    rw [Field.isRead, hp]
    rfl
  have hkeys : s.keysBehind caseSensitive i =
      (s.fields.drop (i + 1)).map fun h => (nameKey caseSensitive h.name, h.id) := by
    rw [keysBehind, Field.namesOfList_flat hbehind, List.filterMap_map, keyed]
    simp [Except.toOption, Function.comp_def]
  constructor
  · rintro ⟨g', hg', hshadow⟩
    obtain rfl : g = g' := Option.some.inj (hg.symm.trans hg')
    rcases hshadow with ⟨id, hlook, _⟩ | hid
    · rw [hkeys] at hlook
      obtain ⟨h, hh, heq⟩ := List.mem_map.mp (mem_of_lookupLast? hlook)
      exact ⟨h, hh, Or.inr (Prod.mk.inj heq).1⟩
    · obtain ⟨h, hh, hid⟩ := hread.mp hid
      exact ⟨h, hh, Or.inl hid⟩
  · rintro ⟨h, hh, hid | hname⟩
    · exact ⟨g, hg, Or.inr (hread.mpr ⟨h, hh, hid⟩)⟩
    · -- the last name that agrees has another id, or the field that has it has the id of this one
      have hmem : nameKey caseSensitive g.name ∈ (s.keysBehind caseSensitive i).map Prod.fst := by
        rw [hkeys, List.map_map]
        exact List.mem_map.mpr ⟨h, hh, hname⟩
      cases hlook : lookupLast? (nameKey caseSensitive g.name) (s.keysBehind caseSensitive i) with
      | none => exact absurd hmem (not_mem_of_lookupLast? hlook)
      | some id =>
        by_cases hne : id = g.id
        · have hlast := mem_of_lookupLast? hlook
          rw [hkeys] at hlast
          obtain ⟨h', hh', heq⟩ := List.mem_map.mp hlast
          exact ⟨g, hg, Or.inr (hread.mpr ⟨h', hh', (Prod.mk.inj heq).2.trans hne⟩)⟩
        · exact ⟨g, hg, Or.inl ⟨id, hlook, hne⟩⟩

end Schema

end PartitionPruning
