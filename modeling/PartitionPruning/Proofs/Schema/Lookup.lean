import Mathlib.Data.List.Nodup
import PartitionPruning.Filter.Bind
import PartitionPruning.Proofs.Outcome

/-!
# Looking columns up

What a look-up that succeeds has found, and that a look-up succeeds in a schema whose columns are all
primitive when its names do not repeat. The schema of partition values is of this kind.

* **`column_inv`** — the field and the accessor of a column both belong to its id.
* **`column_of_flat`** — in a flat schema a name leads to the column at its own position.
-/

namespace PartitionPruning

open Outcome (bind_eq_ok map_eq_ok)

/-! ## Association lists -/

section Association

variable {κ α β : Type} [BEq κ] [LawfulBEq κ]

theorem mem_of_lookupLast? {key : κ} {a : α} {es : List (κ × α)}
    (h : lookupLast? key es = some a) : (key, a) ∈ es := by
  induction es with
  | nil => simp [lookupLast?] at h
  | cons e rest ih =>
    obtain ⟨k, b⟩ := e
    rw [lookupLast?, Option.or_eq_some_iff] at h
    rcases h with hrest | ⟨_, hhead⟩
    · exact List.mem_cons_of_mem _ (ih hrest)
    · obtain ⟨hk, rfl⟩ : k = key ∧ b = a := by simpa using hhead
      rw [hk]
      exact List.mem_cons_self ..

theorem lookupLast?_eq_none {key : κ} {es : List (κ × α)} (h : key ∉ es.map Prod.fst) :
    lookupLast? key es = none := by
  cases hfound : lookupLast? key es with
  | none => rfl
  | some a =>
    exact absurd (List.mem_map_of_mem (f := Prod.fst) (mem_of_lookupLast? hfound)) h

theorem not_mem_of_lookupLast? {key : κ} {es : List (κ × α)} (h : lookupLast? key es = none) :
    key ∉ es.map Prod.fst := by
  induction es with
  | nil => simp
  | cons e rest ih =>
    obtain ⟨hrest, hhead⟩ := Option.or_eq_none_iff.mp h
    have hne : key ≠ e.1 := by
      rintro rfl
      simp at hhead
    simpa [hne] using ih hrest

/-- The last entry of a key is still the last one when others are left out. -/
theorem lookupLast?_filter {p : α → Bool} {k : α → κ} {xs : List α} {key : κ} {a : α}
    (ha : lookupLast? key (xs.map fun x => (k x, x)) = some a) (hp : p a = true) :
    lookupLast? key ((xs.filter p).map fun x => (k x, x)) = some a := by
  induction xs with
  | nil => exact ha
  | cons x rest ih =>
    rw [List.map_cons, lookupLast?, Option.or_eq_some_iff] at ha
    -- Either the entry comes later, or it is this one and no later one has its key.
    rcases ha with hlater | ⟨hnone, hhead⟩
    · cases hx : p x with
      | true => rw [List.filter_cons_of_pos hx, List.map_cons, lookupLast?, ih hlater, Option.some_or]
      | false => rw [List.filter_cons_of_neg (by simp [hx]), ih hlater]
    · obtain ⟨rfl, rfl⟩ : k x = key ∧ x = a := by simpa using hhead
      have hrest : lookupLast? (k x) ((rest.filter p).map fun x => (k x, x)) = none := by
        refine lookupLast?_eq_none fun hmem => not_mem_of_lookupLast? hnone ?_
        rw [List.map_map] at hmem ⊢
        exact (List.filter_sublist.map _).subset hmem
      rw [List.filter_cons_of_pos hp, List.map_cons, lookupLast?, hrest]
      simp

omit [LawfulBEq κ] in
/-- In lists whose entries belong together one by one, the last entries of a key do. -/
theorem lookupLast?_rel {R : α → β → Prop} {k : β → κ} {es : List (κ × α)} {gs : List β}
    (h : List.Forall₂ (fun e g => e.1 = k g ∧ R e.2 g) es gs) (key : κ) :
    Option.Rel R (lookupLast? key es) (lookupLast? key (gs.map fun g => (k g, g))) := by
  induction h with
  | nil => exact .none
  | @cons e g rest gs hfirst _ ih =>
    obtain ⟨k', a⟩ := e
    obtain ⟨rfl, hR⟩ := hfirst
    rw [List.map_cons, lookupLast?, lookupLast?]
    -- an entry further on counts, and otherwise this one if it has the key
    revert ih
    generalize lookupLast? key rest = later, lookupLast? key (gs.map fun g => (k g, g)) = later'
    intro ih
    cases ih with
    | some hlater => exact .some hlater
    | none =>
      by_cases hkey : (k g == key) = true
      · rw [if_pos hkey, if_pos hkey]
        exact .some hR
      · rw [if_neg hkey, if_neg hkey]
        exact .none

/-- When no key repeats, the last entry of a key is the only one. -/
theorem lookupLast?_of_mem {key : κ} {a : α} {es : List (κ × α)}
    (hnodup : (es.map Prod.fst).Nodup) (h : (key, a) ∈ es) : lookupLast? key es = some a := by
  induction es with
  | nil => simp at h
  | cons e rest ih =>
    obtain ⟨hhead, hrest⟩ := List.nodup_cons.mp hnodup
    rw [lookupLast?]
    rcases List.mem_cons.mp h with rfl | hmem
    · rw [lookupLast?_eq_none hhead]
      simp
    · rw [ih hrest hmem]
      rfl

/-- When no key repeats, the first entry of a key is the only one. -/
theorem lookup_of_mem {key : κ} {a : α} {es : List (κ × α)}
    (hnodup : (es.map Prod.fst).Nodup) (h : (key, a) ∈ es) : es.lookup key = some a := by
  induction es with
  | nil => simp at h
  | cons e rest ih =>
    obtain ⟨k, b⟩ := e
    obtain ⟨hhead, hrest⟩ := List.nodup_cons.mp hnodup
    rcases List.mem_cons.mp h with heq | hmem
    · obtain ⟨rfl, rfl⟩ := Prod.mk.inj heq
      simp
    · have hne : key ≠ k := fun heq => hhead (List.mem_map.mpr ⟨_, hmem, heq⟩)
      rw [List.lookup_cons, beq_eq_false_iff_ne.mpr hne]
      exact ih hrest hmem

theorem lookup_eq_none_of_not_mem {key : κ} {es : List (κ × α)} (h : key ∉ es.map Prod.fst) :
    es.lookup key = none := by
  refine List.lookup_eq_none_iff.mpr fun e he => ?_
  have hne : key ≠ e.1 := fun heq => h (heq ▸ List.mem_map_of_mem he)
  simpa using hne

end Association

/-! ## Inversion -/

theorem DataType.visited_eq_ok {α : Type} {t : DataType} {found a : α} :
    t.visited found = .ok a ↔ t.unknown? = none ∧ found = a := by
  unfold visited
  cases t.unknown? <;> simp

namespace Schema

theorem fieldWithId_inv {s : Schema} {id : Whole} {f : Field} (h : s.fieldWithId id = .ok f) :
    s.asStruct.unknown? = none ∧
      lookupLast? id.toInt (s.asStruct.allFields.map fun f => (f.id, f)) = some f := by
  obtain ⟨entries, hentries, h⟩ := bind_eq_ok.mp h
  obtain ⟨hknown, rfl⟩ := DataType.visited_eq_ok.mp hentries
  split at h
  · rename_i g hg
    obtain rfl : g = f := Outcome.pure_eq_ok.mp h
    exact ⟨hknown, hg⟩
  · simp [throw, throwThe, MonadExceptOf.throw] at h

/-- What is found by an id is a field at some depth that has this id. -/
theorem mem_of_fieldWithId {s : Schema} {id : Whole} {f : Field} (h : s.fieldWithId id = .ok f) :
    f ∈ s.asStruct.allFields ∧ f.id = id.toInt := by
  have hmem := mem_of_lookupLast? (fieldWithId_inv h).2
  obtain ⟨g, hg, heq⟩ := List.mem_map.mp hmem
  obtain ⟨hid, rfl⟩ := Prod.mk.inj heq
  exact ⟨hg, hid⟩

theorem accessorFor_inv {s : Schema} {id : Int} {a : Accessor} (h : s.accessorFor id = .ok a) :
    lookupLast? id s.asStruct.accessors = some a := by
  obtain ⟨entries, hentries, h⟩ := bind_eq_ok.mp h
  obtain ⟨_, rfl⟩ := DataType.visited_eq_ok.mp hentries
  split at h
  · rename_i b hb
    obtain rfl : b = a := Outcome.pure_eq_ok.mp h
    exact hb
  · simp [throw, throwThe, MonadExceptOf.throw] at h

/-- **Inversion of looking a column up.** Its field and its accessor are those of its id. -/
theorem column_inv {s : Schema} {caseSensitive : Bool} {name : String} {c : Column}
    (h : s.column caseSensitive name = .ok c) :
    s.fieldWithId (.number c.field.id) = .ok c.field ∧
      s.accessorFor c.field.id = .ok c.accessor := by
  obtain ⟨f, hf, h⟩ := bind_eq_ok.mp h
  obtain ⟨a, ha, h⟩ := bind_eq_ok.mp h
  obtain rfl := Outcome.pure_eq_ok.mp h
  obtain ⟨names, _, hf⟩ := bind_eq_ok.mp hf
  split at hf
  · rename_i id _
    have hid : f.id = id := (mem_of_fieldWithId hf).2
    exact ⟨hid ▸ hf, ha⟩
  · simp at hf

end Schema

/-! ## Flat schemas -/

/-- Whether a field has a primitive type. -/
def Field.IsPrimitive (f : Field) : Prop := ∃ p, f.type = .primitive p

namespace Field

variable {fields : List Field}

/-- **Induction on flat fields.** It is enough to put a field of a primitive type in front of others. -/
@[elab_as_elim]
theorem flat_induction {motive : (fields : List Field) → (∀ f ∈ fields, f.IsPrimitive) → Prop}
    (nil : motive [] (by simp))
    (cons : ∀ (id : Int) (name : String) (p : Primitive) (required : Bool) (doc : Option String)
      (rest : List Field) (h : ∀ f ∈ rest, f.IsPrimitive), motive rest h →
        motive (⟨id, name, .primitive p, required, doc⟩ :: rest)
          (List.forall_mem_cons.mpr ⟨⟨p, rfl⟩, h⟩))
    (fields : List Field) (h : ∀ f ∈ fields, f.IsPrimitive) : motive fields h := by
  induction fields with
  | nil => exact nil
  | cons f rest ih =>
    obtain ⟨id, name, type, required, doc⟩ := f
    obtain ⟨p, hp⟩ := h _ (List.mem_cons_self ..)
    obtain rfl : type = .primitive p := hp
    exact cons id name p required doc rest (List.forall_mem_cons.mp h).2 (ih _)

theorem unknownInList?_flat (h : ∀ f ∈ fields, f.IsPrimitive) : unknownInList? fields = none := by
  induction fields, h using flat_induction with
  | nil => rfl
  | cons id name p required doc rest h ih =>
    rw [unknownInList?, ih]
    rfl

theorem allInList_flat (h : ∀ f ∈ fields, f.IsPrimitive) : allInList fields = fields := by
  induction fields, h using flat_induction with
  | nil => rfl
  | cons id name p required doc rest h ih =>
    rw [allInList, ih]
    rfl

theorem namesOfList_flat (h : ∀ f ∈ fields, f.IsPrimitive) :
    namesOfList [] fields = fields.map fun f => .ok (f.name, f.id) := by
  induction fields, h using flat_induction with
  | nil => rfl
  | cons id name p required doc rest h ih =>
    rw [namesOfList, ih]
    simp [namesOf, DataType.namesBelow, String.intercalate_singleton]

theorem accessorsFrom_flat (h : ∀ f ∈ fields, f.IsPrimitive) (position : Nat) :
    accessorsFrom position fields =
      (fields.zipIdx position).map fun (f, i) => (f.id, ⟨i, []⟩) := by
  induction fields, h using flat_induction generalizing position with
  | nil => rfl
  | cons id name p required doc rest h ih =>
    rw [accessorsFrom, ih]
    simp [accessorsAt, DataType.accessors]

end Field

/-- Names that do not repeat are all added. -/
theorem foldlM_addName (names : List (String × Int)) {es : List (String × Int)}
    (h : ((names ++ es).map Prod.fst).Nodup) :
    (es.map Except.ok).foldlM addName names = .ok (names ++ es) := by
  induction es generalizing names with
  | nil => simp [pure, Except.pure]
  | cons e rest ih =>
    obtain ⟨name, id⟩ := e
    have hnew : names.lookup name = none := by
      refine lookup_eq_none_of_not_mem fun hmem => ?_
      rw [List.map_append, List.map_cons] at h
      exact (List.nodup_append.mp h).2.2 _ hmem _ (List.mem_cons_self ..) rfl
    have hstep : addName names (.ok (name, id)) = .ok (names ++ [(name, id)]) := by
      simp [addName, hnew, pure, Except.pure]
    rw [List.map_cons, List.foldlM_cons, hstep]
    simpa using ih (names ++ [(name, id)]) (by simpa using h)

namespace Schema

variable {fields : List Field}

/-- The name of a column as it counts for look-ups. -/
def nameKey (caseSensitive : Bool) (name : String) : String :=
  if caseSensitive then name else Text.toLower name

theorem nodup_names_of_keys {caseSensitive : Bool}
    (h : (fields.map fun f => nameKey caseSensitive f.name).Nodup) :
    (fields.map Field.name).Nodup := by
  have : fields.map (fun f => nameKey caseSensitive f.name) =
      (fields.map Field.name).map (nameKey caseSensitive) := by simp
  rw [this] at h
  exact h.of_map _

theorem idsByName_flat {caseSensitive : Bool} (hflat : ∀ f ∈ fields, f.IsPrimitive)
    (hnames : (fields.map fun f => nameKey caseSensitive f.name).Nodup) :
    (ofFields fields).idsByName = .ok (fields.map fun f => (f.name, f.id)) := by
  have hadd := foldlM_addName []
    (show (([] ++ fields.map fun f : Field => (f.name, f.id)).map Prod.fst).Nodup by
      simpa [Function.comp_def] using nodup_names_of_keys hnames)
  rw [List.map_map] at hadd
  exact (congrArg (List.foldlM addName []) (Field.namesOfList_flat hflat)).trans hadd

theorem idOfName?_flat {caseSensitive : Bool} {f : Field}
    (hnames : (fields.map fun f => nameKey caseSensitive f.name).Nodup) (hf : f ∈ fields) :
    idOfName? (fields.map fun f => (f.name, f.id)) f.name caseSensitive = some f.id := by
  unfold idOfName?
  split
  · exact lookup_of_mem (by simpa [Function.comp_def] using nodup_names_of_keys hnames)
      (List.mem_map_of_mem hf)
  · rename_i hcase
    refine lookupLast?_of_mem ?_ ?_
    · simpa [nameKey, hcase, Function.comp_def] using hnames
    · simpa using ⟨f, hf, rfl, rfl⟩

theorem unknown?_flat (hflat : ∀ f ∈ fields, f.IsPrimitive) :
    (ofFields fields).asStruct.unknown? = none := Field.unknownInList?_flat hflat

theorem fieldWithId_flat {f : Field} (hflat : ∀ f ∈ fields, f.IsPrimitive)
    (hids : (fields.map Field.id).Nodup) (hf : f ∈ fields) :
    (ofFields fields).fieldWithId (.number f.id) = .ok f := by
  have hlook : lookupLast? f.id (fields.map fun f => (f.id, f)) = some f :=
    lookupLast?_of_mem (by simpa [Function.comp_def] using hids) (List.mem_map_of_mem hf)
  have hbyId : (ofFields fields).fieldsById = .ok (fields.map fun f => (f.id, f)) :=
    DataType.visited_eq_ok.mpr ⟨unknown?_flat hflat,
      congrArg (List.map fun f : Field => (f.id, f)) (Field.allInList_flat hflat)⟩
  simp [fieldWithId, hbyId, Whole.toInt, hlook, pure, Except.pure]

theorem accessorFor_flat {i : Nat} {f : Field} (hflat : ∀ f ∈ fields, f.IsPrimitive)
    (hids : (fields.map Field.id).Nodup) (hf : fields[i]? = some f) :
    (ofFields fields).accessorFor f.id = .ok ⟨i, []⟩ := by
  have hkeys : ((fields.zipIdx 0).map fun (g, j) => (g.id, (⟨j, []⟩ : Accessor))).map Prod.fst =
      fields.map Field.id := by
    have hfst := congrArg (List.map Field.id) (List.zipIdx_map_fst 0 fields)
    rw [List.map_map] at hfst ⊢
    exact hfst
  have hlook : lookupLast? f.id
      ((fields.zipIdx 0).map fun (g, j) => (g.id, (⟨j, []⟩ : Accessor))) = some ⟨i, []⟩ := by
    refine lookupLast?_of_mem (hkeys ▸ hids) (List.mem_map.mpr ⟨(f, i), ?_, rfl⟩)
    simpa [List.mem_zipIdx_iff_getElem?] using hf
  have hall : (ofFields fields).accessors =
      .ok ((fields.zipIdx 0).map fun (g, j) => (g.id, ⟨j, []⟩)) :=
    DataType.visited_eq_ok.mpr ⟨unknown?_flat hflat, Field.accessorsFrom_flat hflat 0⟩
  simp [accessorFor, hall, hlook, pure, Except.pure]

/-- **Look-up in a flat schema.** When neither ids nor names repeat, a name leads to the column that
has it and to no other position. -/
theorem column_of_flat {caseSensitive : Bool} {i : Nat} {f : Field}
    (hflat : ∀ f ∈ fields, f.IsPrimitive) (hids : (fields.map Field.id).Nodup)
    (hnames : (fields.map fun f => nameKey caseSensitive f.name).Nodup)
    (hf : fields[i]? = some f) :
    (ofFields fields).column caseSensitive f.name = .ok ⟨f, ⟨i, []⟩⟩ := by
  have hmem : f ∈ fields := List.mem_of_getElem? hf
  simp [column, fieldWithName, idsByName_flat hflat hnames, idOfName?_flat hnames hmem,
    fieldWithId_flat hflat hids hmem, accessorFor_flat hflat hids hf, pure, Except.pure]

end Schema

end PartitionPruning
