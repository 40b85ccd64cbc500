import Mathlib
import PartitionPruning.Proofs.Schema.Names

/-!
# Full names without regard to case

When case is ignored, a name asks for the columns whose full names are the same in lower case. There
may be several of them. No such name is refused: the column that is visited last is found, and then the
last one that has its id.

* **`lookupLast?_map_eq_some_iff`** — a look-up finds the last entry of its key,
* **`Schema.findField_ignoringCase_iff`** — what is found when case is ignored.
-/

namespace PartitionPruning

open Outcome (Succeeds)

/-! ## Last entries -/

section

variable {α κ β : Type}

/-- Whether an element is the last one of a list with a property. -/
def IsLast (p : α → Prop) (xs : List α) (x : α) : Prop :=
  ∃ before behind, xs = before ++ x :: behind ∧ p x ∧ ∀ y ∈ behind, ¬ p y

theorem IsLast.mem {p : α → Prop} {xs : List α} {x : α} (h : IsLast p xs x) : x ∈ xs ∧ p x := by
  obtain ⟨before, behind, rfl, hx, -⟩ := h
  exact ⟨by simp, hx⟩

/-- Of the elements with a property one is the last. -/
theorem exists_isLast {p : α → Prop} {xs : List α} (h : ∃ x ∈ xs, p x) : ∃ x, IsLast p xs x := by
  induction xs with
  | nil => simp at h
  | cons x rest ih =>
    by_cases hrest : ∃ y ∈ rest, p y
    · obtain ⟨y, before, behind, rfl, hy⟩ := ih hrest
      exact ⟨y, x :: before, behind, rfl, hy⟩
    · obtain ⟨y, hy, hpy⟩ := h
      rcases List.mem_cons.mp hy with rfl | hy
      · exact ⟨y, [], rest, rfl, hpy, fun z hz hpz => hrest ⟨z, hz, hpz⟩⟩
      · exact absurd ⟨y, hy, hpy⟩ hrest

/-- An element that alone has a property is the last one that has it. -/
theorem isLast_of_unique {p : α → Prop} {xs : List α} {x : α} (hnodup : xs.Nodup) (hmem : x ∈ xs)
    (hx : p x) (hunique : ∀ y ∈ xs, p y → y = x) : IsLast p xs x := by
  obtain ⟨before, behind, rfl⟩ := List.append_of_mem hmem
  refine ⟨before, behind, rfl, hx, fun y hy hpy => ?_⟩
  obtain rfl := hunique y (by simp [hy]) hpy
  exact (List.nodup_cons.mp (List.nodup_append.mp hnodup).2.1).1 hy

variable [BEq κ] [LawfulBEq κ]

/-- **A look-up** finds the last entry of its key. -/
theorem lookupLast?_map_eq_some_iff {k : α → κ} {v : α → β} {xs : List α} {key : κ} {b : β} :
    lookupLast? key (xs.map fun x => (k x, v x)) = some b ↔
      ∃ x, IsLast (fun x => k x = key) xs x ∧ v x = b := by
  constructor
  · intro h
    induction xs with
    | nil => simp [lookupLast?] at h
    | cons x rest ih =>
      rw [List.map_cons, lookupLast?, Option.or_eq_some_iff] at h
      rcases h with hlater | ⟨hnone, hhead⟩
      · obtain ⟨y, ⟨before, behind, rfl, hy⟩, hb⟩ := ih hlater
        exact ⟨y, ⟨x :: before, behind, rfl, hy⟩, hb⟩
      · obtain ⟨hk, rfl⟩ : k x = key ∧ v x = b := by simpa using hhead
        -- Nothing behind has the key, so this one is the last.
        have hbehind := not_mem_of_lookupLast? hnone
        exact ⟨x, ⟨[], rest, rfl, hk, fun y hy heq => hbehind (by simpa using ⟨y, hy, heq⟩)⟩, rfl⟩
  · rintro ⟨x, ⟨before, behind, rfl, hx, hbehind⟩, rfl⟩
    have hnone : lookupLast? key (behind.map fun x => (k x, v x)) = none :=
      lookupLast?_eq_none (by simpa using hbehind)
    rw [List.map_append, List.map_cons, lookupLast?_append, lookupLast?, hnone]
    simp [hx]

end

/-! ## Names that agree -/

namespace Schema

variable {s : Schema} {name : String}

/-- Whether the full name of a path is a name when case is ignored. -/
def Agrees (name : String) (path : List String) : Prop :=
  Text.toLower (fullName path) = Text.toLower name

instance (name : String) (path : List String) : Decidable (Agrees name path) :=
  inferInstanceAs (Decidable (_ = _))

theorem fieldWithId_eq_ok_iff (hknown : s.asStruct.unknown? = none) {id : Int} {f : Field} :
    s.fieldWithId (.number id) = .ok f ↔ IsLast (fun g => g.id = id) s.asStruct.allFields f := by
  rw [fieldWithId_eq hknown, Whole.toInt_number]
  have hlast : lookupLast? id (s.asStruct.allFields.map fun g => (g.id, g)) = some f ↔
      IsLast (fun g => g.id = id) s.asStruct.allFields f := by
    rw [lookupLast?_map_eq_some_iff (k := Field.id) (v := fun g => g)]
    simp
  split <;> simp_all

/-- When no id repeats, the last field with the id of a field is that field. -/
theorem isLast_id_iff (hids : s.HasDistinctIds) {f g : Field} (hg : g ∈ s.asStruct.allFields) :
    IsLast (fun h => h.id = g.id) s.asStruct.allFields f ↔ f = g := by
  refine ⟨fun h => List.inj_on_of_nodup_map hids h.mem.1 hg h.mem.2, ?_⟩
  rintro rfl
  exact isLast_of_unique (List.Nodup.of_map _ hids) hg rfl fun h hh hid =>
    List.inj_on_of_nodup_map hids hh hg hid

/-- The id that a name leads to when case is ignored. -/
theorem idOfName?_ignoringCase {id : Int} :
    idOfName? (s.located.map fun c => (fullName c.1, c.2.id)) name false = some id ↔
      ∃ c, IsLast (fun c => Agrees name c.1) s.located c ∧ c.2.id = id := by
  rw [idOfName?, if_neg Bool.false_ne_true, List.map_map]
  exact lookupLast?_map_eq_some_iff

/-- A look-up by a name goes through the id that the name leads to. -/
theorem findField_ignoringCase_eq (hknown : s.asStruct.unknown? = none)
    (hnames : s.HasDistinctNames) :
    s.findField (.name name) false =
      match idOfName? (s.located.map fun c => (fullName c.1, c.2.id)) name false with
      | some id => s.fieldWithId (.number id)
      | none => .error (.noFieldWithName name false) := by
  rw [findField, fieldWithName, idsByName_of_distinct hknown hnames]
  rfl

/-- **A name without regard to case.** In a schema of known types whose full names differ, a name finds
nothing if no full name agrees with it. Otherwise it finds a column, however many agree: the last field
with the id of the column that agrees and is visited last. If no id repeats, this is that column. -/
theorem findField_ignoringCase_iff (hknown : s.asStruct.unknown? = none)
    (hnames : s.HasDistinctNames) :
    ((∀ path f, s.Reached path f → ¬ Agrees name path) →
        s.findField (.name name) false = .error (.noFieldWithName name false)) ∧
      ((∃ path f, s.Reached path f ∧ Agrees name path) →
        Succeeds (s.findField (.name name) false)) ∧
      (∀ f, s.findField (.name name) false = .ok f ↔
        ∃ c, IsLast (fun c => Agrees name c.1) s.located c ∧
          IsLast (fun g => g.id = c.2.id) s.asStruct.allFields f) ∧
      (s.HasDistinctIds → ∀ f, s.findField (.name name) false = .ok f ↔
        ∃ path, IsLast (fun c => Agrees name c.1) s.located (path, f)) := by
  -- The last column that agrees gives an id, and the last field with this id is the result.
  have hfound (f : Field) : s.findField (.name name) false = .ok f ↔
      ∃ c, IsLast (fun c => Agrees name c.1) s.located c ∧
        IsLast (fun g => g.id = c.2.id) s.asStruct.allFields f := by
    rw [findField_ignoringCase_eq hknown hnames]
    constructor
    · intro h
      split at h
      · rename_i id hid
        obtain ⟨c, hc, rfl⟩ := idOfName?_ignoringCase.mp hid
        exact ⟨c, hc, (fieldWithId_eq_ok_iff hknown).mp h⟩
      · simp at h
    · rintro ⟨c, hc, hf⟩
      rw [idOfName?_ignoringCase.mpr ⟨c, hc, rfl⟩]
      exact (fieldWithId_eq_ok_iff hknown).mpr hf
  refine ⟨fun hnone => ?_, fun ⟨path, f, hf, hagrees⟩ => ?_, hfound, fun hids f => ?_⟩
  · rw [findField_ignoringCase_eq hknown hnames]
    split
    · rename_i id hid
      obtain ⟨c, hc, -⟩ := idOfName?_ignoringCase.mp hid
      exact absurd hc.mem.2 (hnone c.1 c.2 (mem_located.mp hc.mem.1))
    · rfl
  · have hsome : ∃ c ∈ s.located, Agrees name c.1 := ⟨(path, f), mem_located.mpr hf, hagrees⟩
    obtain ⟨c, hc⟩ := exists_isLast hsome
    have hmem : c.2 ∈ s.asStruct.allFields := mem_allFields (mem_located.mp hc.mem.1)
    obtain ⟨g, hg⟩ := exists_isLast (p := fun g : Field => g.id = c.2.id) ⟨c.2, hmem, rfl⟩
    exact ⟨g, (hfound g).mpr ⟨c, hc, hg⟩⟩
  · rw [hfound]
    constructor
    · -- With distinct ids the second search finds the column of the first.
      rintro ⟨⟨path, g⟩, hc, hf⟩
      have hg : g ∈ s.asStruct.allFields := mem_allFields (mem_located.mp hc.mem.1)
      have hfg : f = g := (isLast_id_iff hids hg).mp hf
      exact ⟨path, hfg ▸ hc⟩
    · rintro ⟨path, hc⟩
      have hf : f ∈ s.asStruct.allFields := mem_allFields (mem_located.mp hc.mem.1)
      exact ⟨(path, f), hc, (isLast_id_iff hids hf).mpr rfl⟩

/-- A column inside a struct, asked for in other letters. -/
theorem findField_ignoringCase_nested :
    let inner : Field := ⟨2, "Lat", .primitive .double, false, none⟩
    let schema := Schema.ofFields [⟨1, "place", .struct [inner], false, none⟩]
    schema.asStruct.unknown? = none ∧ schema.HasDistinctNames ∧ schema.HasDistinctIds ∧
      IsLast (fun c => Agrees "PLACE.lAT" c.1) schema.located (["place", "Lat"], inner) ∧
      schema.findField (.name "PLACE.lAT") false = .ok inner := by
  intro inner schema
  have hnames : schema.HasDistinctNames := by
    unfold HasDistinctNames
    decide
  have hids : schema.HasDistinctIds := by decide
  have hlast : IsLast (fun c => Agrees "PLACE.lAT" c.1) schema.located (["place", "Lat"], inner) :=
    ⟨[], [(["place"], ⟨1, "place", .struct [inner], false, none⟩)], rfl, by cbv, by
      intro c hc
      rw [List.mem_singleton.mp hc]
      decide⟩
  have hfound : schema.findField (.name "PLACE.lAT") false = .ok inner :=
    ((findField_ignoringCase_iff rfl hnames).2.2.2 hids inner).mpr ⟨["place", "Lat"], hlast⟩
  exact ⟨rfl, hnames, hids, hlast, hfound⟩

/-- **Two columns agree with a name** when case is ignored, and yet one of them is found: the one that is
visited last, although the name is the other one's own. -/
theorem findField_of_agreeing_names :
    let small : Field := ⟨1, "a", .primitive .int, false, none⟩
    let capital : Field := ⟨2, "A", .primitive .int, false, none⟩
    let schema := Schema.ofFields [small, capital]
    schema.HasDistinctNames ∧ schema.HasDistinctIds ∧
      (schema.Reached ["a"] small ∧ Agrees "a" ["a"]) ∧
      (schema.Reached ["A"] capital ∧ Agrees "a" ["A"]) ∧
      schema.findField (.name "a") false = .ok capital := by
  intro small capital schema
  have hsmall : schema.Reached ["a"] small := Field.Reached.here (f := small) List.mem_cons_self
  have hcapital : schema.Reached ["A"] capital :=
    Field.Reached.here (f := capital) (List.mem_cons_of_mem _ List.mem_cons_self)
  refine ⟨?_, by decide, ⟨hsmall, by cbv⟩, ⟨hcapital, by cbv⟩, by cbv⟩
  unfold HasDistinctNames
  decide

end Schema

end PartitionPruning
