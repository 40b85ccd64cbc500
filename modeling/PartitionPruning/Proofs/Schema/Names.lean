import PartitionPruning.Proofs.Schema.Shadowing

/-!
# Full names of columns

A column at any depth is reached by a path of names: those of the structs around it and its own. The
full names of the columns are these paths with points between the names, so a name with a point in it
may stand for the same full name as a path of two.

In a schema whose types are all known, the tables for look-ups are made of the columns in the order in
which they are visited. If no id and no full name repeats, ids, full names and columns lead to each other.

* **`Schema.mem_located`** — the columns that are visited are those that are reached,
* **`Schema.idsByName_eq`** — the table of full names, before it is known whether one repeats,
* **`foldlM_addName_of_repeated`** — the first name that repeats is reported,
* **`Schema.find_reached`** — what is found by ids and by full names.
-/

namespace PartitionPruning

open Outcome (Succeeds)

/-! ## Paths -/

/-- Whether the names of a path lead to a field: to one of some fields, or into the struct that one of
them is and on from there. -/
inductive Field.Reached : List Field → List String → Field → Prop
  | here {fields : List Field} {f : Field} (h : f ∈ fields) : Reached fields [f.name] f
  | inside {fields inner : List Field} {path : List String} {f g : Field} (h : f ∈ fields)
      (htype : f.type = .struct inner) (hg : Reached inner path g) :
      Reached fields (f.name :: path) g

theorem Field.Reached.mono {fields others : List Field} {path : List String} {f : Field}
    (h : Reached fields path f) (hsub : fields ⊆ others) : Reached others path f := by
  cases h with
  | here h => exact .here (hsub h)
  | inside h htype hg => exact .inside (hsub h) htype hg

/-- The names of a path with points between them. -/
def fullName (path : List String) : String := ".".intercalate path

mutual

/-- The fields inside a type in the order in which they are visited, with the paths that lead there. -/
def DataType.located : DataType → List (List String × Field)
  | .primitive _ => []
  | .struct fields => Field.locatedList fields
  | .other .. => []
termination_by structural t => t

/-- The fields inside a field and the field itself. -/
def Field.located : Field → List (List String × Field)
  | ⟨id, name, type, required, doc⟩ =>
    (DataType.located type).map (fun c => (name :: c.1, c.2)) ++
      [([name], ⟨id, name, type, required, doc⟩)]
termination_by structural f => f

def Field.locatedList : List Field → List (List String × Field)
  | [] => []
  | f :: rest => Field.located f ++ Field.locatedList rest
termination_by structural fields => fields

end

mutual

theorem DataType.map_snd_located : ∀ t : DataType, t.located.map Prod.snd = t.allFields
  | .primitive _ => rfl
  | .struct fields => Field.map_snd_locatedList fields
  | .other .. => rfl

theorem Field.map_snd_located : ∀ f : Field, f.located.map Prod.snd = f.allInside
  | ⟨id, name, type, required, doc⟩ => by
    rw [Field.located, Field.allInside, ← DataType.map_snd_located type]
    simp

theorem Field.map_snd_locatedList : ∀ fields : List Field,
    (Field.locatedList fields).map Prod.snd = Field.allInList fields
  | [] => rfl
  | f :: rest => by
    rw [Field.locatedList, Field.allInList, List.map_append, Field.map_snd_located f,
      Field.map_snd_locatedList rest]

end

namespace Field

theorem mem_located {f : Field} {c : List String × Field} :
    c ∈ f.located ↔ (∃ d ∈ f.type.located, (f.name :: d.1, d.2) = c) ∨ c = ([f.name], f) := by
  obtain ⟨id, name, type, required, doc⟩ := f
  simp [located]

theorem mem_locatedList_of_mem {fields : List Field} {f : Field} {c : List String × Field}
    (hf : f ∈ fields) (hc : c ∈ f.located) : c ∈ locatedList fields := by
  induction fields with
  | nil => simp at hf
  | cons g rest ih =>
    rw [locatedList, List.mem_append]
    rcases List.mem_cons.mp hf with rfl | hf
    · exact Or.inl hc
    · exact Or.inr (ih hf)

/-- What is reached is visited. Induction on the path. -/
theorem Reached.mem_locatedList {fields : List Field} {path : List String} {f : Field}
    (h : Reached fields path f) : (path, f) ∈ locatedList fields := by
  induction h with
  | here h => exact mem_locatedList_of_mem h (mem_located.mpr (Or.inr rfl))
  | @inside fields inner path f g h htype _ ih =>
    refine mem_locatedList_of_mem h (mem_located.mpr (Or.inl ⟨(path, g), ?_, rfl⟩))
    rw [htype]
    exact ih

end Field

mutual

/-- What is visited inside a type is reached. Induction over types, fields and lists of fields. -/
theorem DataType.reached_of_located : ∀ (t : DataType) {c : List String × Field}, c ∈ t.located →
    ∃ fields, t = .struct fields ∧ Field.Reached fields c.1 c.2
  | .primitive _, _, h => by simp [DataType.located] at h
  | .struct fields, _, h => ⟨fields, rfl, Field.reached_of_locatedList fields h⟩
  | .other .., _, h => by simp [DataType.located] at h

theorem Field.reached_of_located : ∀ (f : Field) {c : List String × Field}, c ∈ f.located →
    Field.Reached [f] c.1 c.2
  | ⟨id, name, type, required, doc⟩, c, h => by
    rcases Field.mem_located.mp h with ⟨d, hd, rfl⟩ | rfl
    · obtain ⟨inner, htype, hreached⟩ := DataType.reached_of_located type hd
      exact .inside (List.mem_singleton.mpr rfl) htype hreached
    · exact .here (List.mem_singleton.mpr rfl)

theorem Field.reached_of_locatedList : ∀ (fields : List Field) {c : List String × Field},
    c ∈ Field.locatedList fields → Field.Reached fields c.1 c.2
  | [], _, h => by simp [Field.locatedList] at h
  | f :: rest, c, h => by
    rw [Field.locatedList, List.mem_append] at h
    rcases h with hfirst | hrest
    · exact (Field.reached_of_located f hfirst).mono (by simp)
    · exact (Field.reached_of_locatedList rest hrest).mono (List.subset_cons_self ..)

end

/-! ## Tables of names -/

theorem Field.unknownInList?_cons_eq_none {f : Field} {rest : List Field} :
    Field.unknownInList? (f :: rest) = none ↔
      f.unknown? = none ∧ Field.unknownInList? rest = none := by
  rw [Field.unknownInList?, Option.or_eq_none_iff]

mutual

/-- The entries of the names inside a known type are those of the fields that are visited. -/
theorem DataType.namesBelow_eq : ∀ (t : DataType) (path : List String), t.unknown? = none →
    t.namesBelow path = t.located.map fun c => .ok (fullName (path ++ c.1), c.2.id)
  | .primitive _, _, _ => rfl
  | .struct fields, path, h => Field.namesOfList_eq fields path h
  | .other .., _, h => by simp [DataType.unknown?] at h

theorem Field.namesOf_eq : ∀ (f : Field) (path : List String), f.unknown? = none →
    f.namesOf path = f.located.map fun c => .ok (fullName (path ++ c.1), c.2.id)
  | ⟨id, name, type, required, doc⟩, path, h => by
    rw [Field.namesOf, Field.located, DataType.namesBelow_eq type (path ++ [name]) h]
    simp [fullName]

theorem Field.namesOfList_eq : ∀ (fields : List Field) (path : List String),
    Field.unknownInList? fields = none → Field.namesOfList path fields =
      (Field.locatedList fields).map fun c => .ok (fullName (path ++ c.1), c.2.id)
  | [], _, _ => rfl
  | f :: rest, path, h => by
    obtain ⟨hfirst, hrest⟩ := Field.unknownInList?_cons_eq_none.mp h
    rw [Field.namesOfList, Field.locatedList, List.map_append, Field.namesOf_eq f path hfirst,
      Field.namesOfList_eq rest path hrest]

end

/-- **The first name that repeats** is reported with the ids of both columns. Induction on the names,
over those added before. -/
theorem foldlM_addName_of_repeated (names : List (String × Int)) {es : List (String × Int)}
    (hnames : (names.map Prod.fst).Nodup) (h : ¬ ((names ++ es).map Prod.fst).Nodup) :
    ∃ before name first second behind, es = before ++ (name, second) :: behind ∧
      (name, first) ∈ names ++ before ∧
      (es.map Except.ok).foldlM addName names = .error (.repeatedName name first second) := by
  induction es generalizing names with
  | nil => exact absurd hnames (by simpa using h)
  | cons e rest ih =>
    obtain ⟨name, id⟩ := e
    rw [List.map_cons, List.foldlM_cons]
    -- The fold stops at the first name it has seen before; until then the names are distinct.
    cases hnew : names.lookup name with
    | some first =>
      refine ⟨[], name, first, id, rest, rfl, ?_, ?_⟩
      · obtain ⟨front, back, rfl, -⟩ := List.lookup_eq_some_iff.mp hnew
        simp
      · simp [addName, hnew, throw, throwThe, MonadExceptOf.throw, Outcome.error_bind]
    | none =>
      obtain ⟨before, name', first, second, behind, rfl, hmem, herror⟩ :=
        ih (names ++ [(name, id)]) (nodup_append_of_lookup id hnames hnew) (by simpa using h)
      refine ⟨(name, id) :: before, name', first, second, behind, rfl, by simpa using hmem, ?_⟩
      have hstep : addName names (.ok (name, id)) = .ok (names ++ [(name, id)]) := by
        simp [addName, hnew, pure, Except.pure]
      rw [hstep, Outcome.ok_bind, herror]

/-- Leaving replaced entries out changes no look-up. -/
theorem lookupLast?_lastEntries {κ α : Type} [BEq κ] [LawfulBEq κ] (key : κ) (es : List (κ × α)) :
    lookupLast? key (lastEntries es) = lookupLast? key es := by
  induction es with
  | nil => rfl
  | cons e rest ih =>
    obtain ⟨k, a⟩ := e
    rw [lastEntries, lookupLast?]
    by_cases hlater : rest.any (·.1 == k) = true
    · -- the entry does not count, for a later one has its key
      rw [if_pos hlater, ih]
      by_cases hk : k = key
      · have hmem : key ∈ rest.map Prod.fst := by
          obtain ⟨e, he, heq⟩ := List.any_eq_true.mp hlater
          exact List.mem_map.mpr ⟨e, he, (beq_iff_eq.mp heq).trans hk⟩
        cases hfound : lookupLast? key rest with
        | none => exact absurd hmem (not_mem_of_lookupLast? hfound)
        | some b => rfl
      · simp [hk]
    · rw [if_neg hlater, lookupLast?, ih]

/-! ## Look-ups -/

namespace Schema

variable {s : Schema}

/-- Whether the names of a path lead to a column of a schema. -/
def Reached (s : Schema) (path : List String) (f : Field) : Prop := Field.Reached s.fields path f

/-- The columns of a schema at any depth in the order in which they are visited, with their paths. -/
def located (s : Schema) : List (List String × Field) := Field.locatedList s.fields

theorem mem_located {path : List String} {f : Field} :
    (path, f) ∈ s.located ↔ s.Reached path f :=
  ⟨Field.reached_of_locatedList s.fields, Field.Reached.mem_locatedList⟩

theorem map_snd_located : s.located.map Prod.snd = s.asStruct.allFields :=
  Field.map_snd_locatedList s.fields

/-- Whether all full names differ. -/
def HasDistinctNames (s : Schema) : Prop := (s.located.map fun c => fullName c.1).Nodup

/-- Whether two columns with different ids have the same full name. -/
def HasSharedName (s : Schema) : Prop :=
  ∃ p f q g, s.Reached p f ∧ s.Reached q g ∧ f.id ≠ g.id ∧ fullName p = fullName q

theorem nodup_located (hids : s.HasDistinctIds) : s.located.Nodup := by
  rw [HasDistinctIds, ← map_snd_located] at hids
  exact (List.Nodup.of_map _ hids).of_map _

/-- Columns with the same id are the same column, reached by the same path. -/
theorem eq_of_id_eq (hids : s.HasDistinctIds) {c d : List String × Field} (hc : c ∈ s.located)
    (hd : d ∈ s.located) (hid : c.2.id = d.2.id) : c = d := by
  rw [HasDistinctIds, ← map_snd_located, List.map_map] at hids
  exact List.inj_on_of_nodup_map hids hc hd hid

/-- Full names differ if no two columns share one. -/
theorem hasDistinctNames_iff (hids : s.HasDistinctIds) : s.HasDistinctNames ↔ ¬ s.HasSharedName := by
  rw [HasDistinctNames, List.nodup_map_iff_inj_on (nodup_located hids)]
  constructor
  · rintro hinj ⟨p, f, q, g, hf, hg, hid, hname⟩
    have heq := hinj _ (mem_located.mpr hf) _ (mem_located.mpr hg) hname
    exact hid (congrArg (fun c => c.2.id) heq)
  · intro hshared c hc d hd hname
    by_contra hne
    exact hshared ⟨c.1, c.2, d.1, d.2, mem_located.mp hc, mem_located.mp hd,
      fun hid => hne (eq_of_id_eq hids hc hd hid), hname⟩

/-- **The table of full names**: they are added one after the other, each with the id of its column. -/
theorem idsByName_eq (hknown : s.asStruct.unknown? = none) :
    s.idsByName = ((s.located.map fun c => (fullName c.1, c.2.id)).map .ok).foldlM addName [] := by
  rw [idsByName, DataType.namesBelow_eq s.asStruct [] hknown, List.map_map]
  rfl

theorem idsByName_of_distinct (hknown : s.asStruct.unknown? = none) (hnames : s.HasDistinctNames) :
    s.idsByName = .ok (s.located.map fun c => (fullName c.1, c.2.id)) := by
  rw [idsByName_eq hknown, foldlM_addName [], List.nil_append]
  simpa [HasDistinctNames, Function.comp_def] using hnames

/-- The names are not all added if one repeats, and then it belongs to two columns. -/
theorem idsByName_of_repeated (hknown : s.asStruct.unknown? = none) (hnames : ¬ s.HasDistinctNames) :
    ∃ name first second, s.idsByName = .error (.repeatedName name first second) := by
  have hrepeated : ¬ ((s.located.map fun c => (fullName c.1, c.2.id)).map Prod.fst).Nodup := by
    simpa [HasDistinctNames, Function.comp_def] using hnames
  obtain ⟨_, name, first, second, _, -, -, herror⟩ :=
    foldlM_addName_of_repeated [] List.nodup_nil hrepeated
  exact ⟨name, first, second, (idsByName_eq hknown).trans herror⟩

theorem idsByName_error_iff (hknown : s.asStruct.unknown? = none) :
    (∃ name first second, s.idsByName = .error (.repeatedName name first second)) ↔
      ¬ s.HasDistinctNames := by
  refine ⟨fun ⟨name, first, second, herror⟩ hnames => ?_, idsByName_of_repeated hknown⟩
  rw [idsByName_of_distinct hknown hnames] at herror
  simp at herror

/-- The look-up by an id in a schema of known types: the last field with the id counts. -/
theorem fieldWithId_eq (hknown : s.asStruct.unknown? = none) (id : Whole) :
    s.fieldWithId id =
      match lookupLast? id.toInt (s.asStruct.allFields.map fun f => (f.id, f)) with
      | some f => .ok f
      | none => .error (.noFieldWithId id) := by
  rw [fieldWithId, fieldsById, DataType.visited, hknown]
  rfl

theorem fieldWithId_of_mem (hknown : s.asStruct.unknown? = none) (hids : s.HasDistinctIds) {f : Field}
    (hf : f ∈ s.asStruct.allFields) : s.fieldWithId (.number f.id) = .ok f := by
  have hlook : lookupLast? f.id (s.asStruct.allFields.map fun f => (f.id, f)) = some f :=
    lookupLast?_of_mem (by simpa [HasDistinctIds, Function.comp_def] using hids)
      (List.mem_map_of_mem hf)
  rw [fieldWithId_eq hknown, Whole.toInt_number, hlook]

theorem fieldWithId_of_not_mem (hknown : s.asStruct.unknown? = none) {id : Whole}
    (h : ∀ f ∈ s.asStruct.allFields, f.id ≠ id.toInt) :
    s.fieldWithId id = .error (.noFieldWithId id) := by
  have hlook : lookupLast? id.toInt (s.asStruct.allFields.map fun f => (f.id, f)) = none :=
    lookupLast?_eq_none (by simpa using h)
  rw [fieldWithId_eq hknown, hlook]

theorem columnName_eq {names : List (String × Int)} (h : s.idsByName = .ok names) (id : Int) :
    s.columnName id = .ok (lookupLast? id (names.map fun e => (e.2, e.1))) := by
  rw [columnName, namesById, h, Outcome.map_ok, Outcome.map_ok, lookupLast?_lastEntries]

/-- A column at some depth is among all fields. -/
theorem mem_allFields {path : List String} {f : Field} (h : s.Reached path f) :
    f ∈ s.asStruct.allFields := by
  rw [← map_snd_located]
  exact List.mem_map_of_mem (f := Prod.snd) (mem_located.mpr h)

theorem exists_reached_of_mem {f : Field} (h : f ∈ s.asStruct.allFields) : ∃ path, s.Reached path f := by
  rw [← map_snd_located] at h
  obtain ⟨⟨path, g⟩, hg, rfl⟩ := List.mem_map.mp h
  exact ⟨path, mem_located.mp hg⟩

/-- **Ids and full names lead to the same columns.** In a schema in which no id repeats, at any depth, the
table of names fails exactly if two columns share a full name. If none do, each column is found by its id
and by its full name, its id has this name, and no other id or name finds anything. The types are known:
what is left out are fields whose type is no data type at all, in whose schemas nothing is looked up. -/
theorem find_reached (hknown : s.asStruct.unknown? = none) (hids : s.HasDistinctIds) :
    ((∃ name first second, s.idsByName = .error (.repeatedName name first second)) ↔
        s.HasSharedName) ∧
      (¬ s.HasSharedName →
        Succeeds s.idsByName ∧
        (∀ path f, s.Reached path f →
          (∀ caseSensitive, s.findField (.id (.number f.id)) caseSensitive = .ok f) ∧
          s.findField (.name (fullName path)) true = .ok f ∧
          s.columnName f.id = .ok (some (fullName path))) ∧
        (∀ id, (∀ path f, s.Reached path f → f.id ≠ id) →
          (∀ caseSensitive, s.findField (.id (.number id)) caseSensitive =
            .error (.noFieldWithId (.number id))) ∧
          s.columnName id = .ok none) ∧
        ∀ name, (∀ path f, s.Reached path f → fullName path ≠ name) →
          s.findField (.name name) true = .error (.noFieldWithName name true)) := by
  refine ⟨?table, fun hshared => ?_⟩
  case table => rw [idsByName_error_iff hknown, hasDistinctNames_iff hids, not_not]
  have hnames := (hasDistinctNames_iff hids).mpr hshared
  have htable := idsByName_of_distinct hknown hnames
  have hkeys : ((s.located.map fun c => (fullName c.1, c.2.id)).map Prod.fst).Nodup := by
    simpa [HasDistinctNames, Function.comp_def] using hnames
  refine ⟨⟨_, htable⟩, fun path f hf => ⟨fun _ => ?byId, ?byName, ?name⟩,
    fun id hother => ⟨fun _ => ?noId, ?noColumn⟩, fun name hother => ?noName⟩
  case byId => exact fieldWithId_of_mem hknown hids (mem_allFields hf)
  case byName =>
    -- The names are distinct, so the first entry of a name is the only one.
    have hlook : (s.located.map fun c => (fullName c.1, c.2.id)).lookup (fullName path) = some f.id :=
      lookup_of_mem hkeys (List.mem_map.mpr ⟨(path, f), mem_located.mpr hf, rfl⟩)
    simp [findField, fieldWithName, htable, idOfName?, hlook,
      fieldWithId_of_mem hknown hids (mem_allFields hf)]
  case name =>
    rw [columnName_eq htable, List.map_map, Except.ok.injEq]
    refine lookupLast?_of_mem ?_ (List.mem_map.mpr ⟨(path, f), mem_located.mpr hf, rfl⟩)
    rw [HasDistinctIds, ← map_snd_located, List.map_map] at hids
    simpa [Function.comp_def] using hids
  case noId =>
    refine fieldWithId_of_not_mem hknown fun f hf => ?_
    obtain ⟨path, hreached⟩ := exists_reached_of_mem hf
    exact hother path f hreached
  case noColumn =>
    rw [columnName_eq htable, List.map_map, Except.ok.injEq]
    refine lookupLast?_eq_none fun hmem => ?_
    obtain ⟨c, hc, rfl⟩ : ∃ c ∈ s.located, c.2.id = id := by simpa using hmem
    exact hother c.1 c.2 (mem_located.mp hc) rfl
  case noName =>
    have hlook : (s.located.map fun c => (fullName c.1, c.2.id)).lookup name = none := by
      refine lookup_eq_none_of_not_mem fun hmem => ?_
      obtain ⟨c, hc, rfl⟩ : ∃ c ∈ s.located, fullName c.1 = name := by simpa using hmem
      exact hother c.1 c.2 (mem_located.mp hc) rfl
    simp [findField, fieldWithName, htable, idOfName?, hlook]

/-- A column with a point in its name, and a struct with a column inside. -/
theorem find_reached_point :
    let inner : Field := ⟨3, "c", .primitive .int, false, none⟩
    let outer : Field := ⟨2, "a", .struct [inner], false, none⟩
    let schema := Schema.ofFields [⟨1, "a.b", .primitive .int, false, none⟩, outer]
    schema.asStruct.unknown? = none ∧ schema.HasDistinctIds ∧ ¬ schema.HasSharedName ∧
      schema.Reached ["a", "c"] inner ∧
      schema.findField (.name "a.c") true = .ok inner ∧ schema.columnName 3 = .ok (some "a.c") := by
  intro inner outer schema
  have hids : schema.HasDistinctIds := by decide
  have hnames : schema.HasDistinctNames := by
    unfold HasDistinctNames
    decide
  have hshared := (hasDistinctNames_iff hids).mp hnames
  -- The name with a dot in it is told apart from the path by its letters only.
  have hreached : schema.Reached ["a", "c"] inner :=
    .inside (f := outer) (by simp [schema, ofFields]) rfl (.here (List.mem_singleton.mpr rfl))
  obtain ⟨-, hfind⟩ := find_reached (s := schema) rfl hids
  obtain ⟨-, hcolumns, -⟩ := hfind hshared
  obtain ⟨-, hname, hcolumn⟩ := hcolumns _ _ hreached
  exact ⟨rfl, hids, hshared, hreached, hname, hcolumn⟩

end Schema

end PartitionPruning
