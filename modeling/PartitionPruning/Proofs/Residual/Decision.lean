import Mathlib.Data.List.ReduceOption
import PartitionPruning.Proofs.Residual.Binding
import PartitionPruning.Proofs.Schema.Lookup
import PartitionPruning.Proofs.Transform.Shape

/-!
# What a partition decides about a predicate

Each partition field that is derived from the column of a predicate has a strict and an inclusive
verdict: there is no projection, or the projection is true or false for the partition. The verdicts
decide the predicate. A projection is bound to the partition values by the name of its field, so the
fields have to be found by their names.

* **`column_of_make`** — a partition field is found at its own position by its name.
* **`evaluate_eq_outcome`** — a projection is evaluated on the value of its partition field.
* **`decide?_eq_ok`** — the verdicts behind a decision.
* **`decide?_some`**, **`decide?_none`** — what decides, and what does not.
-/

namespace PartitionPruning

open Outcome (bind_eq_ok map_eq_ok Succeeds)

/-! ## The columns of the partition values -/

namespace PartitionSpec

/-- Whether neither the ids nor the names of the partition fields repeat. -/
def IsUnambiguous (spec : PartitionSpec) (caseSensitive : Bool) : Prop :=
  (spec.fields.map PartitionField.fieldId).Nodup ∧
    (spec.fields.map fun f => Schema.nameKey caseSensitive f.name).Nodup

/-- Whether each partition field is derived from a column with a primitive type. -/
def HasPrimitiveSources (spec : PartitionSpec) (schema : Schema) : Prop :=
  ∀ f ∈ spec.fields, ∀ g, schema.fieldWithId (.number f.sourceId) = .ok g → g.IsPrimitive

/-- The field of the partition values that a partition field has. -/
theorem resultField_inv {schema : Schema} {f : PartitionField} {g : Field}
    (h : resultField schema f = .ok g) : ∃ s, schema.fieldWithId (.number f.sourceId) = .ok s ∧
      g = ⟨f.fieldId, f.name, f.transform.resultType s.type, false, none⟩ ∧
      (f.transform.canTransform s.type = true ∨ ∃ name, f.transform = .unknown name) := by
  obtain ⟨type, htype, h⟩ := bind_eq_ok.mp h
  obtain ⟨s, hs, rfl⟩ := map_eq_ok.mp htype
  refine ⟨s, hs, ?_⟩
  unfold PartitionField.resultField at h
  split at h
  · rename_i name hname
    exact ⟨(Except.ok.inj h).symm, Or.inr ⟨name, hname⟩⟩
  · split at h
    · rename_i hcan
      exact ⟨(Except.ok.inj h).symm, Or.inl hcan⟩
    · simp at h

/-- Transforms of primitive values give primitive values. -/
theorem isPrimitive_resultType {t : Transform} {type : DataType} {p : Primitive}
    (h : type = .primitive p) : ∃ q, t.resultType type = .primitive q := by
  subst h
  cases t with
  | time u => cases u <;> exact ⟨_, rfl⟩
  | _ => exact ⟨_, rfl⟩

end PartitionSpec

namespace ResidualEvaluator

variable {spec : PartitionSpec} {filter : Filter} {caseSensitive : Bool} {schema : Schema}
variable {r : ResidualEvaluator}

/-- The only partition field of a spec can be told from the others. -/
theorem isUnambiguous_of_single {f : PartitionField} (h : spec.fields = [f]) :
    spec.IsUnambiguous caseSensitive := by
  simp [PartitionSpec.IsUnambiguous, h]

/-- The column of the partition values that a partition field at a position has. -/
def partitionColumn (f : PartitionField) (source : DataType) (i : Nat) : Column :=
  ⟨⟨f.fieldId, f.name, f.transform.resultType source, false, none⟩, ⟨i, []⟩⟩

/-- **Finding a partition field.** Its name leads to its own position in the partition values. -/
theorem column_of_make (hpart : spec.isUnpartitioned = false)
    (hmake : make spec filter caseSensitive schema = .ok r)
    (hspec : spec.IsUnambiguous caseSensitive) (hsources : spec.HasPrimitiveSources schema)
    {i : Nat} {f : PartitionField} (hf : spec.fields[i]? = some f) :
    ∃ s, schema.fieldWithId (.number f.sourceId) = .ok s ∧
      (f.transform.canTransform s.type = true ∨ ∃ name, f.transform = .unknown name) ∧
      r.partitionSchema.column r.caseSensitive f.name = .ok (partitionColumn f s.type i) := by
  obtain ⟨fields, hfields, rfl⟩ := make_inv hpart hmake
  -- ids and names are those of the partition fields
  have hids : fields.map Field.id = spec.fields.map PartitionField.fieldId :=
    Outcome.map_eq_of_mapM hfields fun f g hg => by
      obtain ⟨_, _, rfl, _⟩ := PartitionSpec.resultField_inv hg
      rfl
  have hnames : (fields.map fun g => Schema.nameKey caseSensitive g.name) =
      spec.fields.map fun f => Schema.nameKey caseSensitive f.name :=
    Outcome.map_eq_of_mapM hfields fun f g hg => by
      obtain ⟨_, _, rfl, _⟩ := PartitionSpec.resultField_inv hg
      rfl
  have hflat : ∀ g ∈ fields, g.IsPrimitive := by
    intro g hg
    obtain ⟨f, hf, hfg⟩ := Outcome.exists_of_mem_result hfields hg
    obtain ⟨s, hs, rfl, _⟩ := PartitionSpec.resultField_inv hfg
    obtain ⟨p, hp⟩ := hsources f hf s hs
    exact PartitionSpec.isPrimitive_resultType hp
  obtain ⟨g, hg, hfg⟩ := Outcome.getElem?_of_mapM hfields hf
  obtain ⟨s, hs, rfl, hcan⟩ := PartitionSpec.resultField_inv hfg
  have hids' : (fields.map Field.id).Nodup := by
    rw [hids]
    exact hspec.1
  have hnames' : (fields.map fun g => Schema.nameKey caseSensitive g.name).Nodup := by
    rw [hnames]
    exact hspec.2
  have hcolumn := Schema.column_of_flat hflat hids' hnames' hg
  exact ⟨s, hs, hcan, hcolumn⟩

theorem get_partitionColumn (f : PartitionField) (source : DataType) (i : Nat) {d v : Value}
    (h : d.at i = .ok v) : (partitionColumn f source i).accessor.get d = .ok v := by
  simp [partitionColumn, Accessor.get, h, Accessor.follow]

/-! ## Verdicts -/

/-- **Evaluating a projection.** A projection that names one partition field has the outcome for the
value of that field. -/
theorem evaluate_eq_outcome {name : String} {e : Expr (Predicate String)} {c : Column} {d v : Value}
    (hc : r.partitionSchema.column r.caseSensitive name = .ok c)
    (hv : c.accessor.get d = .ok v) (hnames : Projection.Names name e) :
    r.evaluate d e = Expr.evaluate (Predicate.outcome c v) e :=
  Filter.evaluateIn_eq_outcome hc hv hnames

/-- What a projection says about a partition: nothing if there is none. -/
def verdict (r : ResidualEvaluator) (d : Value) (x : Projection) : Except Fault (Option Bool) := do
  match ← x with
  | none => pure none
  | some e => (r.evaluate d e).map some

/-- The verdict of a partition field on a predicate, from either side. -/
def fieldVerdict (r : ResidualEvaluator) (d : Value) (p : Predicate Column) (side : Side)
    (f : PartitionField) : Except Fault (Option Bool) :=
  r.verdict d (f.transform.projection side f.name p)

@[simp] theorem verdict_error (d : Value) (fault : Fault) :
    r.verdict d (.error fault) = .error fault := rfl

@[simp] theorem verdict_none (d : Value) : r.verdict d (.ok none) = .ok none := rfl

@[simp] theorem verdict_some (d : Value) (e : Expr (Predicate String)) :
    r.verdict d (.ok (some e)) = (r.evaluate d e).map some := rfl

theorem verdict_eq_some {d : Value} {x : Projection} {b : Bool} :
    r.verdict d x = .ok (some b) ↔ ∃ e, x = .ok (some e) ∧ r.evaluate d e = .ok b := by
  rcases x with fault | _ | e <;> simp [map_eq_ok]

theorem verdict_eq_none {d : Value} {x : Projection} :
    r.verdict d x = .ok none ↔ x = .ok none := by
  rcases x with fault | _ | e <;> simp [map_eq_ok]

/-! ## Decisions -/

variable {d : Value} {p : Predicate Column}

/-- Asking all projections whether one is true. -/
theorem anyTrue_eq_ok {projections : List (Expr (Predicate String))} {b : Bool} :
    r.anyTrue d projections = .ok b ↔ (∀ e ∈ projections, Succeeds (r.evaluate d e)) ∧
      (b = true ↔ ∃ e ∈ projections, r.evaluate d e = .ok true) := by
  induction projections generalizing b with
  | nil => cases b <;> simp [anyTrue]
  | cons e rest ih =>
    rw [anyTrue, bind_eq_ok, List.forall_mem_cons, List.exists_mem_cons_iff]
    constructor
    · rintro ⟨first, hfirst, h⟩
      obtain ⟨others, hothers, h⟩ := bind_eq_ok.mp h
      obtain rfl := Outcome.pure_eq_ok.mp h
      obtain ⟨hall, hiff⟩ := ih.mp hothers
      exact ⟨⟨⟨first, hfirst⟩, hall⟩, by simp [hfirst, hiff]⟩
    · rintro ⟨⟨⟨first, hfirst⟩, hall⟩, hiff⟩
      -- All projections are evaluated, also those behind one that holds.
      obtain ⟨others, hothers⟩ : ∃ others : Bool,
          others = true ↔ ∃ e ∈ rest, r.evaluate d e = .ok true := by
        by_cases h : ∃ e ∈ rest, r.evaluate d e = .ok true
        · exact ⟨true, by simpa using h⟩
        · exact ⟨false, by simpa using h⟩
      refine ⟨first, hfirst, bind_eq_ok.mpr ⟨others, ih.mpr ⟨hall, hothers⟩, ?_⟩⟩
      rw [Outcome.pure_eq_ok, Bool.eq_iff_iff, hiff, Bool.or_eq_true, hothers, hfirst, Except.ok.injEq]

/-- The inclusive verdicts are asked for one after the other up to the first one against all rows. -/
theorem ruledOut_cons (f : PartitionField) (rest : List PartitionField) :
    r.ruledOut d p (f :: rest) = r.fieldVerdict d p .inclusive f >>= fun o =>
      if o = some false then .ok true else r.ruledOut d p rest := by
  simp only [ruledOut, fieldVerdict, Transform.projection, verdict]
  cases f.transform.project f.name p with
  | error fault => rfl
  | ok o =>
    cases o with
    | none => rfl
    | some e =>
      simp only [Outcome.ok_bind]
      cases r.evaluate d e with
      | error fault => rfl
      | ok t => cases t <;> rfl

/-- The verdicts behind the answer whether the partition is ruled out. -/
theorem ruledOut_eq_ok {fields : List PartitionField} {b : Bool}
    (h : r.ruledOut d p fields = .ok b) :
    if b then ∃ f ∈ fields, r.fieldVerdict d p .inclusive f = .ok (some false)
    else ∀ f ∈ fields, ∃ o, r.fieldVerdict d p .inclusive f = .ok o ∧ o ≠ some false := by
  induction fields with
  | nil =>
    obtain rfl := Except.ok.inj h
    simp
  | cons f rest ih =>
    rw [ruledOut_cons] at h
    obtain ⟨o, ho, h⟩ := bind_eq_ok.mp h
    -- a false verdict ends the search
    by_cases hfalse : o = some false
    · subst hfalse
      obtain rfl : true = b := by simpa using h
      exact ⟨f, List.mem_cons_self .., ho⟩
    · rw [if_neg hfalse] at h
      have hrest := ih h
      cases b with
      | true =>
        obtain ⟨g, hg, hverdict⟩ := hrest
        exact ⟨g, List.mem_cons_of_mem _ hg, hverdict⟩
      | false =>
        intro g hg
        rcases List.mem_cons.mp hg with rfl | hg
        · exact ⟨o, ho, hfalse⟩
        · exact hrest g hg

section StrictVerdicts

variable {fields : List PartitionField} {strict : List (Option (Expr (Predicate String)))}

theorem mem_strict_iff (h : fields.mapM (fun f => f.transform.strictProject f.name p) = .ok strict)
    {e : Expr (Predicate String)} : e ∈ strict.reduceOption ↔
      ∃ f ∈ fields, f.transform.projection .strict f.name p = .ok (some e) := by
  rw [List.reduceOption_mem_iff]
  constructor
  · exact Outcome.exists_of_mem_result h
  · rintro ⟨f, hf, hproject⟩
    obtain ⟨o, ho, hfo⟩ := Outcome.exists_result_of_mem h hf
    obtain rfl : some e = o := Except.ok.inj (hproject.symm.trans hfo)
    exact ho

/-- A field has a strict projection or none. -/
theorem strict_cases (h : fields.mapM (fun f => f.transform.strictProject f.name p) = .ok strict)
    {f : PartitionField} (hf : f ∈ fields) :
    r.fieldVerdict d p .strict f = .ok none ∨ ∃ e ∈ strict.reduceOption,
      f.transform.projection .strict f.name p = .ok (some e) := by
  obtain ⟨o, _, hfo⟩ := Outcome.exists_result_of_mem h hf
  cases o with
  | none => exact Or.inl (verdict_eq_none.mpr hfo)
  | some e => exact Or.inr ⟨e, (mem_strict_iff h).mpr ⟨f, hf, hfo⟩, hfo⟩

/-- There are no strict projections if no field has a strict verdict. -/
theorem strict_eq_nil_iff
    (h : fields.mapM (fun f => f.transform.strictProject f.name p) = .ok strict) :
    strict.reduceOption = [] ↔ ∀ f ∈ fields, r.fieldVerdict d p .strict f = .ok none := by
  constructor
  · intro hnil f hf
    rcases strict_cases h hf with hnone | ⟨e, he, _⟩
    · exact hnone
    · simp [hnil] at he
  · intro hnone
    refine List.eq_nil_iff_forall_not_mem.mpr fun e he => ?_
    obtain ⟨f, hf, hproject⟩ := (mem_strict_iff h).mp he
    have hsome := hproject.symm.trans (verdict_eq_none.mp (hnone f hf))
    simp at hsome

/-- Asking all strict projections is asking the fields for their strict verdicts. -/
theorem anyTrue_strict_iff
    (h : fields.mapM (fun f => f.transform.strictProject f.name p) = .ok strict) {b : Bool} :
    r.anyTrue d strict.reduceOption = .ok b ↔
      (∀ f ∈ fields, Succeeds (r.fieldVerdict d p .strict f)) ∧
        (b = true ↔ ∃ f ∈ fields, r.fieldVerdict d p .strict f = .ok (some true)) := by
  -- The fields without a projection drop out of the list, and have an outcome of their own.
  have hsucceeds : (∀ e ∈ strict.reduceOption, Succeeds (r.evaluate d e)) ↔
      ∀ f ∈ fields, Succeeds (r.fieldVerdict d p .strict f) := by
    constructor
    · intro hall f hf
      rcases strict_cases h hf with hnone | ⟨e, he, hproject⟩
      · exact ⟨none, hnone⟩
      · obtain ⟨t, ht⟩ := hall e he
        exact ⟨some t, verdict_eq_some.mpr ⟨e, hproject, ht⟩⟩
    · intro hall e he
      obtain ⟨f, hf, hproject⟩ := (mem_strict_iff h).mp he
      obtain ⟨o, ho⟩ := hall f hf
      rw [fieldVerdict, hproject] at ho
      obtain ⟨t, ht, _⟩ := map_eq_ok.mp ho
      exact ⟨t, ht⟩
  have htrue : (∃ e ∈ strict.reduceOption, r.evaluate d e = .ok true) ↔
      ∃ f ∈ fields, r.fieldVerdict d p .strict f = .ok (some true) := by
    constructor
    · rintro ⟨e, he, htrue⟩
      obtain ⟨f, hf, hproject⟩ := (mem_strict_iff h).mp he
      exact ⟨f, hf, verdict_eq_some.mpr ⟨e, hproject, htrue⟩⟩
    · rintro ⟨f, hf, hverdict⟩
      obtain ⟨e, hproject, htrue⟩ := verdict_eq_some.mp hverdict
      exact ⟨e, (mem_strict_iff h).mpr ⟨f, hf, hproject⟩, htrue⟩
  rw [anyTrue_eq_ok, hsucceeds, htrue]

end StrictVerdicts

/-- **The verdicts behind a decision.** All fields have to have a strict verdict. If none of them has a
strict projection, nothing is decided. If a strict projection is true, it decides. Otherwise the
inclusive verdicts are asked for. -/
theorem decide?_eq_ok {o : Option Bool} : r.decide? d p = .ok o ↔
    (∀ f ∈ r.spec.fieldsOfSource p.term.field.id, Succeeds (r.fieldVerdict d p .strict f)) ∧
      (((∀ f ∈ r.spec.fieldsOfSource p.term.field.id, r.fieldVerdict d p .strict f = .ok none) ∧
          o = none) ∨
        ((∃ f ∈ r.spec.fieldsOfSource p.term.field.id,
          r.fieldVerdict d p .strict f = .ok (some true)) ∧ o = some true) ∨
        ((∃ f ∈ r.spec.fieldsOfSource p.term.field.id, r.fieldVerdict d p .strict f ≠ .ok none) ∧
          (∀ f ∈ r.spec.fieldsOfSource p.term.field.id,
            r.fieldVerdict d p .strict f ≠ .ok (some true)) ∧
          ∃ b, r.ruledOut d p (r.spec.fieldsOfSource p.term.field.id) = .ok b ∧
            o = if b then some false else none)) := by
  constructor
  · intro h
    obtain ⟨strict, hstrict, h⟩ := bind_eq_ok.mp h
    cases hprojections : strict.reduceOption with
    | nil =>
      rw [hprojections] at h
      have hnone := (strict_eq_nil_iff (r := r) (d := d) hstrict).mp hprojections
      exact ⟨fun f hf => ⟨none, hnone f hf⟩, Or.inl ⟨hnone, (Outcome.pure_eq_ok.mp h).symm⟩⟩
    | cons e rest =>
      rw [hprojections] at h
      obtain ⟨b, hb, h⟩ := bind_eq_ok.mp h
      -- whether a strict projection is true, and otherwise whether the partition is ruled out
      rw [← hprojections] at hb
      obtain ⟨hsucceeds, hb⟩ := (anyTrue_strict_iff hstrict).mp hb
      refine ⟨hsucceeds, Or.inr ?_⟩
      cases b with
      | true => exact Or.inl ⟨hb.mp rfl, (Outcome.pure_eq_ok.mp h).symm⟩
      | false =>
        obtain ⟨b', hb', h⟩ := bind_eq_ok.mp h
        refine Or.inr ⟨?_, fun f hf hfield => ?_, b', hb', ?_⟩
        · by_contra! hnone
          simp [(strict_eq_nil_iff hstrict).mpr hnone] at hprojections
        · simpa using hb.mpr ⟨f, hf, hfield⟩
        · cases b' <;> exact (Outcome.pure_eq_ok.mp h).symm
  · rintro ⟨hverdicts, h⟩
    -- fields with verdicts have projections, and all of these can be evaluated
    obtain ⟨strict, hstrict⟩ : Succeeds ((r.spec.fieldsOfSource p.term.field.id).mapM
        fun f => f.transform.strictProject f.name p) := by
      refine Outcome.succeeds_mapM.mpr fun f hf => ?_
      obtain ⟨o, ho⟩ := hverdicts f hf
      obtain ⟨x, hx, _⟩ := bind_eq_ok.mp ho
      exact ⟨x, hx⟩
    have hany {b : Bool} (hb : b = true ↔ ∃ f ∈ r.spec.fieldsOfSource p.term.field.id,
        r.fieldVerdict d p .strict f = .ok (some true)) :
        r.anyTrue d strict.reduceOption = .ok b :=
      (anyTrue_strict_iff hstrict).mpr ⟨hverdicts, hb⟩
    have hnil := strict_eq_nil_iff (r := r) (d := d) hstrict
    refine bind_eq_ok.mpr ⟨strict, hstrict, ?_⟩
    cases hprojections : strict.reduceOption with
    | nil =>
      have hnone := hnil.mp hprojections
      rcases h with ⟨_, rfl⟩ | ⟨⟨f, hf, hfield⟩, _⟩ | ⟨⟨f, hf, hfield⟩, _⟩
      · rfl
      · simp [hnone f hf] at hfield
      · exact absurd (hnone f hf) hfield
    | cons e rest =>
      rw [hprojections] at hany
      rcases h with ⟨hnone, _⟩ | ⟨hfield, rfl⟩ | ⟨_, hnot, b', hb', rfl⟩
      · simp [hnil.mpr hnone] at hprojections
      · exact bind_eq_ok.mpr ⟨true, hany (by simpa using hfield), rfl⟩
      · refine bind_eq_ok.mpr ⟨false, hany (by simpa using hnot), ?_⟩
        refine bind_eq_ok.mpr ⟨b', hb', ?_⟩
        cases b' <;> rfl

/-- **A predicate is decided** by a field: to be true because its strict projection is, or to be false
because its inclusive projection is. -/
theorem decide?_some {b : Bool} (h : r.decide? d p = .ok (some b)) :
    ∃ side : Side, b = side.decides ∧ ∃ f ∈ r.spec.fieldsOfSource p.term.field.id,
      r.fieldVerdict d p side f = .ok (some side.decides) := by
  obtain ⟨_, ⟨_, ho⟩ | ⟨hfield, ho⟩ | ⟨_, _, b', hb', ho⟩⟩ := decide?_eq_ok.mp h
  · simp at ho
  · exact ⟨.strict, Option.some.inj ho, hfield⟩
  · cases b' with
    | true => exact ⟨.inclusive, Option.some.inj ho, ruledOut_eq_ok hb'⟩
    | false => simp at ho

/-- **A predicate is not decided**: no field has a strict projection, or no verdict decides. -/
theorem decide?_none (h : r.decide? d p = .ok none) :
    (∀ f ∈ r.spec.fieldsOfSource p.term.field.id, r.fieldVerdict d p .strict f = .ok none) ∨
      ∀ f ∈ r.spec.fieldsOfSource p.term.field.id, ∀ side : Side,
        ∃ o, r.fieldVerdict d p side f = .ok o ∧ o ≠ some side.decides := by
  obtain ⟨hverdicts, ⟨hnone, _⟩ | ⟨_, ho⟩ | ⟨_, hnot, b', hb', ho⟩⟩ := decide?_eq_ok.mp h
  · exact Or.inl hnone
  · simp at ho
  · cases b' with
    | true => simp at ho
    | false =>
      refine Or.inr fun f hf side => ?_
      cases side with
      | inclusive => exact ruledOut_eq_ok hb' f hf
      | strict =>
        obtain ⟨o, ho⟩ := hverdicts f hf
        exact ⟨o, ho, fun htrue => hnot f hf (htrue ▸ ho)⟩

end ResidualEvaluator

end PartitionPruning
