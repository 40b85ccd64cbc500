import PartitionPruning.Proofs.Filter.Equality
import PartitionPruning.Proofs.Residual.Decision
import PartitionPruning.Proofs.Schema.Rows
import PartitionPruning.Proofs.Transform.Buckets
import PartitionPruning.Proofs.Transform.Sequences
import PartitionPruning.Proofs.Transform.Time

/-!
# Residuals keep the truth value

A row belongs to a partition if the partition values are the transformed values of the row. On such a
row the residual for the partition has the truth value of the filter, whatever the transforms are: each
verdict on a predicate is right (`Transform.SoundFor`), and so is the rewrite of the whole tree.

* **`soundFor_source`** — every transform projects the predicates on its column soundly.
* **`decide?_sound`** — what a partition decides about a predicate is true of its rows.
* **`evaluateIn_residual`** — the residual has the truth value of the filter on the rows of the partition.
-/

namespace PartitionPruning

open Outcome (bind_eq_ok map_eq_ok)

/-! ## Rows of a partition -/

namespace PartitionSpec

/-- Whether a row belongs to a partition: each partition value equals that of the column which its field
is derived from. A transform that is only known by its name says nothing. -/
def Contains (spec : PartitionSpec) (schema : Schema) (partition row : Value) : Prop :=
  ∀ i f, spec.fields[i]? = some f → (∀ name, f.transform ≠ .unknown name) →
    ∃ s a v w x, schema.fieldWithId (.number f.sourceId) = .ok s ∧
      schema.accessorFor f.sourceId = .ok a ∧ a.get row = .ok v ∧
      f.transform.apply s.type v = .ok w ∧ partition.at i = .ok x ∧ x.Equals w

/-- Whether only texts and bytes are truncated. -/
def TruncatesSequences (spec : PartitionSpec) (schema : Schema) : Prop :=
  ∀ f ∈ spec.fields, ∀ width, f.transform = .truncate width →
    ∀ s, schema.fieldWithId (.number f.sourceId) = .ok s →
      s.type = .primitive .string ∨ s.type = .primitive .binary

/-- Whether the partitions of a spec are known to be pruned soundly: each partition value can be told
from the others by its name, and no numbers are truncated. -/
structure IsPrunable (spec : PartitionSpec) (schema : Schema) (caseSensitive : Bool) : Prop where
  unambiguous : spec.IsUnambiguous caseSensitive
  primitiveSources : spec.HasPrimitiveSources schema
  truncatesSequences : spec.TruncatesSequences schema

end PartitionSpec

/-- Whether the literals of a filter, once they are converted to the types of their columns, lie in the
calendar and have the exponents that scales say. -/
def Filter.HasCoveredLiterals (f : Filter) (schema : Schema) (caseSensitive : Bool) : Prop :=
  ∀ p, Leaf.unbound p ∈ f.leaves → ∀ c, schema.column caseSensitive p.term = .ok c →
    ∀ q, c.field.type = .primitive q → ∀ l ∈ p.literals, ∀ l', l.convert (.primitive q) = .ok l' →
      q.covers l'.value = true

/-- What binding gives: a predicate on a column of the schema with converted literals. -/
structure Predicate.IsBoundTo (p : Predicate Column) (schema : Schema) : Prop where
  field : schema.fieldWithId (.number p.term.field.id) = .ok p.term.field
  accessor : schema.accessorFor p.term.field.id = .ok p.term.accessor
  literals : ∀ q, p.term.field.type = .primitive q → ∀ l' ∈ p.literals,
    (∃ l : Literal, l.convert (.primitive q) = .ok l') ∧ q.covers l'.value = true

/-- The predicates of a bound filter are bound. -/
theorem Filter.isBoundTo_of_bind {schema : Schema} {caseSensitive : Bool} {f B : Filter}
    (hlits : f.HasCoveredLiterals schema caseSensitive)
    (h : f.bind schema caseSensitive = .ok B) {l : Leaf} (hl : l ∈ B.leaves) :
    ∃ p, l = .bound p ∧ p.IsBoundTo schema := by
  obtain ⟨q, p, hq, rfl, hbind⟩ := Filter.exists_bind_of_mem_leaves h hl
  obtain ⟨b, hb⟩ | ⟨p', hp', hcolumn, hconverted⟩ := Predicate.bind_inv hbind
  · simp at hb
  obtain rfl := Expr.leaf.inj hp'
  obtain ⟨hfield, haccessor⟩ := Schema.column_inv hcolumn
  refine ⟨p, rfl, hfield, haccessor, fun type htype l' hl' => ?_⟩
  obtain ⟨l, hl, hll'⟩ := hconverted l' hl'
  rw [htype] at hll'
  exact ⟨⟨l, hll'⟩, hlits q hq _ hcolumn type htype l hl l' hll'⟩

/-! ## Predicates -/

/-- A literal in the calendar of its type. -/
theorem TimeForm.inCalendar_of_covers {form : TimeForm} {q : Primitive} {w : Whole}
    (hform : (DataType.primitive q).timeForm? = some form)
    (h : q.covers (form.literal w).value = true) : form.inCalendar w.toInt = true := by
  rw [value_literal] at h
  cases q <;> simp [DataType.timeForm?] at hform <;> subst hform <;>
    simpa [Primitive.covers, Value.whole?_ofWhole] using h

/-- A truncated value is of the kind of the value. -/
theorem TruncateForm.kind_of_cut {form : TruncateForm} {width : Nat} {q : Primitive} {v w : Value}
    (hform : (DataType.primitive q).truncateForm? = some form) (hv : q.holds v = true)
    (h : form.cut width v = .ok w) : q.hasKind w = true := by
  -- The type of the column decides the form, and the form keeps the kind.
  cases q with
  | int | long =>
    obtain rfl : TruncateForm.number = form := by simpa [DataType.truncateForm?] using hform
    cases v <;> simp [Primitive.holds, Primitive.admits] at hv
    obtain rfl := Except.ok.inj h
    rfl
  | decimal precision scale =>
    obtain rfl : TruncateForm.decimal = form := by simpa [DataType.truncateForm?] using hform
    cases v <;> simp [Primitive.holds, Primitive.admits] at hv
    simp only [cut, cutDecimal] at h
    split at h
    · obtain rfl := Except.ok.inj h
      rfl
    · simp at h
  | string | binary =>
    obtain rfl : TruncateForm.sequence = form := by simpa [DataType.truncateForm?] using hform
    exact (cutSequence_inv rfl (Primitive.hasKind_of_holds hv) h).1
  | _ => simp [DataType.truncateForm?] at hform

/-- Partition values are nulls or of the kind of the partition field. -/
theorem Transform.kind_of_apply {t : Transform} {v a : Value} {q : Primitive}
    (hcan : t.canTransform (.primitive q) = true) (hv : v.isNull = true ∨ q.holds v = true)
    (ha : t.apply (.primitive q) v = .ok a) :
    a.isNull = true ∨
      ∃ q', t.resultType (.primitive q) = .primitive q' ∧ q'.hasKind a = true := by
  -- Null is sent to null by every transform; anything else is of the source's kind.
  cases hnull : v.isNull with
  | true =>
    rw [Value.eq_null_of_isNull hnull] at ha
    exact Or.inl (by rw [apply_null ha]; rfl)
  | false =>
    have hholds : q.holds v = true := by simpa [hnull] using hv
    cases t with
    | identity =>
      obtain rfl : v = a := Except.ok.inj ha
      exact Or.inr ⟨q, rfl, Primitive.hasKind_of_holds hholds⟩
    | void => exact Or.inl (by rw [← Except.ok.inj ha]; rfl)
    | unknown n => simp [canTransform] at hcan
    | bucket count =>
      obtain ⟨form, hform⟩ : ∃ form, (DataType.primitive q).hashForm? = some form :=
        Option.isSome_iff_exists.mp (by simpa [canTransform] using hcan)
      obtain ⟨k, _, rfl⟩ := apply_bucket_inv hform hnull ha
      exact Or.inr ⟨.int, rfl, rfl⟩
    | truncate width =>
      obtain ⟨form, hform⟩ : ∃ form, (DataType.primitive q).truncateForm? = some form :=
        Option.isSome_iff_exists.mp (by simpa [canTransform] using hcan)
      simp only [apply, function, hform, Outcome.ok_bind, Value.unlessNull, hnull,
        Bool.false_eq_true, if_false] at ha
      exact Or.inr ⟨q, rfl, TruncateForm.kind_of_cut hform hholds ha⟩
    | time u =>
      obtain ⟨form, hform⟩ : ∃ form, u.form? (DataType.primitive q) = some form :=
        Option.isSome_iff_exists.mp (by simpa [canTransform] using hcan)
      have hcount := hv.imp_right (TimeUnit.holds_of_timeForm? (TimeUnit.timeForm?_of_form? hform)).mp
      rcases apply_time_inv hform hcount ha with ⟨rfl, _⟩ | ⟨_, k, _, _, rfl, _⟩
      · simp [Value.isNull] at hnull
      · right
        cases u <;> exact ⟨_, rfl, rfl⟩

/-- **Every transform is sound** for the columns of the type that it is derived from. -/
theorem Transform.soundFor_source {t : Transform} {name : String} {p : Predicate Column}
    {d : Column} {v a : Value} {q : Primitive} (hp : p.term.field.type = .primitive q)
    (hcan : t.canTransform (.primitive q) = true ∨ ∃ n, t = .unknown n)
    (htruncate : ∀ width, t = .truncate width → q.isSequence = true)
    (hd : d.field.type = t.resultType (.primitive q)) (hreq : d.field.required = false)
    (hv : v.isNull = true ∨ q.holds v = true)
    (hlits : ∀ l' ∈ p.literals, (∃ l : Literal, l.convert (.primitive q) = .ok l') ∧
      q.covers l'.value = true)
    (ha : t.apply (.primitive q) v = .ok a) : t.SoundFor name p d v a := by
  cases t with
  | identity =>
    obtain rfl : v = a := Except.ok.inj ha
    exact soundFor_identity hd hreq (fun l' hl' => (hlits l' hl').1) hv
  | void => exact soundFor_void name p d v a
  | unknown n => exact soundFor_unknown n name p d v a
  | bucket count =>
    obtain ⟨form, hform⟩ : ∃ form, (DataType.primitive q).hashForm? = some form :=
      Option.isSome_iff_exists.mp (by simpa [canTransform] using hcan)
    refine soundFor_bucket hform hp hd hreq hv (fun l' hl' => ?_) ha
    obtain ⟨⟨l, hl⟩, hcovers⟩ := hlits l' hl'
    exact ⟨Literal.kind_of_convert hl, hcovers⟩
  | truncate width =>
    have hkind : v.isNull = true ∨ q.hasKind v = true := hv.imp_right Primitive.hasKind_of_holds
    refine soundFor_beginning (htruncate width rfl) hp hd hreq hkind (fun l' hl' => ?_) ha
    obtain ⟨⟨l, hl⟩, _⟩ := hlits l' hl'
    exact Literal.isConverted_of_convert hl
  | time u =>
    obtain ⟨form, hform⟩ : ∃ form, u.form? (DataType.primitive q) = some form :=
      Option.isSome_iff_exists.mp (by simpa [canTransform] using hcan)
    -- The literals were converted to the column's type, so they count what its rows count.
    have htime := TimeUnit.timeForm?_of_form? hform
    rw [TimeUnit.resultType_time] at hd
    refine soundFor_time hform hp hd hreq
      (hv.imp_right (TimeUnit.holds_of_timeForm? htime).mp) (fun l' hl' => ?_) ha
    obtain ⟨⟨l, hl⟩, hcovers⟩ := hlits l' hl'
    obtain ⟨w, rfl⟩ := TimeForm.literal_of_convert htime hl
    exact ⟨w, rfl, TimeForm.inCalendar_of_covers htime hcovers⟩

namespace ResidualEvaluator

variable {spec : PartitionSpec} {schema : Schema} {caseSensitive : Bool} {filter : Filter}
variable {r : ResidualEvaluator} {d row : Value} {p : Predicate Column}

/-- The value of a predicate on a row of a partition, the partition value of a field that is derived
from the same column, and the projections between them. What the partition holds is asked in place of
the partition value. -/
theorem soundFor_of_contains (hpart : spec.isUnpartitioned = false)
    (hmake : make spec filter caseSensitive schema = .ok r)
    (hspec : spec.IsPrunable schema caseSensitive) (hids : schema.HasDistinctIds)
    (hrow : schema.holds row = true) (hcontains : spec.Contains schema d row)
    (hp : p.IsBoundTo schema) {f : PartitionField}
    (hf : f ∈ spec.fieldsOfSource p.term.field.id) (hknown : ∀ n, f.transform ≠ .unknown n) :
    ∃ c v a, p.term.accessor.get row = .ok v ∧ f.transform.SoundFor f.name p c v a ∧
      ∀ e t, Projection.Names f.name e → r.evaluate d e = .ok t →
        Expr.evaluate (Predicate.outcome c a) e = .ok t := by
  obtain ⟨hmem, hsource⟩ : f ∈ spec.fields ∧ f.sourceId = p.term.field.id := by
    simpa [PartitionSpec.fieldsOfSource] using hf
  obtain ⟨i, hi⟩ := List.getElem?_of_mem hmem
  obtain ⟨s, hs, hcan, hcolumn⟩ :=
    column_of_make hpart hmake hspec.unambiguous hspec.primitiveSources hi
  obtain ⟨s', acc, v, a, x, hs', hacc, hv, ha, hd, hequals⟩ := hcontains i f hi hknown
  -- the column of the predicate is that of the partition field
  obtain rfl : s = s' := Except.ok.inj (hs.symm.trans hs')
  obtain rfl : p.term.field = s := by
    rw [hsource] at hs
    exact Except.ok.inj (hp.field.symm.trans hs)
  obtain rfl : p.term.accessor = acc := by
    rw [hsource] at hacc
    exact Except.ok.inj (hp.accessor.symm.trans hacc)
  obtain ⟨q, hq⟩ := hspec.primitiveSources f hmem _ hs
  have hvalue : v.isNull = true ∨ q.holds v = true := by
    obtain ⟨v', hv', hholds⟩ := Schema.get_of_accessorFor hids hrow hp.field hp.accessor
    obtain rfl : v' = v := Except.ok.inj (hv'.symm.trans hv)
    rwa [hq] at hholds
  have htruncate : ∀ width, f.transform = .truncate width → q.isSequence = true := by
    intro width hwidth
    rcases hspec.truncatesSequences f hmem width hwidth _ hs with h | h <;>
      · rw [hq] at h
        simp_all [Primitive.isSequence]
  have htype : (partitionColumn f p.term.field.type i).field.type =
      f.transform.resultType (.primitive q) := by rw [partitionColumn, hq]
  rw [hq] at ha hcan
  refine ⟨_, v, a, hv, Transform.soundFor_source hq hcan htruncate htype rfl hvalue
    (hp.literals q hq) ha, fun e t hnames ht => ?_⟩
  rw [evaluate_eq_outcome hcolumn (get_partitionColumn f _ i hd) hnames] at ht
  -- what the partition holds equals the transformed value, so projections have one outcome for both
  have hcan' : f.transform.canTransform (.primitive q) = true := by
    rcases hcan with hcan | ⟨n, hn⟩
    · exact hcan
    · exact absurd hn (hknown n)
  have hkind := Transform.kind_of_apply hcan' hvalue ha
  refine Predicate.evaluate_of_equals hnames ?_ (fun hdecimal => ?_) hequals ht
  · rcases hkind with hnull | ⟨_, _, hkind⟩
    · exact Or.inl hnull
    · exact Or.inr (Primitive.isScalar_of_hasKind hkind)
  · rcases hkind with hnull | ⟨q', hresult, hkind⟩
    · rw [Value.eq_null_of_isNull hnull] at hdecimal
      simp [Value.isDecimal] at hdecimal
    · obtain ⟨precision, scale, rfl⟩ := Primitive.decimal_of_hasKind hkind hdecimal
      exact ⟨precision, scale, htype.trans hresult⟩

/-- **Decisions are sound.** What a partition decides about a predicate is its outcome on every row of
the partition that it can be evaluated on. -/
theorem decide?_sound (hpart : spec.isUnpartitioned = false)
    (hmake : make spec filter caseSensitive schema = .ok r)
    (hspec : spec.IsPrunable schema caseSensitive) (hids : schema.HasDistinctIds)
    (hrow : schema.holds row = true) (hcontains : spec.Contains schema d row)
    (hp : p.IsBoundTo schema) {b t : Bool} (h : r.decide? d p = .ok (some b))
    (ht : p.evaluate row = .ok t) : t = b := by
  obtain ⟨_, hspec', _, _⟩ := make_keeps hpart hmake
  obtain ⟨v, hv, ht⟩ := bind_eq_ok.mp ht
  obtain ⟨side, rfl, f, hf, hverdict⟩ := decide?_some h
  obtain ⟨e, he, hdecides⟩ := verdict_eq_some.mp hverdict
  -- A transform of an unknown name has no projection, so the verdict came of another one.
  have hknown : ∀ n, f.transform ≠ .unknown n := by
    intro n hn
    cases side <;>
      simp [hn, Transform.projection, Transform.strictProject, Transform.project,
        Projection.nothing] at he
  obtain ⟨c, v', a, hv', hsound, houtcome⟩ :=
    soundFor_of_contains hpart hmake hspec hids hrow hcontains hp (hspec' ▸ hf) hknown
  obtain rfl : v' = v := Except.ok.inj (hv'.symm.trans hv)
  have hnames := Transform.names_projection _ side _ _ e he
  exact hsound side e t he (houtcome e _ hnames hdecides) ht

/-! ## Filters -/

/-- A bound predicate and what is left of it have one outcome. -/
theorem evaluate_residualOfLeaf (hpart : spec.isUnpartitioned = false)
    (hmake : make spec filter caseSensitive schema = .ok r)
    (hspec : spec.IsPrunable schema caseSensitive) (hids : schema.HasDistinctIds)
    (hrow : schema.holds row = true) (hcontains : spec.Contains schema d row)
    (hp : p.IsBoundTo schema) {x : Filter} {t : Bool}
    (h : r.residualOfLeaf d (.bound p) = .ok x)
    (ht : Filter.evaluateLeaf row (.bound p) = .ok t) : x.evaluate row = .ok t := by
  obtain ⟨o, ho, rfl⟩ := map_eq_ok.mp h
  cases o with
  | none => exact ht
  | some b =>
    obtain rfl := decide?_sound hpart hmake hspec hids hrow hcontains hp ho ht
    rfl

/-- **Residuals keep the truth value.** On every row of a partition that the filter can be evaluated on,
the residual for the partition has the truth value of the filter. -/
theorem evaluateIn_residual (hmake : make spec filter caseSensitive schema = .ok r)
    (hspec : spec.IsPrunable schema caseSensitive) (hids : schema.HasDistinctIds)
    (hunbound : ∀ l ∈ filter.leaves, l.isUnbound = true)
    (hlits : filter.HasCoveredLiterals schema caseSensitive) (hrow : schema.holds row = true)
    (hcontains : spec.Contains schema d row) {R : Filter} {t : Bool} (h : r.residual d = .ok R)
    (ht : Filter.evaluateIn schema caseSensitive filter row = .ok t) :
    Filter.evaluateIn schema caseSensitive R row = .ok t := by
  cases hpart : spec.isUnpartitioned with
  | true =>
    obtain rfl : filter = R := by
      simp only [make, hpart, if_true] at hmake
      obtain rfl := Outcome.pure_eq_ok.mp hmake
      exact Except.ok.inj ((residual_of_isUnpartitioned hpart d).symm.trans h)
    exact ht
  | false =>
    -- binding the residual gives the residual of the bound filter, which is a rewrite of its leaves
    obtain ⟨hschema, hspec', hfilter, hcase⟩ := make_keeps hpart hmake
    obtain ⟨B, hB, ht⟩ := bind_eq_ok.mp ht
    rw [residual, hspec', hpart, if_neg (by simp), hfilter] at h
    obtain ⟨B', R', hB', hBR, hRR⟩ := bind_residual_of_filter hunbound h
    rw [hschema, hcase] at hB' hRR
    obtain rfl : B' = B := Except.ok.inj (hB'.symm.trans hB)
    refine bind_eq_ok.mpr ⟨R', hRR, Expr.evaluate_substitute (fun l hl x b hx hb => ?_) hBR ht⟩
    obtain ⟨p, rfl, hp⟩ := Filter.isBoundTo_of_bind hlits hB hl
    exact evaluate_residualOfLeaf hpart hmake hspec hids hrow hcontains hp hx hb

end ResidualEvaluator

end PartitionPruning
