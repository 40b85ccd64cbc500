import Mathlib
import PartitionPruning.Proofs.Residual.Soundness
import PartitionPruning.Proofs.Transform.Truncation

/-!
# When there is a residual

A filter may be bound to a schema and yet have no residual for a partition: its literals are moved,
transformed and converted once more on the way to the partition values, and each of these steps is
defined for some literals only. This module says for which filters and partitions there is one.

* **`succeeds_verdict`** — a partition field has a verdict on a predicate if its transform permits it.
* **`succeeds_decide?`** — a predicate is decided if the verdicts that are asked for exist.
* **`succeeds_residual`** — there is a residual if each predicate of the filter can be decided.
* **`residual_of_wide_set`** — a filter that binds and has no residual.
-/

namespace PartitionPruning

open Outcome

/-! ## Typed partitions and bound predicates -/

namespace PartitionSpec

/-- Whether each partition value is null or of the type of its partition field. -/
def Admits (spec : PartitionSpec) (schema : Schema) (d : Value) : Prop :=
  ∀ i f, spec.fields[i]? = some f → ∀ s, schema.fieldWithId (.number f.sourceId) = .ok s →
    ∃ q a, f.transform.resultType s.type = .primitive q ∧ d.at i = .ok a ∧ q.mayHold a

/-- Whether the projection of a predicate to a partition field can be asked for a partition. -/
def Permits (spec : PartitionSpec) (d : Value) (side : Side) (p : Predicate Column)
    (f : PartitionField) : Prop :=
  ∀ i q a, spec.fields[i]? = some f → p.term.field.type = .primitive q → d.at i = .ok a →
    f.transform.Permits side q p a

end PartitionSpec

namespace Predicate

/-- What every bound predicate is: one on a column of the schema, whose literals were converted to the
type of the column and are distinct. -/
structure IsResolved (p : Predicate Column) (schema : Schema) : Prop where
  field : schema.fieldWithId (.number p.term.field.id) = .ok p.term.field
  converted : ∀ q, p.term.field.type = .primitive q → ∀ l ∈ p.literals, Literal.IsConverted q l
  distinct : Literal.Distinct p.literals

theorem isResolved_of_bind {schema : Schema} {caseSensitive : Bool} {p : Predicate String}
    {q : Predicate Column} (h : p.bind schema caseSensitive = .ok (.leaf q)) :
    q.IsResolved schema := by
  obtain ⟨c, hc, hbound⟩ := bind_eq_ok.mp h
  rcases bindTo_inv hbound with ⟨b, hconst⟩ | ⟨q', hleaf, rfl, hlits⟩
  · simp at hconst
  · obtain rfl := Expr.leaf.inj hleaf
    refine ⟨(Schema.column_inv hc).1, fun type htype l' hl' => ?_, distinct_of_bindTo hbound⟩
    obtain ⟨l, _, hll'⟩ := hlits l' hl'
    rw [htype] at hll'
    exact Literal.isConverted_of_convert hll'

end Predicate

namespace ResidualEvaluator

variable {spec : PartitionSpec} {schema : Schema} {caseSensitive : Bool} {filter : Filter}
variable {r : ResidualEvaluator} {d : Value} {p : Predicate Column}

/-! ## Verdicts that exist -/

theorem succeeds_verdict_iff {x : Projection} :
    Succeeds (r.verdict d x) ↔ ∃ o, x = .ok o ∧ ∀ e, o = some e → Succeeds (r.evaluate d e) := by
  refine succeeds_bind.trans (exists_congr fun o => and_congr_right fun _ => ?_)
  cases o with
  | none => exact ⟨fun _ => by simp, fun _ => ⟨none, rfl⟩⟩
  | some e => simp

/-- **A verdict exists** if the transform of the partition field permits the predicate. -/
theorem succeeds_verdict (hpart : spec.isUnpartitioned = false)
    (hmake : make spec filter caseSensitive schema = .ok r)
    (hspec : spec.IsUnambiguous caseSensitive) (hsources : spec.HasPrimitiveSources schema)
    (hd : spec.Admits schema d) (hp : p.IsResolved schema) (side : Side) {f : PartitionField}
    (hf : f ∈ spec.fieldsOfSource p.term.field.id) :
    Succeeds (r.fieldVerdict d p side f) ↔ spec.Permits d side p f := by
  obtain ⟨hmem, hsource⟩ : f ∈ spec.fields ∧ f.sourceId = p.term.field.id := by
    simpa [PartitionSpec.fieldsOfSource] using hf
  obtain ⟨i, hi⟩ := List.getElem?_of_mem hmem
  obtain ⟨s, hs, hcan, hcolumn⟩ := column_of_make hpart hmake hspec hsources hi
  obtain rfl : p.term.field = s := by
    rw [hsource] at hs
    exact Except.ok.inj (hp.field.symm.trans hs)
  obtain ⟨q, hq⟩ := hsources f hmem _ hs
  obtain ⟨q', a, hq', ha, hv⟩ := hd i f hi _ hs
  rw [hq] at hcan hq'
  have htype : (partitionColumn f p.term.field.type i).field.type = .primitive q' := by
    rw [partitionColumn, hq, ← hq']
  -- the projection names the partition field, whose value is asked for
  have hanswers : Succeeds (r.fieldVerdict d p side f) ↔
      (f.transform.projection side f.name p).Answers (partitionColumn f p.term.field.type i) a := by
    rw [fieldVerdict, succeeds_verdict_iff]
    refine exists_congr fun o => and_congr_right fun ho => forall₂_congr fun e he => ?_
    subst he
    rw [evaluate_eq_outcome hcolumn (get_partitionColumn f _ i ha)
      (Transform.names_projection _ _ _ _ e ho)]
  rw [hanswers, Transform.answers_iff_permits hcan hq hq' htype hv (hp.converted q hq) hp.distinct]
  -- a partition field has one position only
  constructor
  · intro h j q₁ a₁ hj hq₁ ha₁
    have hposition := (List.getElem?_eq_some_iff.mp hj).1
    obtain rfl : j = i := (List.getElem?_inj hposition (hspec.1.of_map _)).mp (hj.trans hi.symm)
    obtain rfl : q₁ = q := by simpa using hq₁.symm.trans hq
    obtain rfl : a₁ = a := Except.ok.inj (ha₁.symm.trans ha)
    exact h
  · intro h
    exact h i q a hi hq ha

/-! ## Decisions that exist -/

theorem succeeds_ruledOut {fields : List PartitionField} :
    Succeeds (r.ruledOut d p fields) ↔ ∀ before f after, fields = before ++ f :: after →
      (∀ g ∈ before, r.fieldVerdict d p .inclusive g ≠ .ok (some false)) →
        Succeeds (r.fieldVerdict d p .inclusive f) := by
  induction fields with
  | nil => simp [ruledOut]
  | cons f rest ih =>
    rw [ruledOut_cons, succeeds_bind]
    -- the first field is asked in any case, the others behind it only if it does not end the search
    constructor
    · rintro ⟨o, ho, h⟩ before g after hsplit hbefore
      rcases List.cons_eq_append_iff.mp hsplit with ⟨rfl, hg⟩ | ⟨before', rfl, hrest⟩
      · obtain ⟨rfl, _⟩ := List.cons.inj hg
        exact ⟨o, ho⟩
      · rw [List.forall_mem_cons, ho] at hbefore
        rw [if_neg (by simpa using hbefore.1)] at h
        exact ih.mp h before' g after hrest hbefore.2
    · intro h
      obtain ⟨o, ho⟩ := h [] f rest rfl (by simp)
      refine ⟨o, ho, ?_⟩
      split
      · exact succeeds_ok true
      · rename_i hfalse
        refine ih.mpr fun before g after hsplit hbefore => h (f :: before) g after (by rw [hsplit]; rfl) ?_
        rw [List.forall_mem_cons, ho]
        exact ⟨by simpa using hfalse, hbefore⟩

/-- **A decision exists** if all strict verdicts exist, and those inclusive ones that are asked for: if
there is a strict projection and none of them is true. -/
theorem succeeds_decide? : Succeeds (r.decide? d p) ↔
    (∀ f ∈ r.spec.fieldsOfSource p.term.field.id, Succeeds (r.fieldVerdict d p .strict f)) ∧
      ((∃ f ∈ r.spec.fieldsOfSource p.term.field.id, r.fieldVerdict d p .strict f ≠ .ok none) →
        (∀ f ∈ r.spec.fieldsOfSource p.term.field.id, r.fieldVerdict d p .strict f ≠ .ok (some true)) →
          Succeeds (r.ruledOut d p (r.spec.fieldsOfSource p.term.field.id))) := by
  constructor
  · rintro ⟨o, ho⟩
    obtain ⟨hverdicts, h⟩ := decide?_eq_ok.mp ho
    refine ⟨hverdicts, ?_⟩
    rintro ⟨f, hf, hsome⟩ hnot
    -- the partition was asked whether it is ruled out in the last case only
    rcases h with ⟨hnone, _⟩ | ⟨⟨g, hg, htrue⟩, _⟩ | ⟨_, _, b, hb, _⟩
    · exact absurd (hnone f hf) hsome
    · exact absurd htrue (hnot g hg)
    · exact ⟨b, hb⟩
  · rintro ⟨hverdicts, hinclusive⟩
    by_cases htrue : ∃ f ∈ r.spec.fieldsOfSource p.term.field.id,
        r.fieldVerdict d p .strict f = .ok (some true)
    · exact ⟨some true, decide?_eq_ok.mpr ⟨hverdicts, Or.inr (Or.inl ⟨htrue, rfl⟩)⟩⟩
    by_cases hsome : ∃ f ∈ r.spec.fieldsOfSource p.term.field.id,
        r.fieldVerdict d p .strict f ≠ .ok none
    · push Not at htrue
      obtain ⟨b, hb⟩ := hinclusive hsome htrue
      exact ⟨_, decide?_eq_ok.mpr ⟨hverdicts, Or.inr (Or.inr ⟨hsome, htrue, b, hb, rfl⟩)⟩⟩
    · push Not at hsome
      exact ⟨none, decide?_eq_ok.mpr ⟨hverdicts, Or.inl ⟨hsome, rfl⟩⟩⟩

/-- **What a decision asks of a predicate.** The strict projections to all partition fields are asked
for. If there is one and none of them holds, the inclusive ones are asked for in the order of the
fields, up to the first one that does not hold. -/
structure CanDecide (r : ResidualEvaluator) (d : Value) (p : Predicate Column) : Prop where
  strict : ∀ f ∈ r.spec.fieldsOfSource p.term.field.id, r.spec.Permits d .strict p f
  inclusive : (∃ f ∈ r.spec.fieldsOfSource p.term.field.id, r.fieldVerdict d p .strict f ≠ .ok none) →
    (∀ f ∈ r.spec.fieldsOfSource p.term.field.id, r.fieldVerdict d p .strict f ≠ .ok (some true)) →
      ∀ before f after, r.spec.fieldsOfSource p.term.field.id = before ++ f :: after →
        (∀ g ∈ before, r.fieldVerdict d p .inclusive g ≠ .ok (some false)) →
          r.spec.Permits d .inclusive p f

theorem succeeds_decide?_iff (hpart : spec.isUnpartitioned = false)
    (hmake : make spec filter caseSensitive schema = .ok r)
    (hspec : spec.IsUnambiguous caseSensitive) (hsources : spec.HasPrimitiveSources schema)
    (hd : spec.Admits schema d) (hp : p.IsResolved schema) :
    Succeeds (r.decide? d p) ↔ r.CanDecide d p := by
  obtain ⟨_, hkeep, _, _⟩ := make_keeps hpart hmake
  have hverdict {side : Side} {f : PartitionField}
      (hf : f ∈ r.spec.fieldsOfSource p.term.field.id) :
      Succeeds (r.fieldVerdict d p side f) ↔ r.spec.Permits d side p f := by
    rw [hkeep] at hf ⊢
    exact succeeds_verdict hpart hmake hspec hsources hd hp side hf
  rw [succeeds_decide?, succeeds_ruledOut]
  constructor
  · rintro ⟨hstrict, hinclusive⟩
    refine ⟨fun f hf => (hverdict hf).mp (hstrict f hf), fun hsome hnot before f after hsplit hbefore => ?_⟩
    -- Every field of the split is one of the fields asked.
    have hf : f ∈ r.spec.fieldsOfSource p.term.field.id := by simp [hsplit]
    exact (hverdict hf).mp (hinclusive hsome hnot before f after hsplit hbefore)
  · rintro ⟨hstrict, hinclusive⟩
    refine ⟨fun f hf => (hverdict hf).mpr (hstrict f hf),
      fun hsome hnot before f after hsplit hbefore => ?_⟩
    have hf : f ∈ r.spec.fieldsOfSource p.term.field.id := by simp [hsplit]
    exact (hverdict hf).mpr (hinclusive hsome hnot before f after hsplit hbefore)

/-! ## Residuals that exist -/

/-- What is left of an unbound predicate exists if the predicate that it is bound to is decided. -/
theorem succeeds_residualOfLeaf {p : Predicate String} {e : Expr (Predicate Column)}
    (hbind : p.bind r.schema r.caseSensitive = .ok e) :
    Succeeds (r.residualOfLeaf d (.unbound p)) ↔
      ∀ q, e = .leaf q → Succeeds (r.decide? d q) := by
  rw [residualOfLeaf, hbind, ok_bind]
  rcases Predicate.bind_inv hbind with ⟨b, rfl⟩ | ⟨q, rfl, _⟩
  · simp [residualOfBound]
  · simp [residualOfBound]

/-- **When there is a residual.** For a filter whose predicates can be bound and a partition of values of
the right types there is a residual exactly if each of the bound predicates can be decided. -/
theorem succeeds_residual (hpart : spec.isUnpartitioned = false)
    (hmake : make spec filter caseSensitive schema = .ok r)
    (hspec : spec.IsUnambiguous caseSensitive) (hsources : spec.HasPrimitiveSources schema)
    (hunbound : ∀ l ∈ filter.leaves, l.isUnbound = true)
    (hbind : ∀ p, Leaf.unbound p ∈ filter.leaves → ∃ e, p.bind schema caseSensitive = .ok e)
    (hd : spec.Admits schema d) :
    (∃ R, r.residual d = .ok R) ↔ ∀ p, Leaf.unbound p ∈ filter.leaves →
      ∀ q, p.bind schema caseSensitive = .ok (.leaf q) → r.CanDecide d q := by
  obtain ⟨hschema, hkeep, hfilter, hcase⟩ := make_keeps hpart hmake
  -- A leaf fails only in its decision: the binding was assumed to succeed.
  have hleaf {p : Predicate String} (hp : Leaf.unbound p ∈ filter.leaves) :
      Succeeds (r.residualOfLeaf d (.unbound p)) ↔
        ∀ q, p.bind schema caseSensitive = .ok (.leaf q) → r.CanDecide d q := by
    obtain ⟨e, he⟩ := hbind p hp
    rw [succeeds_residualOfLeaf (by rw [hschema, hcase, he]), he]
    simp only [Except.ok.injEq]
    refine forall₂_congr fun q hq => succeeds_decide?_iff hpart hmake hspec hsources hd ?_
    exact Predicate.isResolved_of_bind (hq ▸ he)
  rw [residual, hkeep, hpart, if_neg (by simp), hfilter]
  constructor
  · rintro ⟨R, hR⟩ p hp
    exact (hleaf hp).mp (Expr.exists_of_substitute hR _ hp)
  · intro h
    refine Expr.exists_substitute fun l hl => ?_
    cases l with
    | bound q => exact absurd (hunbound _ hl) (by simp [Leaf.isUnbound])
    | unbound p => exact (hleaf hl).mpr (h p hl)

/-- A moment of the first day is a boundary that has a day, and so has the moment before it. -/
theorem succeeds_residual_day :
    let schema := Schema.ofFields [⟨1, "ts", .primitive .timestamp, false, none⟩]
    let spec : PartitionSpec := ⟨0, [⟨1, 1000, .time .day, "ts_day"⟩]⟩
    let early : Predicate String := .compare .less "ts" (.long (.number 5))
    let r : ResidualEvaluator := ⟨schema, spec, .leaf (.unbound early), true,
      Schema.ofFields [⟨1000, "ts_day", .primitive .date, false, none⟩]⟩
    ∃ R, r.residual (.record [.int 0]) = .ok R := by
  intro schema spec early r
  let bound : Predicate Column :=
    .compare .less ⟨⟨1, "ts", .primitive .timestamp, false, none⟩, ⟨0, []⟩⟩ (.timestamp (.number 5))
  have hmake : make spec r.filter true schema = .ok r := rfl
  have hspec : spec.IsUnambiguous true := ⟨by decide, by decide⟩
  have hsources : spec.HasPrimitiveSources schema := by
    intro f hf g hg
    obtain rfl := List.mem_singleton.mp hf
    obtain rfl := Except.ok.inj hg
    exact ⟨.timestamp, rfl⟩
  have hd : spec.Admits schema (.record [.int 0]) := by
    intro i f hi s hs
    obtain ⟨rfl, rfl⟩ : i = 0 ∧ ⟨1, 1000, .time .day, "ts_day"⟩ = f := by
      simpa [spec, List.getElem?_cons] using hi
    exact ⟨.date, .int 0, rfl, rfl, Or.inr rfl⟩
  have hleaf {p : Predicate String} (hp : Leaf.unbound p ∈ r.filter.leaves) : early = p := by
    simpa [r, Expr.leaves, eq_comm] using hp
  have hpermits (side : Side) {f : PartitionField} (hf : f ∈ spec.fieldsOfSource 1) :
      spec.Permits (.record [.int 0]) side bound f := by
    intro i q a _ hq _
    obtain rfl := List.mem_singleton.mp (List.mem_of_mem_filter hf)
    obtain rfl : Primitive.timestamp = q := DataType.primitive.inj hq
    refine ⟨fun step hstep form w hform hw => ?_, trivial⟩
    -- The bound is a number well inside the calendar, and so is its day.
    obtain rfl := Option.some.inj hform
    obtain rfl := Option.some.inj hw
    cases side <;> obtain rfl := Option.some.inj hstep <;> exact ⟨by decide, by simp⟩
  refine (succeeds_residual rfl hmake hspec hsources (by simp [r, Expr.leaves, Leaf.isUnbound])
    (fun p hp => ?_) hd).mpr fun p hp q hq => ?_
  · obtain rfl := hleaf hp
    exact ⟨.leaf bound, rfl⟩
  · obtain rfl := hleaf hp
    obtain rfl : bound = q := Expr.leaf.inj (Except.ok.inj hq)
    exact ⟨fun f hf => hpermits .strict hf, fun _ _ before f after hsplit _ =>
      hpermits .inclusive (hsplit ▸ List.mem_append_right _ (List.mem_cons_self ..))⟩

/-- **A filter without a residual.** One of the literals is beyond the range of the column. Binding
keeps it in the set as a mark, which cannot be converted again for the partition value. -/
theorem residual_of_wide_set :
    let schema := Schema.ofFields [⟨1, "c", .primitive .int, false, none⟩]
    let spec : PartitionSpec := ⟨0, [⟨1, 1000, .identity, "c_part"⟩]⟩
    let among : Predicate String := .member .isIn "c" [.long (.number 5), .long (.number (2 ^ 40))]
    let r : ResidualEvaluator := ⟨schema, spec, .leaf (.unbound among), true,
      Schema.ofFields [⟨1000, "c_part", .primitive .int, false, none⟩]⟩
    make spec (.leaf (.unbound among)) true schema = .ok r ∧
      (∃ q, among.bind schema true = .ok (.leaf q)) ∧ spec.Admits schema (.record [.int 5]) ∧
      r.residual (.record [.int 5]) = .error (.markerConversion "IntAboveMax") := by
  intro schema spec among r
  refine ⟨rfl, ⟨_, by cbv⟩, ?_, by cbv⟩
  intro i f hi s hs
  obtain ⟨rfl, rfl⟩ : i = 0 ∧ ⟨1, 1000, .identity, "c_part"⟩ = f := by
    simpa [spec, List.getElem?_cons] using hi
  obtain rfl := Except.ok.inj hs
  exact ⟨.int, .int 5, rfl, rfl, Or.inr rfl⟩

end ResidualEvaluator

end PartitionPruning
