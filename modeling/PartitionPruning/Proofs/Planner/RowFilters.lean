import PartitionPruning.Proofs.Filter.Reading
import PartitionPruning.Proofs.Planner.Soundness
import PartitionPruning.Proofs.Residual.Idempotence

/-!
# Row filters of planned partitions

What is left of a filter for a planned partition is bound to the table once more before rows are checked
with it. A predicate that names its column was bound when the residual was found, so it can be bound
again. A predicate that was bound by the caller is kept as it is, and cannot be bound again.

* **`succeeds_bind_residual_iff`** — when a residual can be bound.
* **`succeeds_rowFilter_iff`** — when a planned partition has a filter for its rows.
-/

namespace PartitionPruning

open Outcome (Succeeds bind_eq_ok map_eq_ok)

namespace ResidualEvaluator

variable {spec : PartitionSpec} {schema : Schema} {caseSensitive : Bool}
variable {r : ResidualEvaluator} {d : Value} {f R : Filter}

/-- An unbound predicate of which something is left could be bound. -/
theorem succeeds_bindLeaf_of_residualOfLeaf {l : Leaf} {e : Filter} (hl : l.isUnbound = true)
    (h : r.residualOfLeaf d l = .ok e) : Succeeds (Filter.bindLeaf r.schema r.caseSensitive l) := by
  cases l with
  | bound p => simp [Leaf.isUnbound] at hl
  | unbound p =>
    obtain ⟨b, hb, _⟩ := bind_eq_ok.mp h
    exact ⟨b.map .bound, by rw [Filter.bindLeaf, hb]; rfl⟩

/-- A predicate that can be bound is unbound. -/
theorem isUnbound_of_bindLeaf {l : Leaf} (h : Succeeds (Filter.bindLeaf schema caseSensitive l)) :
    l.isUnbound = true := by
  obtain ⟨e, he⟩ := h
  cases l with
  | bound p => simp [Filter.bindLeaf] at he
  | unbound p => rfl

/-- **Residuals and binding.** A residual can be bound to the schema that it was found with exactly if
its predicates are unbound. -/
theorem succeeds_bind_residual_iff (hpart : spec.isUnpartitioned = false)
    (hmake : make spec f caseSensitive schema = .ok r) (h : r.residual d = .ok R) :
    Succeeds (R.bind schema caseSensitive) ↔ ∀ l ∈ R.leaves, l.isUnbound = true := by
  obtain ⟨hschema, _, _, hcase⟩ := make_keeps hpart hmake
  rw [residual_eq_substitute hpart hmake] at h
  constructor
  · rintro ⟨B, hB⟩ l hl
    exact isUnbound_of_bindLeaf (Expr.exists_of_substitute hB l hl)
  · intro hunbound
    refine Expr.exists_substitute fun l hl => ?_
    rw [← hschema, ← hcase]
    exact succeeds_bindLeaf_of_residualOfLeaf (hunbound l hl) (residualOfLeaf_of_mem h hl)

end ResidualEvaluator

namespace Planner

variable {source source' : SettingsSource} {schema : Schema} {spec : PartitionSpec}
variable {rowFilter : RowFilter} {flag : Option Bool} {planner : Planner} {wantsEvents : Bool}
variable {partitions : List Value} {planned : List PlannedPartition} {p : PlannedPartition}

/-- What is planned for a partition is its residual. -/
theorem residual_of_mem_plan
    (hplan : (planner.plan source wantsEvents partitions).result = .ok planned) (hp : p ∈ planned) :
    planner.evaluator.residual p.partition = .ok p.residual := by
  obtain ⟨found, hfound, rfl⟩ := plan_inv hplan
  exact ((mem_residuals hfound).1 p (List.mem_filter.mp hp).1).2

/-- **Filters for rows.** The rows of a planned partition can be checked exactly if what is left of the
filter has unbound predicates only. So they can be if the filter was given as a text, or without bound
predicates. If all of its predicates were bound, they can be only if nothing is left of it. -/
theorem succeeds_rowFilter_iff (hpart : spec.isUnpartitioned = false)
    (hmake : (make source schema spec rowFilter flag).result = .ok planner)
    (hplan : (planner.plan source' wantsEvents partitions).result = .ok planned) (hp : p ∈ planned) :
    (Succeeds (planner.rowFilter p) ↔ ∀ l ∈ p.residual.leaves, l.isUnbound = true) ∧
      (∀ text, rowFilter = .text text → Succeeds (planner.rowFilter p)) ∧
      (∀ f, rowFilter = .filter f → (∀ l ∈ f.leaves, l.isUnbound = true) →
        Succeeds (planner.rowFilter p)) ∧
      ∀ f, rowFilter = .filter f → (∀ l ∈ f.leaves, l.isUnbound = false) →
        (Succeeds (planner.rowFilter p) ↔ p.residual.leaves = []) := by
  obtain ⟨hschema, _, hfilter, hevaluator⟩ := make_inv hmake
  have hresidual := residual_of_mem_plan hplan hp
  -- The residual has no leaf that the filter does not have.
  have hleaves : p.residual.leaves ⊆ planner.filter.leaves :=
    (ResidualEvaluator.leaves_residual_sublist hevaluator hresidual).subset
  have hiff : Succeeds (planner.rowFilter p) ↔ ∀ l ∈ p.residual.leaves, l.isUnbound = true := by
    rw [Planner.rowFilter, hschema]
    exact ResidualEvaluator.succeeds_bind_residual_iff hpart hevaluator hresidual
  refine ⟨hiff, ?text, ?unbound, ?bound⟩
  case text =>
    rintro text rfl
    exact hiff.mpr fun l hl => Filter.isUnbound_of_built (Filter.built_of_parse hfilter) l (hleaves hl)
  case unbound =>
    rintro f rfl hunbound
    obtain rfl := Except.ok.inj hfilter
    exact hiff.mpr fun l hl => hunbound l (hleaves hl)
  case bound =>
    rintro f rfl hbound
    obtain rfl := Except.ok.inj hfilter
    -- No leaf is both bound and unbound, so none can be left.
    refine hiff.trans ⟨fun hunbound => ?_, fun hnil => by simp [hnil]⟩
    refine List.eq_nil_iff_forall_not_mem.mpr fun l hl => ?_
    have hfalse := hbound l (hleaves hl)
    rw [hunbound l hl] at hfalse
    simp at hfalse

/-- The rows of the day of the bound can be checked with the comparison that is left there. -/
theorem succeeds_rowFilter_iff_day :
    let schema := Schema.ofFields [⟨1, "ts", .primitive .timestamp, false, none⟩]
    let spec : PartitionSpec := ⟨0, [⟨1, 1000, .time .day, "ts_day"⟩]⟩
    let late : Filter := Filter.ofPredicate (.compare .greaterOrEqual "ts" (.long (.number 5)))
    let planner : Planner := ⟨schema, spec, late, true, ⟨schema, spec, late, true,
      Schema.ofFields [⟨1000, "ts_day", .primitive .date, false, none⟩]⟩⟩
    let p : PlannedPartition := ⟨0, .record [.int 0], late⟩
    (planner.plan ⟨[], none, none⟩ false [.record [.int 0]]).result = .ok [p] ∧
      Succeeds (planner.rowFilter p) := by
  intro schema spec late planner p
  have hmake : (make ⟨[], none, none⟩ schema spec (.filter late) (some true)).result = .ok planner := rfl
  have hplan : (planner.plan ⟨[], none, none⟩ false [.record [.int 0]]).result = .ok [p] := rfl
  have hunbound : ∀ l ∈ late.leaves, l.isUnbound = true := by
    simp [late, Filter.ofPredicate, Expr.leaves, Leaf.isUnbound]
  obtain ⟨_, _, hgiven, _⟩ := succeeds_rowFilter_iff rfl hmake hplan (List.mem_singleton.mpr rfl)
  exact ⟨hplan, hgiven late rfl hunbound⟩

/-- **A planned partition whose rows cannot be checked.** The filter was bound to the schema of the
table before it was given to the planner, and the comparison is left for the day of the bound. -/
theorem rowFilter_of_bound :
    let schema := Schema.ofFields [⟨1, "ts", .primitive .timestamp, false, none⟩]
    let spec : PartitionSpec := ⟨0, [⟨1, 1000, .time .day, "ts_day"⟩]⟩
    ∃ late planner p,
      (Filter.ofPredicate (.compare .greaterOrEqual "ts" (.long (.number 5)))).bind schema true =
        .ok late ∧
      (make ⟨[], none, none⟩ schema spec (.filter late) (some true)).result = .ok planner ∧
      (planner.plan ⟨[], none, none⟩ false [.record [.int 0]]).result = .ok [p] ∧
      planner.rowFilter p =
        .error (.alreadyBound "BoundGreaterThanOrEqual(ref(ts), 5)") := by
  intro schema spec
  let ts : Column := ⟨⟨1, "ts", .primitive .timestamp, false, none⟩, ⟨0, []⟩⟩
  let late : Filter := .leaf (.bound (.compare .greaterOrEqual ts (.timestamp (.number 5))))
  refine ⟨late, ⟨schema, spec, late, true, ⟨schema, spec, late, true,
    Schema.ofFields [⟨1000, "ts_day", .primitive .date, false, none⟩]⟩⟩, ⟨0, .record [.int 0], late⟩,
    rfl, rfl, rfl, ?_⟩
  cbv

end Planner

end PartitionPruning
