import PartitionPruning.Proofs.Expr.NormalForm
import PartitionPruning.Proofs.Residual.Binding

/-!
# Residuals are what is left

A residual holds predicates of the filter in their order and nothing else, and there is nothing left
to decide in it: its own residual for the same partition is itself.

* **`substitute_residualOfLeaf_idem`** — rewriting a rewritten filter changes nothing.
* **`residual_idempotent`** — the residual of a residual is the residual.
-/

namespace PartitionPruning

namespace ResidualEvaluator

variable {spec : PartitionSpec} {schema : Schema} {caseSensitive : Bool}
variable {r : ResidualEvaluator} {d : Value} {f R : Filter}

theorem leaves_residualOfLeaf {l : Leaf} {e : Filter} (h : r.residualOfLeaf d l = .ok e) :
    e.leaves.Sublist [l] := by
  rcases residualOfLeaf_inv h with ⟨b, rfl⟩ | rfl
  · exact List.nil_sublist _
  · exact List.Sublist.refl _

/-- A predicate that was left undecided is undecided when it is asked for again. -/
theorem residualOfLeaf_of_mem {l : Leaf} (h : Expr.substitute (r.residualOfLeaf d) f = .ok R)
    (hl : l ∈ R.leaves) : r.residualOfLeaf d l = .ok (.leaf l) := by
  obtain ⟨a, _, e, he, hle⟩ := Expr.exists_leaf_of_substitute h hl
  rcases residualOfLeaf_inv he with ⟨b, rfl⟩ | rfl
  · simp [Expr.leaves] at hle
  · obtain rfl : l = a := by simpa [Expr.leaves] using hle
    exact he

/-- **Rewriting twice.** What the first rewrite left is normal and holds undecided predicates only, so
the second one builds the same tree. -/
theorem substitute_residualOfLeaf_idem (h : Expr.substitute (r.residualOfLeaf d) f = .ok R) :
    Expr.substitute (r.residualOfLeaf d) R = .ok R := by
  have hnormal : R.isNormal = true :=
    Expr.isNormal_substitute (fun _ _ => residualOfLeaf_isNormal) h
  exact Expr.substitute_of_isNormal hnormal fun _ hl => residualOfLeaf_of_mem h hl

theorem residual_eq_substitute (hpart : spec.isUnpartitioned = false)
    (hmake : make spec f caseSensitive schema = .ok r) :
    r.residual d = Expr.substitute (r.residualOfLeaf d) f := by
  obtain ⟨_, hspec, hfilter, _⟩ := make_keeps hpart hmake
  rw [residual, hspec, hfilter, hpart]
  rfl

/-- Without partition fields the residual is the filter. -/
theorem residual_eq_filter (hun : spec.isUnpartitioned = true)
    (hmake : make spec f caseSensitive schema = .ok r) : r.residual d = .ok f := by
  obtain rfl : ⟨schema, spec, f, true, Schema.ofFields []⟩ = r := by
    simpa [make, hun] using hmake
  exact residual_of_isUnpartitioned hun d

/-- The predicates of a residual are predicates of the filter, in their order. -/
theorem leaves_residual_sublist (hmake : make spec f caseSensitive schema = .ok r)
    (h : r.residual d = .ok R) : R.leaves.Sublist f.leaves := by
  cases hpart : spec.isUnpartitioned with
  | true =>
    rw [residual_eq_filter hpart hmake] at h
    rw [Except.ok.inj h]
  | false =>
    rw [residual_eq_substitute hpart hmake] at h
    exact Expr.leaves_substitute_sublist (fun _ _ _ => leaves_residualOfLeaf) h

theorem isNormal_residual (hmake : make spec f caseSensitive schema = .ok r)
    (hf : f.isNormal = true) (h : r.residual d = .ok R) : R.isNormal = true := by
  cases hpart : spec.isUnpartitioned with
  | true =>
    rw [residual_eq_filter hpart hmake] at h
    rwa [← Except.ok.inj h]
  | false =>
    rw [residual_eq_substitute hpart hmake] at h
    exact Expr.isNormal_substitute (fun _ _ => residualOfLeaf_isNormal) h

/-- A filter with some of the predicates of another one can be bound wherever that can. -/
theorem exists_bind_of_leaves_subset {s : Schema} {flag : Bool} {B : Filter}
    (hsub : R.leaves ⊆ f.leaves) (h : f.bind s flag = .ok B) : ∃ B', R.bind s flag = .ok B' :=
  Expr.exists_substitute fun l hl => Expr.exists_of_substitute h l (hsub hl)

/-- **Residuals are what is left.** The predicates of a residual are those of the filter that were not
decided, in their order and as they were given. So the residual can be bound wherever the filter can,
and for the same partition the residual of the residual is the residual. -/
theorem residual_idempotent (hmake : make spec f caseSensitive schema = .ok r)
    (h : r.residual d = .ok R) :
    R.leaves.Sublist f.leaves ∧ (f.isNormal = true → R.isNormal = true) ∧
      (∀ s flag B, f.bind s flag = .ok B → ∃ B', R.bind s flag = .ok B') ∧
      ∃ r', make spec R caseSensitive schema = .ok r' ∧ r'.residual d = .ok R := by
  have hsub := leaves_residual_sublist hmake h
  have hmake' : make spec R caseSensitive schema = .ok (r.withFilter R) := make_withFilter hmake
  refine ⟨hsub, fun hf => isNormal_residual hmake hf h,
    fun s flag B => exists_bind_of_leaves_subset hsub.subset, _, hmake', ?_⟩
  cases hpart : spec.isUnpartitioned with
  | true => exact residual_eq_filter hpart hmake'
  | false =>
    rw [residual_eq_substitute hpart hmake] at h
    rw [residual_eq_substitute hpart hmake', residualOfLeaf_withFilter]
    exact substitute_residualOfLeaf_idem h

/-- On the day of the bound the comparison is left of a conjunction with a negated test for null. -/
theorem residual_idempotent_day :
    let schema := Schema.ofFields [⟨1, "ts", .primitive .timestamp, false, none⟩]
    let spec : PartitionSpec := ⟨0, [⟨1, 1000, .time .day, "ts_day"⟩]⟩
    let late : Filter := .leaf (.unbound (.compare .greaterOrEqual "ts" (.long (.number 5))))
    let missing : Filter := .leaf (.unbound (.unary .isNull "ts"))
    let f : Filter := .and late (.not missing)
    late.leaves.Sublist f.leaves ∧ (f.isNormal = true → late.isNormal = true) ∧
      (∀ s flag B, f.bind s flag = .ok B → ∃ B', late.bind s flag = .ok B') ∧
      ∃ r', make spec late true schema = .ok r' ∧ r'.residual (.record [.int 0]) = .ok late := by
  intro schema spec late missing f
  have hmake : make spec f true schema = .ok ⟨schema, spec, f, true,
      Schema.ofFields [⟨1000, "ts_day", .primitive .date, false, none⟩]⟩ := rfl
  exact residual_idempotent hmake rfl

end ResidualEvaluator

end PartitionPruning
