import PartitionPruning.Planner
import PartitionPruning.Proofs.Residual.Soundness

/-!
# Plans lose no row

A plan leaves partitions out and gives the others residuals to check rows with. Reading a plan finds
the rows that the filter finds: a row satisfies the filter exactly if its partition is planned and the
row satisfies the residual there.

* **`mem_residuals`** — the residuals that are found are those of the partitions at their positions.
* **`satisfies_iff_planned`** — reading a plan finds the rows that the filter finds.
-/

namespace PartitionPruning

open Outcome (bind_eq_ok map_eq_ok)

namespace Planner

variable {source source' : SettingsSource} {schema : Schema} {spec : PartitionSpec}
variable {rowFilter : RowFilter} {flag : Option Bool} {planner : Planner} {wantsEvents : Bool}
variable {partitions : List Value} {planned found : List PlannedPartition}

/-- A planner holds what it was made of. -/
theorem make_inv (h : (make source schema spec rowFilter flag).result = .ok planner) :
    planner.schema = schema ∧ planner.spec = spec ∧ rowFilter.toFilter = .ok planner.filter ∧
      ResidualEvaluator.make spec planner.filter planner.caseSensitive schema =
        .ok planner.evaluator := by
  simp only [make] at h
  split at h
  · rename_i filter caseSensitive hknown
    obtain ⟨f, hf, hknown⟩ := bind_eq_ok.mp hknown
    obtain ⟨b, _, hknown⟩ := bind_eq_ok.mp hknown
    obtain ⟨rfl, rfl⟩ : f = filter ∧ b = caseSensitive := by simpa using hknown
    obtain ⟨r, hr, rfl⟩ := map_eq_ok.mp h
    exact ⟨rfl, rfl, hf, hr⟩
  · simp at h

/-- **A plan** keeps the partitions whose residuals do not rule them out. -/
theorem plan_inv (h : (planner.plan source wantsEvents partitions).result = .ok planned) :
    ∃ found, planner.residuals partitions = .ok found ∧ planned = kept found := by
  unfold plan at h
  split at h
  · rename_i found hfound
    obtain ⟨_, _, hfound⟩ := bind_eq_ok.mp hfound
    obtain ⟨_, _, hfound⟩ := bind_eq_ok.mp hfound
    refine ⟨found, hfound, ?_⟩
    split at h
    · -- the path of a partition that is left out may fail, but changes nothing else
      simp only [reportKept] at h
      split at h
      · exact (Except.ok.inj h).symm
      · simp at h
    · exact (Except.ok.inj h).symm
  · simp at h

/-- **Residuals by position.** What is found for a partition is at its position, and nothing else is
found. -/
theorem mem_residuals (h : planner.residuals partitions = .ok found) :
    (∀ p ∈ found, partitions[p.index]? = some p.partition ∧
        planner.evaluator.residual p.partition = .ok p.residual) ∧
      ∀ i d, partitions[i]? = some d → ∃ p ∈ found, p.index = i ∧ p.partition = d := by
  constructor
  · intro p hp
    obtain ⟨⟨d, i⟩, hmem, hresidual⟩ := Outcome.exists_of_mem_result h hp
    obtain ⟨R, hR, rfl⟩ := map_eq_ok.mp hresidual
    exact ⟨List.mem_zipIdx_iff_getElem?.mp hmem, hR⟩
  · intro i d hi
    have hmem : (d, i) ∈ partitions.zipIdx := List.mem_zipIdx_iff_getElem?.mpr hi
    obtain ⟨p, hp, hresidual⟩ := Outcome.exists_result_of_mem h hmem
    obtain ⟨R, _, rfl⟩ := map_eq_ok.mp hresidual
    exact ⟨_, hp, rfl, rfl⟩

/-- The outcome of the residual of a planned partition on a row. -/
def residualOutcome (planner : Planner) (p : PlannedPartition) (row : Value) : Except Fault Bool := do
  Filter.evaluate row (← planner.rowFilter p)

theorem residualOutcome_eq (p : PlannedPartition) (row : Value) :
    planner.residualOutcome p row =
      Filter.evaluateIn planner.schema planner.caseSensitive p.residual row := rfl

/-- A partition that is ruled out has no row on which its residual is true. -/
theorem matchesNone_of_outcome {p : PlannedPartition} {row : Value}
    (h : planner.residualOutcome p row = .ok true) : p.matchesNone = false := by
  unfold PlannedPartition.matchesNone
  split
  · rename_i b hb
    rw [residualOutcome_eq, hb] at h
    obtain rfl : b = true := Except.ok.inj h
    rfl
  · rfl

/-- **Plans lose no row.** On a row of a partition, on which the filter can be evaluated, the filter is
true exactly if the partition is planned and its residual is true. -/
theorem satisfies_iff_planned (hmake : (make source schema spec rowFilter flag).result = .ok planner)
    (hids : schema.HasDistinctIds) (hspec : spec.IsPrunable schema planner.caseSensitive)
    (hunbound : ∀ l ∈ planner.filter.leaves, l.isUnbound = true)
    (hlits : planner.filter.HasCoveredLiterals schema planner.caseSensitive)
    (hplan : (planner.plan source' wantsEvents partitions).result = .ok planned) {i : Nat}
    {partition row : Value} (hi : partitions[i]? = some partition)
    (hrow : schema.holds row = true) (hcontains : spec.Contains schema partition row) {truth : Bool}
    (htruth : Filter.evaluateIn schema planner.caseSensitive planner.filter row = .ok truth) :
    truth = true ↔ ∃ p ∈ planned, p.index = i ∧ p.partition = partition ∧
      planner.residualOutcome p row = .ok true := by
  obtain ⟨hschema, _, _, hevaluator⟩ := make_inv hmake
  obtain ⟨found, hfound, rfl⟩ := plan_inv hplan
  obtain ⟨hresiduals, hpositions⟩ := mem_residuals hfound
  -- whatever is found for the partition has the truth value of the filter
  have houtcome : ∀ p ∈ found, p.partition = partition →
      planner.residualOutcome p row = .ok truth := by
    rintro p hp rfl
    rw [residualOutcome_eq, hschema]
    exact ResidualEvaluator.evaluateIn_residual hevaluator hspec hids hunbound hlits hrow hcontains
      (hresiduals p hp).2 htruth
  constructor
  -- a residual that is true on a row is not the constant false, so its partition is planned
  · rintro rfl
    obtain ⟨p, hp, hindex, hpartition⟩ := hpositions i partition hi
    have htrue := houtcome p hp hpartition
    refine ⟨p, List.mem_filter.mpr ⟨hp, ?_⟩, hindex, hpartition, htrue⟩
    rw [matchesNone_of_outcome htrue]
    rfl
  · rintro ⟨p, hp, _, hpartition, htrue⟩
    have hsame := houtcome p (List.mem_filter.mp hp).1 hpartition
    exact Except.ok.inj (hsame.symm.trans htrue)

/-- A row of the day of the bound is found in the partition of that day, and the partition without a
day is left out. -/
theorem satisfies_iff_planned_day :
    let schema := Schema.ofFields [⟨1, "ts", .primitive .timestamp, false, none⟩]
    let spec : PartitionSpec := ⟨0, [⟨1, 1000, .time .day, "ts_day"⟩]⟩
    let late : Filter := .leaf (.unbound (.compare .greaterOrEqual "ts" (.long (.number 5))))
    let days : List Value := [.record [.int 0], .record [.null], .record [.int 1]]
    let planner : Planner := ⟨schema, spec, late, true, ⟨schema, spec, late, true,
      Schema.ofFields [⟨1000, "ts_day", .primitive .date, false, none⟩]⟩⟩
    let planned : List PlannedPartition :=
      [⟨0, .record [.int 0], late⟩, ⟨2, .record [.int 1], .constant true⟩]
    (planner.plan ⟨[], none, none⟩ false days).result = .ok planned ∧
      (true = true ↔ ∃ p ∈ planned, p.index = 0 ∧ p.partition = .record [.int 0] ∧
        planner.residualOutcome p (.record [.int 10]) = .ok true) := by
  intro schema spec late days planner planned
  have hmake : (make ⟨[], none, none⟩ schema spec (.filter late) (some true)).result = .ok planner := rfl
  have hplan : (planner.plan ⟨[], none, none⟩ false days).result = .ok planned := rfl
  have hsource {g : Field} (hg : schema.fieldWithId (.number 1) = .ok g) :
      g = ⟨1, "ts", .primitive .timestamp, false, none⟩ := (Except.ok.inj hg).symm
  have hspec : spec.IsPrunable schema true := by
    refine ⟨⟨by decide, by decide⟩, ?_, ?_⟩
    · intro f hf g hg
      obtain rfl := List.mem_singleton.mp hf
      exact ⟨.timestamp, by rw [hsource hg]⟩
    · intro f hf width hwidth
      obtain rfl := List.mem_singleton.mp hf
      simp at hwidth
  have hlits : late.HasCoveredLiterals schema true := by
    intro p hp c hc q hq l hl l' hl'
    obtain rfl : p = .compare .greaterOrEqual "ts" (.long (.number 5)) := by
      simpa [late, Expr.leaves] using hp
    obtain rfl : l = .long (.number 5) := List.mem_singleton.mp hl
    obtain rfl : ⟨⟨1, "ts", .primitive .timestamp, false, none⟩, ⟨0, []⟩⟩ = c := Except.ok.inj hc
    obtain rfl : Primitive.timestamp = q := by simpa using hq
    obtain rfl := Except.ok.inj hl'
    decide
  -- The row is ten microseconds into the first day, where the filter is not decided.
  have hcontains : spec.Contains schema (.record [.int 0]) (.record [.int 10]) := by
    intro i f hi _
    obtain ⟨rfl, rfl⟩ : i = 0 ∧ ⟨1, 1000, .time .day, "ts_day"⟩ = f := by
      simpa [spec, List.getElem?_cons] using hi
    exact ⟨_, _, _, .int 0, _, rfl, rfl, rfl, rfl, rfl, Or.inl rfl⟩
  exact ⟨hplan, satisfies_iff_planned hmake (by decide) hspec
    (by simp [planner, late, Expr.leaves, Leaf.isUnbound]) hlits hplan rfl rfl hcontains rfl⟩

end Planner

end PartitionPruning
