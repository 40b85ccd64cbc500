import Mathlib
import PartitionPruning.Proofs.Partition.Path
import PartitionPruning.Proofs.Planner.Soundness

/-!
# Plans with and without events

Events should not change what is planned. They do not where a plan with events is found. But for each
partition that is left out the path is rendered, and if a partition has none, then the plan is lost to a
fault, which does not happen without events.

* **`skipEvents_eq_ok`** — the events of the partitions that are left out.
* **`plan_eq_iff_hasTexts`** — when a plan is the same with and without events.
* **`plan_eq_of_holds`** — partitions of the partition type have the same plan, if it has no hours.
-/

namespace PartitionPruning

open Outcome

namespace Planner

variable {planner : Planner} {source : SettingsSource} {partitions : List Value}
variable {planned found : List PlannedPartition}

theorem matchesNone_iff {r : PlannedPartition} :
    r.matchesNone = true ↔ r.residual = .constant false := by
  unfold PlannedPartition.matchesNone
  split
  · rename_i b hb
    simp [hb]
  · rename_i hnot
    simpa using hnot false

/-- One more partition adds its event if it is left out. -/
theorem skipEvents_cons {r : PlannedPartition} :
    (planner.skipEvents (r :: found)).result = .ok () ↔
      (r.matchesNone = true → Succeeds (planner.spec.path planner.schema r.partition)) ∧
        (planner.skipEvents found).result = .ok () := by
  rw [skipEvents]
  split
  · rename_i hnone
    cases planner.spec.path planner.schema r.partition with
    | ok path => simp
    | error fault => simp [hnone]
  · rename_i hsome
    simp [hsome]

/-- **Events of partitions that are left out** are found if each of these has a path. -/
theorem skipEvents_eq_ok :
    (planner.skipEvents found).result = .ok () ↔
      ∀ r ∈ found, r.matchesNone = true → planner.spec.HasTexts planner.schema r.partition := by
  induction found with
  | nil => simp [skipEvents]
  | cons r rest ih =>
    rw [skipEvents_cons, ih, List.forall_mem_cons, PartitionSpec.succeeds_path]

theorem reportKept_eq_ok :
    (planner.reportKept found).result = .ok planned ↔
      (planner.skipEvents found).result = .ok () ∧ planned = kept found := by
  simp only [reportKept]
  cases hskipped : (planner.skipEvents found).result with
  | ok u => simp [eq_comm]
  | error fault => simp

/-- The partitions that are left out are those whose residual is false. -/
theorem forall_leftOut_iff (hfound : planner.residuals partitions = .ok found) {q : Value → Prop} :
    (∀ r ∈ found, r.matchesNone = true → q r.partition) ↔
      ∀ d ∈ partitions, planner.evaluator.residual d = .ok (.constant false) → q d := by
  obtain ⟨hresiduals, hpositions⟩ := mem_residuals hfound
  constructor
  · intro h d hd hfalse
    obtain ⟨i, hi⟩ := List.mem_iff_getElem?.mp hd
    obtain ⟨r, hr, _, rfl⟩ := hpositions i d hi
    refine h r hr (matchesNone_iff.mpr ?_)
    exact Except.ok.inj ((hresiduals r hr).2.symm.trans hfalse)
  · intro h r hr hnone
    obtain ⟨hi, hresidual⟩ := hresiduals r hr
    rw [matchesNone_iff.mp hnone] at hresidual
    exact h r.partition (List.mem_of_getElem? hi) hresidual

/-- What is not planned without events is not planned with them, for the same reason. -/
theorem plan_error {fault : Fault} (h : (planner.plan source false partitions).result = .error fault) :
    (planner.plan source true partitions).result = .error fault := by
  unfold plan at h ⊢
  cases hpool : planner.residualsInPool source partitions with
  | error fault' => simpa [hpool] using h
  | ok found => simp [hpool] at h

/-- A plan with events is the plan without, if all partitions that are left out have a path. -/
theorem plan_eq_ok :
    (planner.plan source true partitions).result = .ok planned ↔
      (planner.plan source false partitions).result = .ok planned ∧
        ∀ d ∈ partitions, planner.evaluator.residual d = .ok (.constant false) →
          planner.spec.HasTexts planner.schema d := by
  unfold plan
  cases hpool : planner.residualsInPool source partitions with
  | error fault => simp
  | ok found =>
    have hfound : planner.residuals partitions = .ok found := by
      obtain ⟨_, _, h⟩ := bind_eq_ok.mp hpool
      obtain ⟨_, _, h⟩ := bind_eq_ok.mp h
      exact h
    simp only [if_true, Bool.false_eq_true, if_false, Except.ok.injEq]
    rw [reportKept_eq_ok, skipEvents_eq_ok, forall_leftOut_iff hfound, and_comm, eq_comm]

/-- Both outcomes are faults together, or the plan without events is also that with them. -/
theorem plan_eq_of_hasTexts
    (h : ∀ planned, (planner.plan source false partitions).result = .ok planned →
      ∀ d ∈ partitions, planner.evaluator.residual d = .ok (.constant false) →
        planner.spec.HasTexts planner.schema d) :
    (planner.plan source true partitions).result = (planner.plan source false partitions).result := by
  cases hplan : (planner.plan source false partitions).result with
  | error fault => exact plan_error hplan
  | ok planned => exact plan_eq_ok.mpr ⟨hplan, h planned hplan⟩

/-- **Plans with and without events.** A plan with events is also the plan without. The two outcomes are
the same, be it a plan or a fault, exactly if there is no plan without events or if the values of all
partitions that are left out are there and have a text. -/
theorem plan_eq_iff_hasTexts (planner : Planner) (source : SettingsSource) (partitions : List Value) :
    ((planner.plan source true partitions).result = (planner.plan source false partitions).result ↔
      ∀ planned, (planner.plan source false partitions).result = .ok planned →
        ∀ d ∈ partitions, planner.evaluator.residual d = .ok (.constant false) →
          planner.spec.HasTexts planner.schema d) ∧
      ∀ planned, (planner.plan source true partitions).result = .ok planned →
        (planner.plan source false partitions).result = .ok planned := by
  refine ⟨⟨fun heq planned hplanned => ?_, plan_eq_of_hasTexts⟩, fun planned h => (plan_eq_ok.mp h).1⟩
  exact (plan_eq_ok.mp (heq.trans hplanned)).2

/-- **A plan that is lost for an event.** The hour of a moment within 64 bits is left out by a comparison
with the start of 1970. The hour is beyond the calendar, and the partition has no path. -/
theorem plan_of_far_hour :
    let schema := Schema.ofFields [⟨1, "ts", .primitive .timestamp, false, none⟩]
    let spec : PartitionSpec := ⟨0, [⟨1, 1000, .time .hour, "ts_hour"⟩]⟩
    let early : Filter := Filter.ofPredicate (.compare .less "ts" (.long (.number 0)))
    let source : SettingsSource := ⟨[], none, none⟩
    (Transform.time .hour).apply (.primitive .timestamp) (.int (2 ^ 60)) = .ok (.int 320255973) ∧
      ∃ planner, (make source schema spec (.filter early) (some true)).result = .ok planner ∧
        (planner.plan source false [.record [.int 320255973]]).result = .ok [] ∧
        (planner.plan source true [.record [.int 320255973]]).result = .error .outOfCalendar := by
  intro schema spec early source
  let planner : Planner := ⟨schema, spec, early, true, ⟨schema, spec, early, true,
    Schema.ofFields [⟨1000, "ts_hour", .primitive .int, false, none⟩]⟩⟩
  exact ⟨by cbv, planner, rfl, by cbv, by cbv⟩

/-- **Partitions of the partition type** have the same plan with and without events, if none of its
values is an hour. -/
theorem plan_eq_of_holds {results : List Field}
    (hresults : planner.spec.resultFields planner.schema = .ok results)
    (hholds : ∀ d ∈ partitions, (DataType.struct results).holds d = true)
    (hhour : ∀ f ∈ planner.spec.fields, f.transform ≠ .time .hour) :
    (planner.plan source true partitions).result = (planner.plan source false partitions).result :=
  plan_eq_of_hasTexts fun _ _ d hd _ => PartitionSpec.hasTexts_of_holds hresults (hholds d hd) hhour

end Planner

end PartitionPruning
