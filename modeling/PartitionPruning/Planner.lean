import PartitionPruning.Filter.Grammar
import PartitionPruning.Partition.Path
import PartitionPruning.Residual
import PartitionPruning.Settings.Basic

/-!
# Planning scans

A planner finds the residual of a row filter for each partition of a table and leaves out the
partitions that no row of can match. The others are planned in their order, each with what is still
to be checked row by row.

Planners report what they do by events. The path of a partition that is left out is rendered only if
events are wanted, and that may fail.
-/

namespace PartitionPruning

/-- A filter as it is given to a planner. -/
inductive RowFilter where
  | text (s : String)
  | filter (f : Filter)

namespace RowFilter

/-- The filter that every row satisfies. -/
def all : RowFilter := .filter (.constant true)

def toFilter : RowFilter → Except Fault Filter
  | .text s => Filter.parse s
  | .filter f => .ok f

end RowFilter

/-- What a planner reports. -/
inductive PlanEvent where
  | unpartitioned (specId : Int)
  | evaluating (specId : Int) (filter : Filter)
  | skipped (path : String)
  | planned (kept total : Nat) (filter : Filter)

namespace PlanEvent

def render : PlanEvent → String
  | .unpartitioned specId =>
    "Spec " ++ toString specId ++ " is unpartitioned, residuals are the filter itself"
  | .evaluating specId filter =>
    "Creating residual evaluator for spec " ++ toString specId ++ " and filter " ++ filter.render
  | .skipped path => "Skipping partition " ++ path
  | .planned kept total filter =>
    "Planned " ++ toString kept ++ " of " ++ toString total ++ " partitions for filter " ++
      filter.render

end PlanEvent

/-- A result with the events up to it. -/
structure Reported (α : Type) where
  events : List PlanEvent
  result : Except Fault α

/-- A partition at a position with the residual of the filter. -/
structure PlannedPartition where
  index : Nat
  partition : Value
  residual : Filter

namespace PlannedPartition

/-- Whether no row of the partition can match. -/
def matchesNone (r : PlannedPartition) : Bool :=
  match r.residual with
  | .constant b => !b
  | _ => false

/-- Whether every row of the partition matches. -/
def matchesAll (r : PlannedPartition) : Bool :=
  match r.residual with
  | .constant b => b
  | _ => false

end PlannedPartition

/-- A planner for the scans of a table. -/
structure Planner where
  schema : Schema
  spec : PartitionSpec
  filter : Filter
  caseSensitive : Bool
  evaluator : ResidualEvaluator

namespace Planner

/-! ### Making planners -/

def opening (spec : PartitionSpec) (filter : Filter) : PlanEvent :=
  if spec.isUnpartitioned then .unpartitioned spec.specId else .evaluating spec.specId filter

/-- Whether the case of names counts: as it is given, or else as it is set. -/
def caseSensitivity (source : SettingsSource) : Option Bool → Except Fault Bool
  | some b => .ok b
  | none => do (← Settings.load source).caseSensitive

/-- The planner of a filter whose case sensitivity is known. -/
def ofFilter (schema : Schema) (spec : PartitionSpec) (filter : Filter) (caseSensitive : Bool) :
    Reported Planner :=
  ⟨[opening spec filter],
    (ResidualEvaluator.make spec filter caseSensitive schema).map
      (⟨schema, spec, filter, caseSensitive, ·⟩)⟩

def make (source : SettingsSource) (schema : Schema) (spec : PartitionSpec) (rowFilter : RowFilter)
    (caseSensitive : Option Bool) : Reported Planner :=
  let known : Except Fault (Filter × Bool) := do
    let filter ← rowFilter.toFilter
    pure (filter, ← caseSensitivity source caseSensitive)
  match known with
  | .ok (filter, caseSensitive) => ofFilter schema spec filter caseSensitive
  | .error fault => ⟨[], .error fault⟩

/-! ### Planning -/

/-- The residual for a partition at a position. -/
def residualAt (p : Planner) (partition : Value) (index : Nat) : Except Fault PlannedPartition :=
  (p.evaluator.residual partition).map (⟨index, partition, ·⟩)

def residuals (p : Planner) (partitions : List Value) : Except Fault (List PlannedPartition) :=
  partitions.zipIdx.mapM fun (partition, index) => p.residualAt partition index

def kept (found : List PlannedPartition) : List PlannedPartition :=
  found.filter fun r => !r.matchesNone

/-- The events of the partitions that are left out, up to the first one whose path fails. -/
def skipEvents (p : Planner) : List PlannedPartition → Reported Unit
  | [] => ⟨[], .ok ()⟩
  | r :: rest =>
    if r.matchesNone then
      match p.spec.path p.schema r.partition with
      | .ok path =>
        let others := p.skipEvents rest
        ⟨.skipped path :: others.events, others.result⟩
      | .error fault => ⟨[], .error fault⟩
    else p.skipEvents rest

/-- The plan of the partitions whose residuals were found, with events. -/
def reportKept (p : Planner) (found : List PlannedPartition) : Reported (List PlannedPartition) :=
  let skipped := p.skipEvents found
  match skipped.result with
  | .ok () =>
    ⟨skipped.events ++ [.planned (kept found).length found.length p.filter], .ok (kept found)⟩
  | .error fault => ⟨skipped.events, .error fault⟩

/-- The residuals for all partitions, computed by the pool of workers that the settings ask for. -/
def residualsInPool (p : Planner) (source : SettingsSource) (partitions : List Value) :
    Except Fault (List PlannedPartition) := do
  let _ ← (← Settings.load source).poolSize
  p.residuals partitions

/-- The partitions to read. Events are given only if they are wanted. -/
def plan (p : Planner) (source : SettingsSource) (wantsEvents : Bool) (partitions : List Value) :
    Reported (List PlannedPartition) :=
  match p.residualsInPool source partitions with
  | .ok found => if wantsEvents then p.reportKept found else ⟨[], .ok (kept found)⟩
  | .error fault => ⟨[], .error fault⟩

/-- The filter that the rows of a planned partition are checked with, bound to the table. -/
def rowFilter (p : Planner) (r : PlannedPartition) : Except Fault Filter :=
  r.residual.bind p.schema p.caseSensitive

/-- Events that are not wanted are not reported. -/
theorem plan_of_not_wanted (p : Planner) (source : SettingsSource) (partitions : List Value) :
    (p.plan source false partitions).events = [] := by
  unfold plan
  split <;> rfl

end Planner

end PartitionPruning
