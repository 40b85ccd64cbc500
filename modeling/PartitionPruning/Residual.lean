import PartitionPruning.Filter.Evaluate
import PartitionPruning.Partition.Spec
import PartitionPruning.Transform.Project

/-!
# Residuals

The residual of a filter for a partition is what is left of the filter when the partition values
have decided what they can. It is false when no row of the partition can match, true when every row
does, and holds otherwise only predicates of the filter.

A predicate on a column is decided by the partition fields that are derived from the column. One
strict projection that is true for the partition is enough to decide for all rows, and one inclusive
projection that is false is enough to decide against all rows; the strict ones are asked first.
-/

namespace PartitionPruning

/-- What the residuals of a filter are computed from: the columns of the table, its partition fields,
those of the partition values, and whether the case of names counts. -/
structure ResidualEvaluator where
  schema : Schema
  spec : PartitionSpec
  filter : Filter
  caseSensitive : Bool
  partitionSchema : Schema

namespace ResidualEvaluator

/-- The evaluator of a filter. The transforms of the spec have to accept their columns. -/
def make (spec : PartitionSpec) (filter : Filter) (caseSensitive : Bool) (schema : Schema) :
    Except Fault ResidualEvaluator := do
  if spec.isUnpartitioned then
    pure ⟨schema, spec, filter, true, Schema.ofFields []⟩
  else
    let fields ← spec.resultFields schema
    pure ⟨schema, spec, filter, caseSensitive, Schema.ofFields fields⟩

/-- The outcome of a projection for a partition. -/
def evaluate (r : ResidualEvaluator) (partition : Value) (projection : Expr (Predicate String)) :
    Except Fault Bool :=
  Filter.evaluateIn r.partitionSchema r.caseSensitive (projection.map .unbound) partition

/-- Whether one of the projections is true. All of them are evaluated. -/
def anyTrue (r : ResidualEvaluator) (partition : Value) :
    List (Expr (Predicate String)) → Except Fault Bool
  | [] => .ok false
  | projection :: rest => do
    let first ← r.evaluate partition projection
    let others ← r.anyTrue partition rest
    pure (first || others)

/-- Whether an inclusive projection to one of the partition fields is false. The fields behind the
first one of this kind are not asked. -/
def ruledOut (r : ResidualEvaluator) (partition : Value) (p : Predicate Column) :
    List PartitionField → Except Fault Bool
  | [] => .ok false
  | f :: rest => do
    match ← f.transform.project f.name p with
    | none => r.ruledOut partition p rest
    | some projection =>
      if ← r.evaluate partition projection then r.ruledOut partition p rest else pure true

/-- What the partition decides about a predicate, if anything. -/
def decide? (r : ResidualEvaluator) (partition : Value) (p : Predicate Column) :
    Except Fault (Option Bool) := do
  let fields := r.spec.fieldsOfSource p.term.field.id
  let strict ← fields.mapM fun f => f.transform.strictProject f.name p
  match strict.reduceOption with
  | [] => pure none
  | projections =>
    if ← r.anyTrue partition projections then pure (some true)
    else if ← r.ruledOut partition p fields then pure (some false)
    else pure none

/-- A predicate or the constant that it is decided to be. -/
def decided (leaf : Leaf) : Option Bool → Filter
  | some b => .constant b
  | none => .leaf leaf

/-- What is left of an expression that a predicate was bound to. -/
def residualOfBound (r : ResidualEvaluator) (partition : Value) (leaf : Leaf) :
    Expr (Predicate Column) → Except Fault Filter
  | .leaf p => (r.decide? partition p).map (decided leaf)
  | e => .ok (e.map .bound)

/-- What is left of a predicate. One that names its column is bound first and kept as it is. -/
def residualOfLeaf (r : ResidualEvaluator) (partition : Value) : Leaf → Except Fault Filter
  | .bound p => (r.decide? partition p).map (decided (.bound p))
  | .unbound p => do
    r.residualOfBound partition (.unbound p) (← p.bind r.schema r.caseSensitive)

/-- What is left of the filter for a partition. -/
def residual (r : ResidualEvaluator) (partition : Value) : Except Fault Filter :=
  if r.spec.isUnpartitioned then .ok r.filter
  else Expr.substitute (r.residualOfLeaf partition) r.filter

/-- Without partition fields nothing is decided, and the filter stays whole. -/
theorem residual_of_isUnpartitioned {r : ResidualEvaluator} (h : r.spec.isUnpartitioned = true)
    (partition : Value) : r.residual partition = .ok r.filter := by
  simp [residual, h]

/-- A bound predicate is decided by the partition or stays. -/
theorem residualOfLeaf_bound (r : ResidualEvaluator) (partition : Value) (p : Predicate Column) :
    r.residualOfLeaf partition (.bound p) =
      (r.decide? partition p).map (decided (.bound p)) := rfl

end ResidualEvaluator

end PartitionPruning
