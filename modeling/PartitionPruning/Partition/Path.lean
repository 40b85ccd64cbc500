import PartitionPruning.Partition.Spec
import PartitionPruning.Text.Percent
import PartitionPruning.Transform.Human

/-!
# Partition paths

A partition is written as a path with a segment `name=value` for each partition field. Names and
values are percent-encoded, so that neither holds one of the marks that the path is taken apart by.
-/

namespace PartitionPruning

namespace PartitionField

/-- The segment of a value, for the type of the partition values. -/
def segment (f : PartitionField) (type : DataType) (v : Value) : Except Fault String := do
  let text ← f.transform.human type v
  pure (Text.Percent.encode f.name ++ "=" ++ Text.Percent.encode text)

end PartitionField

namespace PartitionSpec

/-- The segments of a partition from a position on. -/
def segmentsFrom (partition : Value) (position : Nat) :
    List (PartitionField × Field) → Except Fault (List String)
  | [] => .ok []
  | (f, result) :: rest => do
    let segment ← f.segment result.type (← partition.at position)
    pure (segment :: (← segmentsFrom partition (position + 1) rest))

def path (s : PartitionSpec) (schema : Schema) (partition : Value) : Except Fault String := do
  let results ← s.resultFields schema
  pure ("/".intercalate (← segmentsFrom partition 0 (s.fields.zip results)))

end PartitionSpec

end PartitionPruning
