/-!
# Sets of code points as ranges

A class of characters from the Unicode standard is kept as the list of its maximal ranges, in
ascending order. `CodeRanges.contains` is the only question asked of such a list.
-/

namespace PartitionPruning.Text

abbrev CodeRanges := List (Nat × Nat)

/-- Whether the code point lies in one of the ranges. -/
def CodeRanges.contains (rs : CodeRanges) (c : Nat) : Bool :=
  rs.any fun r => r.1 ≤ c && c ≤ r.2

end PartitionPruning.Text
