import PartitionPruning.Fault
import PartitionPruning.Json.Lenient

/-!
# Documents as integers of an index

Where an entry is asked for by an integer, any document may stand. A number or a truth value asks for
the integer that it equals, and other scalars for nothing that is there. An array or an object cannot
be asked for at all.
-/

namespace PartitionPruning.Json

/-- Whether a document can be a key. -/
def isKey : Json → Bool
  | .array _ | .object _ => false
  | _ => true

/-- The integer that a key equals, if there is one. -/
def integerKey (key : Json) : Except Fault (Option Int) :=
  if key.isKey then .ok key.whole? else .error .notHashable

end PartitionPruning.Json
