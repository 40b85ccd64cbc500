import PartitionPruning.DataType.Metadata
import PartitionPruning.Value.Basic

/-!
# Documents as values

A document that names a type or describes a struct is a type as a value. Any other one is the value
that it is: a scalar, a list, or an object of which only its text is known.
-/

namespace PartitionPruning.Value

mutual

/-- A document that is no type, as a value. -/
def ofPlain : Json → Value
  | .null => .null
  | .bool b => .bool b
  | .int n => .int n
  | .float x => .float x
  | .string s => .text s
  | .array items => .list (ofPlainList items)
  | .object members =>
    .type (.other (Json.object members).inspect (Json.object members).inspect)
termination_by structural j => j

def ofPlainList : List Json → List Value
  | [] => []
  | j :: rest => ofPlain j :: ofPlainList rest
termination_by structural js => js

end

/-- A document as a type, if it is one, or else as the value that it is. -/
def ofDocument (j : Json) : Except Fault Value := do
  match ← DataType.ofJson j with
  | .other .. => pure (ofPlain j)
  | t => pure (.type t)

/-- The values of the items of an array are read one by one. -/
theorem ofPlainList_eq_map (js : List Json) : ofPlainList js = js.map ofPlain := by
  induction js with
  | nil => rfl
  | cons j rest ih => simp [ofPlainList, ih]

end PartitionPruning.Value
