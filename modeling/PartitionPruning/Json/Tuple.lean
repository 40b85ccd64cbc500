import PartitionPruning.Json.Display

/-!
# Documents as keys

A key that objects are shared by is made of scalars and tuples, which never change. Arrays become
tuples, and objects tuples of pairs in the order of their members.
-/

namespace PartitionPruning

/-- A key made of scalars and tuples. -/
inductive NestedTuple where
  | scalar (j : Json)
  | tuple (items : List NestedTuple)

namespace NestedTuple

/-- The tuple of some texts in parentheses. A single one is followed by a comma. -/
def parentheses : List String → String
  | [single] => "(" ++ single ++ ",)"
  | parts => "(" ++ ", ".intercalate parts ++ ")"

mutual

def inspect : NestedTuple → String
  | .scalar j => j.inspect
  | .tuple items => parentheses (inspectItems items)
termination_by structural t => t

def inspectItems : List NestedTuple → List String
  | [] => []
  | item :: rest => inspect item :: inspectItems rest
termination_by structural items => items

end

/-- The texts of the items of a tuple are the texts of each of them. -/
theorem inspectItems_eq_map (items : List NestedTuple) :
    inspectItems items = items.map inspect := by
  induction items with
  | nil => rfl
  | cons item rest ih => simp [inspectItems, ih]

end NestedTuple

namespace Json

mutual

def toTuple : Json → NestedTuple
  | .array items => .tuple (toTuples items)
  | .object members => .tuple (pairsOf members)
  | .null => .scalar .null
  | .bool b => .scalar (.bool b)
  | .int n => .scalar (.int n)
  | .float x => .scalar (.float x)
  | .string s => .scalar (.string s)
termination_by structural j => j

/-- The keys of the items of an array. -/
def toTuples : List Json → List NestedTuple
  | [] => []
  | item :: rest => toTuple item :: toTuples rest
termination_by structural items => items

/-- The pair of a name and the key of its value. -/
def pairOf : Member → NestedTuple
  | ⟨key, value⟩ => .tuple [.scalar (.string key), toTuple value]
termination_by structural m => m

/-- The pairs of the members of an object. -/
def pairsOf : List Member → List NestedTuple
  | [] => []
  | m :: rest => pairOf m :: pairsOf rest
termination_by structural members => members

end

end Json

end PartitionPruning
