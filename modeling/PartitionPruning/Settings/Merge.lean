import PartitionPruning.Json.Basic
import PartitionPruning.Text.Case

/-!
# Groups of settings

Settings form a tree: a group has named members, which are values or groups again. Merging puts one
group over another. Where both have a group of one name the groups are merged, elsewhere the upper
one counts; names keep the places that they have in the lower group, and new ones follow at the end.
-/

namespace PartitionPruning.Json

mutual

/-- A setting that is put over another one, if there is one. -/
def mergeOver (lower : Option Json) : Json → Json
  | .object upper => match lower with
    | some (.object members) => .object (Member.merge members upper)
    | _ => .object upper
  | .null => .null
  | .bool b => .bool b
  | .int n => .int n
  | .float x => .float x
  | .string s => .string s
  | .array items => .array items
termination_by structural upper => upper

/-- A group with a member put over it. -/
def Member.mergeOne (lower : List Member) : Member → List Member
  | ⟨key, value⟩ => Member.put key (mergeOver (Member.find? key lower) value) lower
termination_by structural m => m

/-- A group with another one put over it. -/
def Member.merge (lower : List Member) : List Member → List Member
  | [] => lower
  | m :: rest => Member.merge (Member.mergeOne lower m) rest
termination_by structural upper => upper

end

mutual

/-- A document with the names of all groups in lower case. Groups inside arrays stay as they are. -/
def lowerNames : Json → Json
  | .object members => .object (Member.ofPairs (Member.lowerEach members))
  | .null => .null
  | .bool b => .bool b
  | .int n => .int n
  | .float x => .float x
  | .string s => .string s
  | .array items => .array items
termination_by structural j => j

def Member.lowerOne : Member → Member
  | ⟨key, value⟩ => ⟨Text.toLower key, lowerNames value⟩
termination_by structural m => m

/-- Members with their names in lower case. -/
def Member.lowerEach : List Member → List Member
  | [] => []
  | m :: rest => Member.lowerOne m :: Member.lowerEach rest
termination_by structural members => members

end

namespace Member

/-- A group with all names in lower case. Of names that become equal the last one counts. -/
def lower (members : List Member) : List Member := ofPairs (lowerEach members)

/-- Merging one member in leaves those of other keys as they are. -/
theorem find?_mergeOne_of_ne {key other : String} (h : other ≠ key) (value : Json)
    (l : List Member) : find? other (mergeOne l ⟨key, value⟩) = find? other l := by
  simp [mergeOne, find?_put_of_ne h]

/-- A member that is merged in is merged over the one of the same key, if there is one. -/
theorem find?_mergeOne_self (key : String) (value : Json) (l : List Member) :
    find? key (mergeOne l ⟨key, value⟩) = some (mergeOver (find? key l) value) := by
  simp [mergeOne, find?_put_self]

end Member

end PartitionPruning.Json
