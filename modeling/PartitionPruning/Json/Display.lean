import PartitionPruning.Json.Basic
import PartitionPruning.Text.Quoted

/-!
# Documents in messages

In messages a document is written with capitalised truth values, `None` for null and quoted strings. A
string that is the whole document stands without quotation marks.
-/

namespace PartitionPruning.Json

mutual

/-- The text of a document inside another one. -/
def inspect : Json → String
  | .null => "None"
  | .bool b => if b then "True" else "False"
  | .int n => toString n
  | .float x => x.render
  | .string s => Text.quote s
  | .array items => "[" ++ ", ".intercalate (inspectItems items) ++ "]"
  | .object members => "\x7b" ++ ", ".intercalate (inspectMembers members) ++ "\x7d"
termination_by structural j => j

/-- The texts of the items of an array. -/
def inspectItems : List Json → List String
  | [] => []
  | item :: rest => inspect item :: inspectItems rest
termination_by structural items => items

/-- The text of a key and its value. -/
def inspectMember : Member → String
  | ⟨key, value⟩ => Text.quote key ++ ": " ++ inspect value
termination_by structural m => m

/-- The texts of the members of an object. -/
def inspectMembers : List Member → List String
  | [] => []
  | m :: rest => inspectMember m :: inspectMembers rest
termination_by structural members => members

end

def shown : Json → String
  | .string s => s
  | j => j.inspect

end PartitionPruning.Json
