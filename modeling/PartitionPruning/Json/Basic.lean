import PartitionPruning.Numeral.Binary64

/-!
# JSON documents

Metadata and settings are JSON documents. The members of an object keep their order, integers are
exact and apart from them there are double-precision numbers.

`Json.Member.find?` looks a key up, `Json.Member.put` sets a key in place or adds it at the end.
-/

namespace PartitionPruning

mutual

/-- A JSON document. -/
inductive Json where
  | null
  | bool (b : Bool)
  | int (n : Int)
  | float (x : Binary64)
  | string (s : String)
  | array (items : List Json)
  | object (members : List Json.Member)

/-- A key of an object with its value. -/
structure Json.Member where
  key : String
  value : Json

end

namespace Json.Member

def find? (key : String) : List Member → Option Json
  | [] => none
  | ⟨k, v⟩ :: rest => if k = key then some v else find? key rest

/-- The members with a key set to a value: in place when the key is there, at the end otherwise. -/
def put (key : String) (value : Json) : List Member → List Member
  | [] => [⟨key, value⟩]
  | ⟨k, v⟩ :: rest => if k = key then ⟨k, value⟩ :: rest else ⟨k, v⟩ :: put key value rest

/-- The members in the order of their first occurrence, each key with the value it was given last. -/
def ofPairs (pairs : List Member) : List Member :=
  pairs.foldl (fun members m => put m.key m.value members) []

/-- A member that was put into an object is found there. -/
theorem find?_put_self (key : String) (value : Json) (members : List Member) :
    find? key (put key value members) = some value := by
  induction members with
  | nil => simp [put, find?]
  | cons m rest ih =>
    obtain ⟨k, v⟩ := m
    by_cases h : k = key <;> simp [put, find?, h, ih]

/-- Putting a member into an object leaves those of other keys as they are. -/
theorem find?_put_of_ne {key other : String} (h : other ≠ key) (value : Json)
    (members : List Member) : find? other (put key value members) = find? other members := by
  induction members with
  | nil => simp [put, find?, h.symm]
  | cons m rest ih =>
    obtain ⟨k, v⟩ := m
    by_cases hk : k = key
    · simp [put, find?, hk, h.symm]
    · simp [put, find?, hk, ih]

end Json.Member

namespace Json

/-- The value of a key, if the document is an object that has it. -/
def get? (key : String) : Json → Option Json
  | .object members => Member.find? key members
  | _ => none

end Json

end PartitionPruning
