import PartitionPruning.Json.Key

/-!
# Frozen maps

A frozen map is filled once and refuses every later change.
-/

namespace PartitionPruning

/-- A map that cannot be changed. -/
structure FrozenMap where
  members : List Json.Member

namespace FrozenMap

def empty : FrozenMap := ⟨[]⟩

def size (m : FrozenMap) : Nat := m.members.length

/-- The value of a key, which has to be there. -/
def get (m : FrozenMap) (key : String) : Except Fault Json :=
  match Json.Member.find? key m.members with
  | some j => .ok j
  | none => .error .noKey

/-- The value of a key that may be any document. Only texts are there. -/
def getAt (m : FrozenMap) : Json → Except Fault Json
  | .string key => m.get key
  | j => .error (if j.isKey then .noKey else .notHashable)

def set (_ : FrozenMap) (_ _ : Json) : Except Fault FrozenMap := .error .frozenAssignment

/-- Assigning several keys is refused, and so is assigning none. -/
def update (_ : FrozenMap) (_ : Json) : Except Fault FrozenMap := .error .frozenUpdate

end FrozenMap

end PartitionPruning
