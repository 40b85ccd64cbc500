import PartitionPruning.Schema.Index
import PartitionPruning.Value.Text

/-!
# Visiting a schema

A visit goes through the fields in order, into a struct before it comes to the struct itself. The
trace of a visit is the list of its steps; its measure counts the primitive types and the structs.
-/

namespace PartitionPruning

/-- A step of a visit. -/
inductive Visit where
  | before (field : String)
  | after (field : String)
  | field (id : Int)
  | primitive (p : Primitive)
  | struct (fields : Nat)
  | schema (measure : Nat)
  deriving DecidableEq, Repr

namespace Visit

def render : Visit → String
  | .before name => "before " ++ name
  | .after name => "after " ++ name
  | .field id => "field " ++ toString id
  | .primitive p => "primitive " ++ p.render
  | .struct fields => "struct " ++ toString fields
  | .schema measure => "schema " ++ toString measure

end Visit

mutual

/-- How many primitive types and structs a type is made of. -/
def DataType.measure : DataType → Nat
  | .primitive _ => 1
  | .struct fields => Field.measureList fields + 1
  | .other .. => 0
termination_by structural t => t

def Field.measure : Field → Nat
  | ⟨_, _, type, _, _⟩ => DataType.measure type
termination_by structural f => f

def Field.measureList : List Field → Nat
  | [] => 0
  | f :: rest => Field.measure f + Field.measureList rest
termination_by structural fields => fields

end

mutual

def DataType.trace : DataType → List Visit
  | .primitive p => [.primitive p]
  | .struct fields => Field.traceList fields ++ [.struct fields.length]
  | .other .. => []
termination_by structural t => t

def Field.trace : Field → List Visit
  | ⟨id, name, type, _, _⟩ => .before name :: (DataType.trace type ++ [.after name, .field id])
termination_by structural f => f

def Field.traceList : List Field → List Visit
  | [] => []
  | f :: rest => Field.trace f ++ Field.traceList rest
termination_by structural fields => fields

end

def Schema.trace (s : Schema) : Except Fault (List Visit) :=
  s.asStruct.visited (s.asStruct.trace ++ [.schema s.asStruct.measure])

/-- The measure of a value that has to be a type. -/
def Value.measureOfType : Value → Except Fault Nat
  | .type t => t.visited t.measure
  | v => .error (.notAType v.render)

end PartitionPruning
