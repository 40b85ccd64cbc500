import PartitionPruning.Filter.Basic
import PartitionPruning.Transform.Apply

/-!
# Projecting predicates

A predicate on a column is projected to one on the partition values that are derived from it. The
inclusive projection holds for the partition value of every row that satisfies the predicate; so
where it is false, no row of the partition can match. The strict projection holds only for partition
values all of whose rows satisfy the predicate. There may be no useful projection of either kind.

A transform that preserves the order projects an ordering to one of the partition values. The
boundary is moved by one step where the comparison excludes it, so that it lies on the side that the
projection speaks of.
-/

namespace PartitionPruning

/-- A predicate on partition values, if there is one. -/
abbrev Projection := Except Fault (Option (Expr (Predicate String)))

/-- The literal of the transformed value of a literal. -/
def Literal.transformed (f : Value → Except Fault Value) (l : Literal) : Except Fault Literal := do
  Literal.ofValue (← f l.value)

namespace Projection

def nothing : Projection := .ok none

/-- A projection to a test of the partition value on its own. -/
def unary (op : UnaryTest) (name : String) : Projection := .ok (some (.leaf (.unary op name)))

/-- A projection to a comparison of the partition value. -/
def compare (op : Comparison) (name : String) (l : Except Fault Literal) : Projection :=
  l.map fun l => some (.leaf (.compare op name l))

/-- A projection to a test of membership of the partition value among transformed literals. -/
def member (op : Membership) (name : String) (f : Value → Except Fault Value)
    (literals : List Literal) : Projection := do
  let transformed ← literals.mapM (Literal.transformed f)
  (Predicate.ofSetOf op name transformed).map some

/-! ### Boundaries that are numbers -/

/-- A literal that has a next and a previous one. -/
def boundary (l : Literal) : Except Fault Literal :=
  match l with
  | .long _ | .decimal _ | .date _ | .timestamp _ => .ok l
  | l => .error (.notNumeric l.className)

/-- The inclusive projection of a comparison with a number. -/
def ofNumber (name : String) (f : Value → Except Fault Value) (op : Comparison) (l : Literal) :
    Projection := do
  let l ← boundary l
  match op with
  | .less => compare .lessOrEqual name (do (← l.decrement).transformed f)
  | .lessOrEqual => compare .lessOrEqual name (l.transformed f)
  | .greater => compare .greaterOrEqual name (do (← l.increment).transformed f)
  | .greaterOrEqual => compare .greaterOrEqual name (l.transformed f)
  | .equal => compare .equal name (l.transformed f)
  | .notEqual | .startsWith | .notStartsWith => nothing

/-- The strict projection of a comparison with a number. The partition value is never above the
values that it is derived from, so what is below the partition value of the boundary is below the
boundary. -/
def ofNumberStrict (name : String) (f : Value → Except Fault Value) (op : Comparison)
    (l : Literal) : Projection := do
  let l ← boundary l
  match op with
  | .less => compare .less name (l.transformed f)
  | .lessOrEqual => compare .less name (do (← l.increment).transformed f)
  | .greater => compare .greater name (l.transformed f)
  | .greaterOrEqual => compare .greater name (do (← l.decrement).transformed f)
  | .notEqual => compare .notEqual name (l.transformed f)
  | .equal | .startsWith | .notStartsWith => nothing

/-! ### Boundaries that are sequences -/

/-- The order of the length of a literal and a width. -/
def lengthOrder (l : Literal) (width : Nat) : Ordering :=
  match l.value with
  | .text s => Ord.compare s.length width
  | .bytes bs => Ord.compare bs.length width
  | _ => .eq

/-- The projection of a test of the beginning that is no longer than what is kept: of one that is as
long, to a comparison. -/
def ofBeginning (shorter asLong : Comparison) (name : String) (l : Literal) (width : Nat)
    (longer : Projection) : Projection :=
  match lengthOrder l width with
  | .lt => compare shorter name (.ok l)
  | .eq => compare asLong name (.ok l)
  | .gt => longer

/-- The inclusive projection of a comparison with a text or with bytes. -/
def ofSequence (name : String) (f : Value → Except Fault Value) (width : Nat) (op : Comparison)
    (l : Literal) : Projection :=
  match op with
  | .less | .lessOrEqual => compare .lessOrEqual name (l.transformed f)
  | .greater | .greaterOrEqual => compare .greaterOrEqual name (l.transformed f)
  | .equal => compare .equal name (l.transformed f)
  | .startsWith => compare .startsWith name (l.transformed f)
  | .notStartsWith => ofBeginning .notStartsWith .notEqual name l width nothing
  | .notEqual => nothing

/-- The strict projection of a comparison with a text or with bytes. -/
def ofSequenceStrict (name : String) (f : Value → Except Fault Value) (width : Nat)
    (op : Comparison) (l : Literal) : Projection :=
  match op with
  | .less | .lessOrEqual => compare .less name (l.transformed f)
  | .greater | .greaterOrEqual => compare .greater name (l.transformed f)
  | .notEqual => compare .notEqual name (l.transformed f)
  | .startsWith => ofBeginning .startsWith .equal name l width nothing
  | .notStartsWith =>
    ofBeginning .notStartsWith .notEqual name l width
      (compare .notStartsWith name (l.transformed f))
  | .equal => nothing

end Projection

namespace Transform

open Projection

/-- The predicate on a partition value that is the value of the column itself. -/
def renamed (name : String) : Predicate Column → Expr (Predicate String)
  | .member op _ literals => Predicate.ofSetAgain op name literals
  | p => .leaf (p.withTerm name)

/-- The type of the column of a predicate. -/
def sourceOf (p : Predicate Column) : DataType := p.term.field.type

/-- The inclusive projection for buckets: equal values are in one bucket. -/
def projectBucket (name : String) (f : Value → Except Fault Value) : Predicate Column → Projection
  | .unary op _ => unary op name
  | .compare .equal _ l => compare .equal name (l.transformed f)
  | .member .isIn _ ls => member .isIn name f ls
  | _ => nothing

/-- The strict projection for buckets: values in different buckets are different. -/
def strictBucket (name : String) (f : Value → Except Fault Value) : Predicate Column → Projection
  | .unary op _ => unary op name
  | .compare .notEqual _ l => compare .notEqual name (l.transformed f)
  | .member .notIn _ ls => member .notIn name f ls
  | _ => nothing

def projectTime (name : String) (f : Value → Except Fault Value) : Predicate Column → Projection
  | .unary op _ => unary op name
  | .compare op _ l => ofNumber name f op l
  | .member .isIn _ ls => member .isIn name f ls
  | .member .notIn _ _ => nothing

def strictTime (name : String) (f : Value → Except Fault Value) : Predicate Column → Projection
  | .unary op _ => unary op name
  | .compare op _ l => ofNumberStrict name f op l
  | .member .notIn _ ls => member .notIn name f ls
  | .member .isIn _ _ => nothing

def projectTruncate (width : Nat) (name : String) (p : Predicate Column) : Projection := do
  let function := (truncate width).function (sourceOf p)
  match p, (sourceOf p).truncateForm? with
  | .unary op _, _ => unary op name
  | .member .isIn _ ls, _ => member .isIn name (← function) ls
  | .member .notIn _ _, _ => nothing
  | .compare op _ l, some .sequence => ofSequence name (← function) width op l
  | .compare op _ l, some _ => ofNumber name (← function) op l
  | .compare _ _ _, none => nothing

def strictTruncate (width : Nat) (name : String) (p : Predicate Column) : Projection := do
  let function := (truncate width).function (sourceOf p)
  match p, (sourceOf p).truncateForm? with
  | .unary op _, _ => unary op name
  | .member .notIn _ ls, _ => member .notIn name (← function) ls
  | .member .isIn _ _, _ => nothing
  | .compare op _ l, some .sequence => ofSequenceStrict name (← function) width op l
  | .compare op _ l, some _ => ofNumberStrict name (← function) op l
  | .compare _ _ _, none => nothing

/-- The inclusive projection of a predicate to the partition field of a name. -/
def project (t : Transform) (name : String) (p : Predicate Column) : Projection :=
  match t with
  | .identity => .ok (some (renamed name p))
  | .void | .unknown _ => nothing
  | .bucket _ => do projectBucket name (← t.function (sourceOf p)) p
  | .truncate width => projectTruncate width name p
  | .time _ => do projectTime name (← t.function (sourceOf p)) p

/-- The strict projection of a predicate to the partition field of a name. -/
def strictProject (t : Transform) (name : String) (p : Predicate Column) : Projection :=
  match t with
  | .identity => .ok (some (renamed name p))
  | .void | .unknown _ => nothing
  | .bucket _ => do strictBucket name (← t.function (sourceOf p)) p
  | .truncate width => strictTruncate width name p
  | .time _ => do strictTime name (← t.function (sourceOf p)) p

/-- Behind identity, a predicate on the column is the same predicate on the partition field. -/
theorem project_identity (name : String) (p : Predicate Column) :
    identity.project name p = .ok (some (renamed name p)) := rfl

end Transform

end PartitionPruning
