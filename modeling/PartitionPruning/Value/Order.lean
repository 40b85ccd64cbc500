import PartitionPruning.Value.Basic

/-!
# Comparing values

Numbers of every kind are compared by their exact values. `Value.eq` is false between values of
different kinds, `Value.order` refuses them; days and moments are compared as the numbers that they
are stored as, so calendar values have no order here.

A double that is not a number is unordered. A decimal that is not a number cannot be ordered at all,
and a signaling one cannot even be tested for equality.
-/

namespace PartitionPruning

namespace Value

def number? : Value → Option Decimal
  | .bool b => some (.ofInt (if b then 1 else 0))
  | .int n => some (.ofInt n)
  | .float x => some x.toDecimal
  | .decimal d => some d
  | _ => none

def isDecimal : Value → Bool
  | .decimal _ => true
  | _ => false

/-! ### Equality -/

def eqNumber (x y : Decimal) : Except Fault Bool :=
  if x.isSignaling || y.isSignaling then .error .undefinedDecimal
  else .ok (x.order? y == some .eq)

/-- Whether two timestamps are the same moment; with and without an offset they never are. -/
def eqTimestamp (s t : Timestamp) : Bool := s.offset.isSome == t.offset.isSome && s.micros == t.micros

mutual

def eq : Value → Value → Except Fault Bool
  | .null, .null => .ok true
  | .text s, .text t => .ok (s = t)
  | .bytes as, .bytes bs => .ok (as = bs)
  | .uuid u, .uuid v => .ok (u = v)
  | .date d, .date e => .ok (d = e)
  | .time s, .time t => .ok (s = t)
  | .timestamp s, .timestamp t => .ok (eqTimestamp s t)
  | .type s, .type t => .ok (s = t)
  | .record fields, .record others =>
    if fields.length = others.length then eqList fields others else .ok false
  | .list items, .list others =>
    if items.length = others.length then eqList items others else .ok false
  | v, w => match v.number?, w.number? with
    | some x, some y => eqNumber x y
    | _, _ => .ok false
termination_by structural v => v

/-- Whether two rows of values are equal; they are compared up to the first difference. -/
def eqList : List Value → List Value → Except Fault Bool
  | [], [] => .ok true
  | v :: vs, w :: ws => do if ← eq v w then eqList vs ws else pure false
  | _, _ => .ok false
termination_by structural vs => vs

end

/-- Whether the value differs from itself. -/
def isNaN (v : Value) : Except Fault Bool :=
  match v with
  | .float x => .ok x.isNaN
  | .decimal d => if d.isSignaling then .error .undefinedDecimal else .ok d.isNaN
  | _ => .ok false

/-! ### Order -/

/-- The order of byte sequences: that of the first bytes that differ. -/
def orderBytes : List UInt8 → List UInt8 → Ordering
  | [], [] => .eq
  | [], _ :: _ => .lt
  | _ :: _, [] => .gt
  | a :: as, b :: bs => if a < b then .lt else if b < a then .gt else orderBytes as bs

/-- The order of texts: that of the first characters that differ. -/
def orderText : List Char → List Char → Ordering
  | [], [] => .eq
  | [], _ :: _ => .lt
  | _ :: _, [] => .gt
  | a :: as, b :: bs => if a < b then .lt else if b < a then .gt else orderText as bs

/-- The order of two values, none when they are unordered numbers. -/
def order (v w : Value) : Except Fault (Option Ordering) :=
  match v, w with
  | .text s, .text t => .ok (some (orderText s.toList t.toList))
  | .bytes as, .bytes bs => .ok (some (orderBytes as bs))
  | .uuid a, .uuid b => .ok (some (compare a.number.toNat b.number.toNat))
  | v, w => match v.number?, w.number? with
    | some x, some y =>
      if (v.isDecimal || w.isDecimal) && (x.isNaN || y.isNaN) then .error .undefinedDecimal
      else .ok (x.order? y)
    | _, _ => .error .notOrdered

def less (v w : Value) : Except Fault Bool := (order v w).map (· == some .lt)

def greater (v w : Value) : Except Fault Bool := (order v w).map (· == some .gt)

/-- Whether the value is smaller or equal. -/
def lessOrEqual (v w : Value) : Except Fault Bool :=
  (order v w).map fun o => o == some .lt || o == some .eq

def greaterOrEqual (v w : Value) : Except Fault Bool :=
  (order v w).map fun o => o == some .gt || o == some .eq

/-! ### Membership and beginnings -/

/-- Whether the value can be a member of a set. -/
def isHashable : Value → Bool
  | .list _ | .record _ | .type (.other ..) => false
  | .decimal d => !d.isSignaling
  | _ => true

/-- Whether two members of sets are equal. -/
def same (v w : Value) : Bool :=
  match eq v w with
  | .ok b => b
  | .error _ => false

/-- Whether the value is one of the members of a set. -/
def isIn (v : Value) (members : List Value) : Except Fault Bool :=
  if v.isHashable then .ok (members.any (same v)) else .error .notHashable

/-- Whether the text or the bytes of a value begin with those of another one. -/
def startsWith (v w : Value) : Except Fault Bool :=
  match v, w with
  | .text s, .text t => .ok (t.toList.isPrefixOf s.toList)
  | .bytes as, .bytes bs => .ok (bs.isPrefixOf as)
  | .text _, _ | .bytes _, _ => .error .beginningMismatch
  | _, _ => .error .noBeginning

/-- Integers are equal as values if they are equal. -/
theorem eq_int (m n : Int) : eq (.int m) (.int n) = .ok (m == n) := by
  have order := Decimal.order?_ofInt m n
  have h : ((some (compare m n) : Option Ordering) == some .eq) = (m == n) := by
    rw [Bool.eq_iff_iff]
    simp
  simp only [eq, number?, eqNumber, order, h]
  rfl

/-- Integers are ordered as values as they are among themselves. -/
theorem order_int (m n : Int) : order (.int m) (.int n) = .ok (some (compare m n)) := by
  have h := Decimal.order?_ofInt m n
  simp [order, number?, isDecimal, h]

end Value

end PartitionPruning
