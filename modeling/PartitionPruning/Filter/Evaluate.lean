import PartitionPruning.Filter.Bind
import PartitionPruning.Value.Order

/-!
# Evaluating filters

A bound predicate is evaluated on a row. A null never satisfies an ordering or a test of the
beginning and always satisfies a negated test; it equals nothing.
-/

namespace PartitionPruning

namespace Predicate

/-- A comparison that a null never satisfies. -/
def unlessNull (v : Value) (outcome : Except Fault Bool) : Except Fault Bool :=
  if v.isNull then .ok false else outcome

/-- The outcome of a test of a value on its own. -/
def testUnary (op : UnaryTest) (v : Value) : Except Fault Bool :=
  match op with
  | .isNull => .ok v.isNull
  | .notNull => .ok (!v.isNull)
  | .isNaN => v.isNaN
  | .notNaN => v.isNaN.map (!·)

/-- The outcome of a comparison of two values. -/
def testCompare (op : Comparison) (v w : Value) : Except Fault Bool :=
  match op with
  | .equal => v.eq w
  | .notEqual => (v.eq w).map (!·)
  | .less => unlessNull v (v.less w)
  | .lessOrEqual => unlessNull v (v.lessOrEqual w)
  | .greater => unlessNull v (v.greater w)
  | .greaterOrEqual => unlessNull v (v.greaterOrEqual w)
  | .startsWith => unlessNull v (v.startsWith w)
  | .notStartsWith => (unlessNull v (v.startsWith w)).map (!·)

def testMember (op : Membership) (v : Value) (members : List Value) : Except Fault Bool :=
  match op with
  | .isIn => v.isIn members
  | .notIn => (v.isIn members).map (!·)

/-- The outcome of a predicate on the value of its column. -/
def test (p : Predicate τ) (v : Value) : Except Fault Bool :=
  match p with
  | .unary op _ => testUnary op v
  | .compare op _ literal => testCompare op v literal.value
  | .member op _ literals => testMember op v (literals.map Literal.value)

/-- The outcome of a bound predicate on a row. -/
def evaluate (row : Value) (p : Predicate Column) : Except Fault Bool := do
  p.test (← p.term.accessor.get row)

end Predicate

namespace Filter

/-- The outcome of a predicate on a row, which must be bound. -/
def evaluateLeaf (row : Value) : Leaf → Except Fault Bool
  | .bound p => p.evaluate row
  | .unbound p => .error (.notBound (Leaf.unbound p).render)

/-- The outcome of a bound filter on a row. -/
def evaluate (row : Value) (f : Filter) : Except Fault Bool := Expr.evaluate (evaluateLeaf row) f

/-- The outcome of a filter on a row of a schema. -/
def evaluateIn (s : Schema) (caseSensitive : Bool) (f : Filter) (row : Value) :
    Except Fault Bool := do
  evaluate row (← f.bind s caseSensitive)

end Filter

end PartitionPruning
