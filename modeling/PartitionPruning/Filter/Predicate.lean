import PartitionPruning.Literal.Conversion

/-!
# Predicates

A predicate tests the value of one column: whether it is null or not a number, how it compares with a
literal, or whether it is a member of a set of literals. The column is given by a term of any kind, so
that the same predicates serve before and after columns are looked up.

The set of a membership test holds its literals in the order in which it lists them, without
repetitions.
-/

namespace PartitionPruning

/-- A test of a value on its own. -/
inductive UnaryTest where
  | isNull
  | notNull
  | isNaN
  | notNaN
  deriving DecidableEq, Repr

/-- A comparison with a literal. -/
inductive Comparison where
  | equal
  | notEqual
  | less
  | lessOrEqual
  | greater
  | greaterOrEqual
  | startsWith
  | notStartsWith
  deriving DecidableEq, Repr

/-- A test of membership in a set. -/
inductive Membership where
  | isIn
  | notIn
  deriving DecidableEq, Repr

/-- A test of a column, which is given by a term. -/
inductive Predicate (τ : Type) where
  | unary (op : UnaryTest) (term : τ)
  | compare (op : Comparison) (term : τ) (literal : Literal)
  | member (op : Membership) (term : τ) (literals : List Literal)
  deriving Repr

namespace UnaryTest

def opposite : UnaryTest → UnaryTest
  | .isNull => .notNull
  | .notNull => .isNull
  | .isNaN => .notNaN
  | .notNaN => .isNaN

def name : UnaryTest → String
  | .isNull => "IsNull"
  | .notNull => "NotNull"
  | .isNaN => "IsNaN"
  | .notNaN => "NotNaN"

/-- Tests are opposed in pairs. -/
theorem opposite_opposite (op : UnaryTest) : op.opposite.opposite = op := by cases op <;> rfl

end UnaryTest

namespace Comparison

def opposite : Comparison → Comparison
  | .equal => .notEqual
  | .notEqual => .equal
  | .less => .greaterOrEqual
  | .greaterOrEqual => .less
  | .greater => .lessOrEqual
  | .lessOrEqual => .greater
  | .startsWith => .notStartsWith
  | .notStartsWith => .startsWith

def name : Comparison → String
  | .equal => "EqualTo"
  | .notEqual => "NotEqualTo"
  | .less => "LessThan"
  | .lessOrEqual => "LessThanOrEqual"
  | .greater => "GreaterThan"
  | .greaterOrEqual => "GreaterThanOrEqual"
  | .startsWith => "StartsWith"
  | .notStartsWith => "NotStartsWith"

/-- Comparisons are opposed in pairs. -/
theorem opposite_opposite (op : Comparison) : op.opposite.opposite = op := by cases op <;> rfl

end Comparison

namespace Membership

def opposite : Membership → Membership
  | .isIn => .notIn
  | .notIn => .isIn

def name : Membership → String
  | .isIn => "In"
  | .notIn => "NotIn"

/-- The comparison that a test of membership in a set of one literal is. -/
def single : Membership → Comparison
  | .isIn => .equal
  | .notIn => .notEqual

/-- The outcome of a test of membership in the empty set. -/
def empty : Membership → Bool
  | .isIn => false
  | .notIn => true

/-- Tests of membership are opposed in pairs. -/
theorem opposite_opposite (op : Membership) : op.opposite.opposite = op := by cases op <;> rfl

end Membership

namespace Predicate

def term : Predicate τ → τ
  | .unary _ term | .compare _ term _ | .member _ term _ => term

def opposite : Predicate τ → Predicate τ
  | .unary op term => .unary op.opposite term
  | .compare op term literal => .compare op.opposite term literal
  | .member op term literals => .member op.opposite term literals

def name : Predicate τ → String
  | .unary op _ => op.name
  | .compare op _ _ => op.name
  | .member op _ _ => op.name

def literals : Predicate τ → List Literal
  | .unary _ _ => []
  | .compare _ _ literal => [literal]
  | .member _ _ literals => literals

/-- The predicate with another term in the place of its own. -/
def withTerm (term : σ) : Predicate τ → Predicate σ
  | .unary op _ => .unary op term
  | .compare op _ literal => .compare op term literal
  | .member op _ literals => .member op term literals

/-- Whether a set has two distinct literals at least; all other predicates have no such condition. -/
def isProper : Predicate τ → Bool
  | .member _ _ literals => 2 ≤ literals.length && Literal.distinct literals = literals
  | _ => true

/-- Whether two predicates are equal, where `sameTerm` tells when terms are. -/
def eqBy (sameTerm : τ → τ → Bool) : Predicate τ → Predicate τ → Except Fault Bool
  | .unary op t, .unary op' t' => .ok (op = op' && sameTerm t t')
  | .compare op t l, .compare op' t' l' =>
    if op = op' && sameTerm t t' then Literal.eq l l' else .ok false
  | .member op t ls, .member op' t' ls' =>
    .ok (op = op' && sameTerm t t' && Literal.sameSet ls ls')
  | _, _ => .ok false

/-- Texts in braces, in the order of their characters. -/
def braces (parts : List String) : String :=
  "\x7b" ++ ", ".intercalate (parts.mergeSort fun a b => decide (a ≤ b)) ++ "\x7d"

/-- The text of a predicate. The names of all kinds may get a mark in front. -/
def render (mark : String) (termText : τ → String) (p : Predicate τ) : String :=
  mark ++ p.name ++ "(" ++ termText p.term ++
    (match p with
      | .unary _ _ => ""
      | .compare _ _ literal => ", " ++ literal.render
      | .member _ _ literals => ", " ++ braces (literals.map Literal.render)) ++ ")"

def inspect (mark : String) (termText : τ → String) (p : Predicate τ) : String :=
  mark ++ p.name ++ "(" ++
    (match p with
      | .unary _ term => "term=" ++ termText term
      | .compare _ term literal => "term=" ++ termText term ++ ", literal=" ++ literal.inspect
      | .member _ term literals =>
        termText term ++ ", " ++ braces (literals.map Literal.inspect)) ++ ")"

/-- The opposite of the opposite of a predicate is the predicate. -/
theorem opposite_opposite (p : Predicate τ) : p.opposite.opposite = p := by
  cases p <;>
    simp [opposite, UnaryTest.opposite_opposite, Comparison.opposite_opposite,
      Membership.opposite_opposite]

end Predicate

end PartitionPruning
