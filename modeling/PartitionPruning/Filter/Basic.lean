import PartitionPruning.Expr.Basic
import PartitionPruning.Filter.Predicate
import PartitionPruning.Literal.Listing
import PartitionPruning.Schema.Index

/-!
# Row filters

A filter is a boolean expression over predicates. An unbound predicate names its column; a bound one
holds the column of a schema and tells where in a row its value is. Both may occur in one tree.

The constructors of membership tests give a constant for the empty set and a comparison for a set of
one literal, so that a predicate on a set always has two literals at least.
-/

namespace PartitionPruning

/-- A column of a schema and where in a row its value is. -/
structure Column where
  field : Field
  accessor : Accessor
  deriving DecidableEq

namespace Column

def render (c : Column) : String := "ref(" ++ c.field.name ++ ")"

def inspect (c : Column) : String :=
  "BoundReference(field=" ++ c.field.inspect ++ ", accessor=" ++ c.accessor.render ++ ")"

/-- Whether two columns are the same field. -/
def same (c d : Column) : Bool := c.field = d.field

/-- Whether the values of the column are floating-point numbers. -/
def isFloating (c : Column) : Bool :=
  match c.field.type with
  | .primitive .float | .primitive .double => true
  | _ => false

end Column

def inspectName (name : String) : String := "Reference(name=" ++ Text.quote name ++ ")"

/-- A predicate of a filter. -/
inductive Leaf where
  | unbound (p : Predicate String)
  | bound (p : Predicate Column)

abbrev Filter := Expr Leaf

namespace Leaf

def opposite : Leaf → Leaf
  | .unbound p => .unbound p.opposite
  | .bound p => .bound p.opposite

/-- Whether the predicate names its column. -/
def isUnbound : Leaf → Bool
  | .unbound _ => true
  | .bound _ => false

/-- Whether a set has two distinct literals at least. -/
def isProper : Leaf → Bool
  | .unbound p => p.isProper
  | .bound p => p.isProper

def eq : Leaf → Leaf → Except Fault Bool
  | .unbound p, .unbound q => p.eqBy (fun s t => s = t) q
  | .bound p, .bound q => p.eqBy Column.same q
  | _, _ => .ok false

def render : Leaf → String
  | .unbound p => p.render "" id
  | .bound p => p.render "Bound" Column.render

def inspect : Leaf → String
  | .unbound p => p.inspect "" inspectName
  | .bound p => p.inspect "Bound" Column.inspect

/-- The opposite of the opposite of a predicate, bound or not, is the predicate. -/
theorem opposite_opposite (l : Leaf) : l.opposite.opposite = l := by
  cases l <;> simp [opposite, Predicate.opposite_opposite]

end Leaf

namespace Predicate

/-- The test of membership in a set of distinct literals. -/
def ofSet (op : Membership) (term : τ) : List Literal → Expr (Predicate τ)
  | [] => .constant op.empty
  | [literal] => .leaf (.compare op.single term literal)
  | literals => .leaf (.member op term literals)

/-- The test of membership among some literals. -/
def ofLiterals (op : Membership) (term : τ) (literals : List Literal) :
    Except Fault (Expr (Predicate τ)) :=
  (Literal.toSet literals).map (ofSet op term)

/-- The test of membership in a set that is made once more of the one that is given. -/
def ofSetAgain (op : Membership) (term : τ) (literals : List Literal) : Expr (Predicate τ) :=
  ofSet op term (Literal.relisted literals)

/-- The test of membership in the set of some literals, which is made of a set of them. -/
def ofSetOf (op : Membership) (term : τ) (literals : List Literal) :
    Except Fault (Expr (Predicate τ)) :=
  (Literal.toSet literals).map (ofSetAgain op term)

end Predicate

namespace Filter

/-- The filter of a predicate that names its column. -/
def ofPredicate (p : Predicate String) : Filter := .leaf (.unbound p)

/-- The filter that tests membership among some literals. -/
def ofLiterals (op : Membership) (column : String) (literals : List Literal) :
    Except Fault Filter :=
  (Predicate.ofLiterals op column literals).map (Expr.map .unbound)

def allOf (filters : List Filter) : Except Fault Filter := Expr.joinAll Expr.conj filters

def anyOf (filters : List Filter) : Except Fault Filter := Expr.joinAll Expr.disj filters

def opposite (f : Filter) : Filter := Expr.invert Leaf.opposite f

def eq (f g : Filter) : Except Fault Bool := Expr.eqBy Leaf.eq f g

def render (f : Filter) : String := Expr.renderBy Leaf.render f

def inspect (f : Filter) : String := Expr.inspectBy Leaf.inspect f

end Filter

end PartitionPruning
