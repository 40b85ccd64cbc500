import PartitionPruning.Filter.Basic

/-!
# Walking through a filter

A walk visits the nodes of a bound filter, operands before the node itself, and notes a line for each.
The result of a node is the number of lines noted so far; a line names the results of the operands.
A walk ends at the first predicate that is not bound.
-/

namespace PartitionPruning

/-- The words for the kinds of comparison. -/
def Comparison.walkName : Comparison → String
  | .equal => "equal"
  | .notEqual => "not_equal"
  | .less => "less_than"
  | .lessOrEqual => "less_than_or_equal"
  | .greater => "greater_than"
  | .greaterOrEqual => "greater_than_or_equal"
  | .startsWith => "starts_with"
  | .notStartsWith => "not_starts_with"

/-- The words for the tests of a value on its own. -/
def UnaryTest.walkName : UnaryTest → String
  | .isNull => "is_null"
  | .notNull => "not_null"
  | .isNaN => "is_nan"
  | .notNaN => "not_nan"

/-- The words for the tests of membership. -/
def Membership.walkName : Membership → String
  | .isIn => "in"
  | .notIn => "not_in"

/-- The line for a predicate: its kind, its column, and its literal or the size of its set. -/
def Predicate.walkLine : Predicate Column → String
  | .unary op c => op.walkName ++ " " ++ c.render
  | .compare op c literal => op.walkName ++ " " ++ c.render ++ " " ++ literal.render
  | .member op c literals => op.walkName ++ " " ++ c.render ++ " " ++ toString literals.length

namespace Filter

def note (log : List String) (line : String) : List String × Except Fault Nat :=
  (log ++ [line], .ok (log.length + 1))

/-- Walks through a filter after some lines have been noted. -/
def walkFrom (log : List String) : Filter → List String × Except Fault Nat
  | .constant b => note log (if b then "true" else "false")
  | .leaf (.bound p) => note log p.walkLine
  | .leaf (.unbound p) => (log, .error (.notBound (Leaf.unbound p).render))
  | .not child => match walkFrom log child with
    | (log, .ok n) => note log ("not " ++ toString n)
    | failed => failed
  | .and l r => match walkFrom log l with
    | (log, .ok m) => match walkFrom log r with
      | (log, .ok n) => note log ("and " ++ toString m ++ " " ++ toString n)
      | failed => failed
    | failed => failed
  | .or l r => match walkFrom log l with
    | (log, .ok m) => match walkFrom log r with
      | (log, .ok n) => note log ("or " ++ toString m ++ " " ++ toString n)
      | failed => failed
    | failed => failed

/-- Walks through a filter. Nothing but an expression can be visited. -/
def walk : Option Filter → List String × Except Fault Nat
  | some f => walkFrom [] f
  | none => ([], .error (.notAnExpression "None"))

end Filter

end PartitionPruning
