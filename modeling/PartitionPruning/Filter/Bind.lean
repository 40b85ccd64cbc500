import PartitionPruning.Filter.Basic

/-!
# Binding filters

Binding looks every column of a filter up in a schema and converts the literals to the type of the
column. What the schema alone decides becomes a constant: a required column is never null, only
floating-point columns hold values that are not numbers, and a comparison with a literal beyond the
range of the type has the same outcome for every value.
-/

namespace PartitionPruning

/-- The column of a schema with a full name. -/
def Schema.column (s : Schema) (caseSensitive : Bool) (name : String) : Except Fault Column := do
  let field ← s.fieldWithName name caseSensitive
  let accessor ← s.accessorFor field.id
  pure ⟨field, accessor⟩

namespace Predicate

/-- A test of a column on its own. -/
def bindUnary (op : UnaryTest) (c : Column) : Expr (Predicate Column) :=
  match op with
  | .isNull => if c.field.required then .constant false else .leaf (.unary op c)
  | .notNull => if c.field.required then .constant true else .leaf (.unary op c)
  | .isNaN => if c.isFloating then .leaf (.unary op c) else .constant false
  | .notNaN => if c.isFloating then .leaf (.unary op c) else .constant true

/-- The outcome of a comparison with something above every value, unless it is a test of the
beginning. -/
def aboveAll? : Comparison → Option Bool
  | .less | .lessOrEqual | .notEqual => some true
  | .greater | .greaterOrEqual | .equal => some false
  | .startsWith | .notStartsWith => none

/-- The outcome of a comparison with something below every value, unless it is a test of the
beginning. -/
def belowAll? : Comparison → Option Bool
  | .greater | .greaterOrEqual | .notEqual => some true
  | .less | .lessOrEqual | .equal => some false
  | .startsWith | .notStartsWith => none

/-- The outcome of a comparison that the literal alone decides. -/
def decided? (op : Comparison) : Literal → Option Bool
  | .aboveMax _ => aboveAll? op
  | .belowMin _ => belowAll? op
  | _ => none

/-- A comparison of a column with a converted literal. -/
def bindCompare (op : Comparison) (c : Column) (literal : Literal) : Expr (Predicate Column) :=
  match decided? op literal with
  | some b => .constant b
  | none => .leaf (.compare op c literal)

/-- The predicate on a column with the literals converted to its type. -/
def bindTo (c : Column) : Predicate String → Except Fault (Expr (Predicate Column))
  | .unary op _ => .ok (bindUnary op c)
  | .compare op _ literal => (literal.convert c.field.type).map (bindCompare op c)
  | .member op _ literals => do
    ofSetOf op c (← literals.mapM (·.convert c.field.type))

/-- The predicate on the column of a schema that it names. -/
def bind (s : Schema) (caseSensitive : Bool) (p : Predicate String) :
    Except Fault (Expr (Predicate Column)) := do
  p.bindTo (← s.column caseSensitive p.term)

end Predicate

namespace Filter

/-- The bound form of a predicate, which must not be bound yet. -/
def bindLeaf (s : Schema) (caseSensitive : Bool) : Leaf → Except Fault Filter
  | .unbound p => (p.bind s caseSensitive).map (Expr.map .bound)
  | .bound p => .error (.alreadyBound (Leaf.bound p).render)

/-- The filter with every predicate bound to a schema. -/
def bind (s : Schema) (caseSensitive : Bool) (f : Filter) : Except Fault Filter :=
  Expr.substitute (bindLeaf s caseSensitive) f

end Filter

end PartitionPruning
