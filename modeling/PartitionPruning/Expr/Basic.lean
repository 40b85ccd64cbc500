import PartitionPruning.Fault

/-!
# Boolean expressions

Trees of conjunctions, disjunctions and negations over leaves of any kind. `Expr.conj`, `Expr.disj`
and `Expr.negate` build them and fold constants away: a tree built with them is a constant or holds
none, and a negation never stands under another one.

`Expr.substitute` replaces the leaves of a tree and builds it anew; binding a filter and finding its
residual are two such replacements. `Expr.evaluate` computes the truth value of a tree.
-/

namespace PartitionPruning

/-- A boolean expression over leaves. -/
inductive Expr (α : Type) where
  | constant (b : Bool)
  | leaf (a : α)
  | not (child : Expr α)
  | and (left right : Expr α)
  | or (left right : Expr α)
  deriving DecidableEq, Repr

namespace Expr

/-! ### Building -/

def conj : Expr α → Expr α → Expr α
  | .constant false, _ => .constant false
  | .constant true, r => r
  | _, .constant false => .constant false
  | l, .constant true => l
  | l, r => .and l r

def disj : Expr α → Expr α → Expr α
  | .constant true, _ => .constant true
  | .constant false, r => r
  | _, .constant true => .constant true
  | l, .constant false => l
  | l, r => .or l r

def negate : Expr α → Expr α
  | .constant b => .constant (!b)
  | .not child => child
  | e => .not e

/-- The operands joined from the left; there have to be two at least. -/
def joinAll (join : Expr α → Expr α → Expr α) : List (Expr α) → Except Fault (Expr α)
  | first :: second :: rest => .ok (rest.foldl join (join first second))
  | _ => .error .missingOperand

/-- The opposite of an expression, by the laws of De Morgan, where `opposite` is that of a leaf. -/
def invert (opposite : α → α) : Expr α → Expr α
  | .constant b => .constant (!b)
  | .leaf a => .leaf (opposite a)
  | .not child => child
  | .and l r => disj (invert opposite l) (invert opposite r)
  | .or l r => conj (invert opposite l) (invert opposite r)

/-! ### Leaves -/

def leaves : Expr α → List α
  | .constant _ => []
  | .leaf a => [a]
  | .not child => leaves child
  | .and l r | .or l r => leaves l ++ leaves r

/-- The same tree over other leaves. -/
def map (f : α → β) : Expr α → Expr β
  | .constant b => .constant b
  | .leaf a => .leaf (f a)
  | .not child => .not (map f child)
  | .and l r => .and (map f l) (map f r)
  | .or l r => .or (map f l) (map f r)

/-- The tree with an expression in the place of each leaf, built anew from the bottom. -/
def substitute (f : α → Except Fault (Expr β)) : Expr α → Except Fault (Expr β)
  | .constant b => .ok (.constant b)
  | .leaf a => f a
  | .not child => do pure (negate (← substitute f child))
  | .and l r => do
    let l ← substitute f l
    let r ← substitute f r
    pure (conj l r)
  | .or l r => do
    let l ← substitute f l
    let r ← substitute f r
    pure (disj l r)

/-- The truth value of a tree. Both operands are evaluated, so that a fault in either is found. -/
def evaluate (f : α → Except Fault Bool) : Expr α → Except Fault Bool
  | .constant b => .ok b
  | .leaf a => f a
  | .not child => do pure (!(← evaluate f child))
  | .and l r => do
    let l ← evaluate f l
    let r ← evaluate f r
    pure (l && r)
  | .or l r => do
    let l ← evaluate f l
    let r ← evaluate f r
    pure (l || r)

/-! ### Normal form -/

def isConstant : Expr α → Bool
  | .constant _ => true
  | _ => false

/-- Whether an expression is a negation. -/
def isNot : Expr α → Bool
  | .not _ => true
  | _ => false

/-- Whether no constant occurs and no negation stands under another one. -/
def isReduced : Expr α → Bool
  | .constant _ => false
  | .leaf _ => true
  | .not child => !child.isNot && isReduced child
  | .and l r | .or l r => isReduced l && isReduced r

/-- Whether an expression is a constant or reduced. -/
def isNormal (e : Expr α) : Bool := e.isConstant || e.isReduced

/-! ### Equality and text -/

/-- Whether two trees are equal up to an equality of leaves; the operands are compared from left to
right up to the first difference. -/
def eqBy (eq : α → α → Except Fault Bool) : Expr α → Expr α → Except Fault Bool
  | .constant a, .constant b => .ok (a = b)
  | .leaf a, .leaf b => eq a b
  | .not c, .not d => eqBy eq c d
  | .and l r, .and l' r' | .or l r, .or l' r' => do
    if ← eqBy eq l l' then eqBy eq r r' else pure false
  | _, _ => .ok false

def renderBy (leafText : α → String) : Expr α → String
  | .constant b => if b then "true" else "false"
  | .leaf a => leafText a
  | .not child => "not " ++ renderBy leafText child
  | .and l r => "(" ++ renderBy leafText l ++ " and " ++ renderBy leafText r ++ ")"
  | .or l r => "(" ++ renderBy leafText l ++ " or " ++ renderBy leafText r ++ ")"

def inspectBy (leafText : α → String) : Expr α → String
  | .constant b => if b then "AlwaysTrue()" else "AlwaysFalse()"
  | .leaf a => leafText a
  | .not child => "Not(child=" ++ inspectBy leafText child ++ ")"
  | .and l r =>
    "And(left=" ++ inspectBy leafText l ++ ", right=" ++ inspectBy leafText r ++ ")"
  | .or l r => "Or(left=" ++ inspectBy leafText l ++ ", right=" ++ inspectBy leafText r ++ ")"

/-! ### Lemmas -/

/-- A negation folds constants and double negations away, so that it stays in normal form. -/
theorem isNormal_negate {e : Expr α} (h : e.isNormal = true) : (negate e).isNormal = true := by
  cases e <;> simp_all [negate, isNormal, isConstant, isReduced, isNot]

/-- A conjunction folds constants away. -/
theorem isNormal_conj {l r : Expr α} (hl : l.isNormal = true) (hr : r.isNormal = true) :
    (conj l r).isNormal = true := by
  unfold conj
  split
  · rfl
  · exact hr
  · rfl
  · exact hl
  -- The four cases before were those with a constant, so neither side is one here.
  · rename_i hf ht hrf hrt
    have nl : l.isConstant = false := by
      cases l with
      | constant b => cases b <;> simp_all
      | _ => rfl
    have nr : r.isConstant = false := by
      cases r with
      | constant b => cases b <;> simp_all
      | _ => rfl
    simp_all [isNormal, isConstant, isReduced]

/-- A disjunction folds constants away. -/
theorem isNormal_disj {l r : Expr α} (hl : l.isNormal = true) (hr : r.isNormal = true) :
    (disj l r).isNormal = true := by
  unfold disj
  split
  · rfl
  · exact hr
  · rfl
  · exact hl
  -- As above: no side is a constant in the last case.
  · rename_i ht hf hrt hrf
    have nl : l.isConstant = false := by
      cases l with
      | constant b => cases b <;> simp_all
      | _ => rfl
    have nr : r.isConstant = false := by
      cases r with
      | constant b => cases b <;> simp_all
      | _ => rfl
    simp_all [isNormal, isConstant, isReduced]

end Expr

end PartitionPruning
