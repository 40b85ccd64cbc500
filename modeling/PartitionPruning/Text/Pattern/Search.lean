import PartitionPruning.Text.Pattern.Basic

/-!
# Searching for patterns

A pattern may be found at a place in several ways. `Pattern.outcomes` lists what each of them leads
to, the preferred ways first. `Pattern.search` takes the first way at the leftmost place that has one.

A repetition goes on after an empty text no more, so that it comes to an end.
-/

namespace PartitionPruning.Text

/-- A place in a text, the characters before it nearest first, and what the groups have found last. -/
structure Found where
  before : List Char
  after : List Char
  groups : List (Nat × List Char)
  deriving DecidableEq, Repr

namespace Found

/-- The place at the start of a text. -/
def start (text : String) : Found := ⟨[], text.toList, []⟩

/-- What a group has found last. -/
def group? (f : Found) (number : Nat) : Option (List Char) := f.groups.lookup number

/-- The place with what a group has found since an earlier one. -/
def remember (number : Nat) (since f : Found) : Found :=
  { f with groups := (number, (f.before.take (since.after.length - f.after.length)).reverse) :: f.groups }

/-- The place so many characters before. -/
def back? (count : Nat) (f : Found) : Option Found :=
  if count ≤ f.before.length then
    some { f with before := f.before.drop count,
                  after := (f.before.take count).reverse ++ f.after }
  else none

/-- The place behind one character, if a set holds it. -/
def step (set : CharSet) (f : Found) : List Found :=
  match f.after with
  | [] => []
  | c :: rest => if set.contains c then [{ f with before := c :: f.before, after := rest }] else []

/-- The place behind a text, where case may be ignored. -/
def skip (m : CharMode) : List Char → Found → List Found
  | [], f => [f]
  | c :: text, f => match f.after with
    | [] => []
    | d :: rest =>
      if m.lowered c.toNat = m.lowered d.toNat then
        skip m text { f with before := d :: f.before, after := rest }
      else []

end Found

/-! ### Repetition -/

/-- What exactly so many steps lead to. -/
def Found.exactly (next : Found → List Found) : Nat → Found → List Found
  | 0, f => [f]
  | n + 1, f => (next f).flatMap (exactly next n)

/-- What any number of further steps, up to a limit, leads to: more steps first, or fewer first. -/
def Found.further (next : Found → List Found) (seldom : Bool) (most : Option Nat) (f : Found) :
    List Found :=
  let on := if most = some 0 then [] else (next f).flatMap fun g =>
    if _h : g.after.length < f.after.length then further next seldom (most.map (· - 1)) g else [g]
  if seldom then f :: on else on ++ [f]
termination_by f.after.length

/-- What a number of steps between two limits leads to. -/
def Found.several (next : Found → List Found) (seldom : Bool) (least : Nat) (most : Option Nat)
    (f : Found) : List Found :=
  (exactly next least f).flatMap (further next seldom (most.map (· - least)))

/-! ### Outcomes -/

/-- What the ways to find a pattern at a place lead to. -/
def Pattern.outcomes : Pattern → Found → List Found
  | .nothing, f => [f]
  | .char set, f => f.step set
  | .place p, f => if p.holds f.before f.after then [f] else []
  | .both p q, f => (p.outcomes f).flatMap q.outcomes
  | .either p q, f => p.outcomes f ++ q.outcomes f
  | .group n p, f => (p.outcomes f).map (Found.remember n f)
  | .again n m, f => match f.group? n with
    | some text => f.skip m text
    | none => []
  | .ifGroup n p q, f => if (f.group? n).isSome then p.outcomes f else q.outcomes f
  | .look negated back p, f =>
    match (f.back? back).bind fun g => (p.outcomes g).head? with
    | some g => if negated then [] else [{ f with groups := g.groups }]
    | none => if negated then [f] else []
  | .firstOf p, f => (p.outcomes f).take 1
  | .times seldom least most p, f => f.several p.outcomes seldom least most
termination_by structural p => p

namespace Pattern

/-- The first way to find a pattern at a place or behind it. -/
def searchFrom (p : Pattern) : (before after : List Char) → Option Found
  | before, [] => (p.outcomes ⟨before, [], []⟩).head?
  | before, c :: rest => match (p.outcomes ⟨before, c :: rest, []⟩).head? with
    | some f => some f
    | none => searchFrom p (c :: before) rest

/-- The first way to find a pattern in a text. -/
def search (p : Pattern) (text : String) : Option Found := p.searchFrom [] text.toList

/-- A pattern behind another one is looked for wherever that one has led. -/
theorem outcomes_both (p q : Pattern) (f : Found) :
    (both p q).outcomes f = (p.outcomes f).flatMap q.outcomes := rfl

end Pattern

end PartitionPruning.Text
