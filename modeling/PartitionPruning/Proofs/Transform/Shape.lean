import PartitionPruning.Proofs.Transform.Projection

/-!
# The shape of projections

A predicate has a strict and an inclusive projection to a partition field. A `Side` says which of the two
is meant, so that what they have in common is stated once. All transforms but the identity project alike
(`Projection.shaped`): a test of the value on its own keeps its test, one test of membership is projected
to the transformed literals, and only comparisons are projected in ways of their own.

* **`projection_bucket`**, **`projection_time`**, **`projection_truncate`** — the projections of the
  transforms that take comparisons with numbers.
* **`names_projection`** — projections name nothing but their partition field.
-/

namespace PartitionPruning

open Outcome (bind_eq_ok map_eq_ok)

/-! ## Sides -/

/-- Which of the two projections of a predicate is meant. -/
inductive Side where
  | strict
  | inclusive

namespace Side

/-- The outcome of a projection that decides the predicate for all rows of a partition. -/
def decides : Side → Bool
  | .strict => true
  | .inclusive => false

/-- The test of membership that has a projection. -/
def membership : Side → Membership
  | .strict => .notIn
  | .inclusive => .isIn

theorem outcome_membership (side : Side) (b : Bool) :
    side.membership.outcome b = (b != side.decides) := by
  cases side <;> cases b <;> rfl

/-- Each test of membership has a projection on one side. -/
theorem exists_membership (op : Membership) : ∃ side : Side, side.membership = op := by
  cases op
  · exact ⟨.inclusive, rfl⟩
  · exact ⟨.strict, rfl⟩

/-- How a comparison with a number is projected: the comparison of the partition value and how many
steps the boundary is moved. -/
def bound? : Side → Comparison → Option (Comparison × Int)
  | .strict, .less => some (.less, 0)
  | .strict, .lessOrEqual => some (.less, 1)
  | .strict, .greater => some (.greater, 0)
  | .strict, .greaterOrEqual => some (.greater, -1)
  | .strict, .notEqual => some (.notEqual, 0)
  | .inclusive, .less => some (.lessOrEqual, -1)
  | .inclusive, .lessOrEqual => some (.lessOrEqual, 0)
  | .inclusive, .greater => some (.greaterOrEqual, 1)
  | .inclusive, .greaterOrEqual => some (.greaterOrEqual, 0)
  | .inclusive, .equal => some (.equal, 0)
  | _, _ => none

end Side

/-- The projection of a predicate to the partition field of a name. -/
def Transform.projection (t : Transform) : Side → String → Predicate Column → Projection
  | .strict => t.strictProject
  | .inclusive => t.project

/-- The literal some steps further. One that is not moved stays what it is. -/
def Literal.moved (step : Int) (l : Literal) : Except Fault Literal :=
  if step = 0 then .ok l else l.advance step

namespace Projection

/-! ## Shapes -/

/-- The projection of a predicate, given how comparisons are projected. -/
def shaped (side : Side) (name : String) (f : Value → Except Fault Value)
    (comparison : Comparison → Literal → Projection) : Predicate Column → Projection
  | .unary op _ => unary op name
  | .compare op _ l => comparison op l
  | .member op _ ls => if op = side.membership then member op name f ls else nothing

/-- The projection of a comparison that is a test of membership in a set of one literal. -/
def ofSingle (side : Side) (name : String) (f : Value → Except Fault Value) (op : Comparison)
    (l : Literal) : Projection :=
  if op = side.membership.single then compare op name (l.transformed f) else nothing

/-- The projection of a comparison with a number, whose boundary is moved. -/
def ofMoved (side : Side) (name : String) (f : Value → Except Fault Value) (op : Comparison)
    (l : Literal) : Projection :=
  boundary l >>= fun l => match side.bound? op with
    | some (op', step) => compare op' name (l.moved step >>= Literal.transformed f)
    | none => nothing

theorem ofNumberStrict_eq (name : String) (f : Value → Except Fault Value) (op : Comparison)
    (l : Literal) : ofNumberStrict name f op l = ofMoved .strict name f op l := by
  unfold ofNumberStrict ofMoved
  cases op <;> rfl

theorem ofNumber_eq (name : String) (f : Value → Except Fault Value) (op : Comparison)
    (l : Literal) : ofNumber name f op l = ofMoved .inclusive name f op l := by
  unfold ofNumber ofMoved
  cases op <;> rfl

end Projection

namespace Transform

open Projection

variable {p : Predicate Column} {f : Value → Except Fault Value}

theorem projection_bucket (count : Nat) (side : Side) (name : String) (p : Predicate Column) :
    (bucket count).projection side name p = (bucket count).function (sourceOf p) >>= fun f =>
      shaped side name f (ofSingle side name f) p := by
  cases side <;> refine congrArg _ (funext fun f => ?_) <;>
    cases p with
    | unary op c => rfl
    | compare op c l => cases op <;> rfl
    | member op c ls => cases op <;> rfl

theorem projection_time (u : TimeUnit) (side : Side) (name : String) (p : Predicate Column) :
    (time u).projection side name p = (time u).function (sourceOf p) >>= fun f =>
      shaped side name f (ofMoved side name f) p := by
  cases side <;> refine congrArg _ (funext fun f => ?_) <;>
    cases p with
    | unary op c => rfl
    | compare op c l =>
      first
        | exact ofNumberStrict_eq name f op l
        | exact ofNumber_eq name f op l
    | member op c ls => cases op <;> rfl

/-- The projections to truncated numbers. -/
theorem projection_truncate {width : Nat} {form : TruncateForm}
    (hf : (truncate width).function (sourceOf p) = .ok f)
    (hform : (sourceOf p).truncateForm? = some form) (hnumber : form ≠ .sequence) (side : Side)
    (name : String) :
    (truncate width).projection side name p = shaped side name f (ofMoved side name f) p := by
  cases p with
  | unary op c => cases side <;> rfl
  -- Numbers and decimals go through the moved literal, sequences through the prefix.
  | compare op c l =>
    cases form with
    | sequence => exact absurd rfl hnumber
    | number | decimal =>
      cases side <;>
        simp only [projection, project, strictProject, projectTruncate, strictTruncate, hf, hform,
          Outcome.ok_bind]
      · exact ofNumberStrict_eq name f op l
      · exact ofNumber_eq name f op l
  | member op c ls =>
    cases side <;> cases op <;>
      simp only [projection, project, strictProject, projectTruncate, strictTruncate, hf,
        Outcome.ok_bind] <;>
      rfl

end Transform

/-! ## The partition field of a projection -/

namespace Projection

/-- Whether a projection is a constant or a predicate on the partition field of a name. -/
def Names (name : String) (e : Expr (Predicate String)) : Prop :=
  (∃ b, e = .constant b) ∨ ∃ p, e = .leaf p ∧ p.term = name

theorem names_ofSet (op : Membership) (name : String) (ls : List Literal) :
    Names name (Predicate.ofSet op name ls) := by
  rcases Predicate.ofSet_cases op name ls with hc | ⟨q, hq, hterm, _⟩
  · exact Or.inl ⟨_, hc⟩
  · exact Or.inr ⟨q, hq, hterm⟩

end Projection

/-- **Evaluating what names one column**: its outcome is that for the value in the column. -/
theorem Filter.evaluateIn_eq_outcome {s : Schema} {caseSensitive : Bool} {name : String}
    {e : Expr (Predicate String)} {c : Column} {row v : Value}
    (hc : s.column caseSensitive name = .ok c) (hv : c.accessor.get row = .ok v)
    (hnames : Projection.Names name e) :
    Filter.evaluateIn s caseSensitive (e.map .unbound) row =
      Expr.evaluate (Predicate.outcome c v) e := by
  rcases hnames with ⟨b, rfl⟩ | ⟨p, rfl, rfl⟩
  · rfl
  · simp only [evaluateIn, Filter.bind, Expr.map, Expr.substitute, bindLeaf, Predicate.bind, hc,
      Outcome.ok_bind, Expr.evaluate, Predicate.outcome]
    -- Binding by name finds the column that the outcome is asked of.
    cases hb : p.bindTo c with
    | error fault => rfl
    | ok b =>
      simp only [Outcome.map_ok, Outcome.ok_bind, Filter.evaluate]
      rcases Predicate.bindTo_inv hb with ⟨t, rfl⟩ | ⟨q, rfl, rfl, _⟩
      · rfl
      · simp [Expr.map, Expr.evaluate, evaluateLeaf, Predicate.evaluate, hv]

namespace Projection

/-- Whether every projection that there is names the partition field only. -/
def IsNamed (name : String) (x : Projection) : Prop := ∀ e, x = .ok (some e) → Names name e

theorem isNamed_nothing (name : String) : IsNamed name nothing := by
  intro e h
  simp [nothing] at h

theorem isNamed_unary (op : UnaryTest) (name : String) : IsNamed name (unary op name) := by
  intro e h
  obtain rfl : Expr.leaf (.unary op name) = e := by simpa [unary] using h
  exact Or.inr ⟨_, rfl, rfl⟩

theorem isNamed_compare (op : Comparison) (name : String) (l : Except Fault Literal) :
    IsNamed name (compare op name l) := by
  intro e h
  obtain ⟨l', _, h⟩ := map_eq_ok.mp h
  obtain rfl : Expr.leaf (.compare op name l') = e := by simpa using h
  exact Or.inr ⟨_, rfl, rfl⟩

theorem isNamed_member (op : Membership) (name : String) (f : Value → Except Fault Value)
    (ls : List Literal) : IsNamed name (member op name f ls) := by
  intro e h
  obtain ⟨ts, _, h⟩ := bind_eq_ok.mp h
  obtain ⟨e', he, h⟩ := map_eq_ok.mp h
  obtain rfl : e' = e := by simpa using h
  obtain ⟨set, _, rfl⟩ := map_eq_ok.mp he
  exact names_ofSet op name _

theorem isNamed_bind {α : Type} {name : String} {x : Except Fault α} {f : α → Projection}
    (h : ∀ a, IsNamed name (f a)) : IsNamed name (x >>= f) := by
  intro e he
  obtain ⟨a, _, he⟩ := bind_eq_ok.mp he
  exact h a e he

theorem isNamed_ofSingle (side : Side) (name : String) (f : Value → Except Fault Value)
    (op : Comparison) (l : Literal) : IsNamed name (ofSingle side name f op l) := by
  unfold ofSingle
  split
  · exact isNamed_compare _ _ _
  · exact isNamed_nothing name

theorem isNamed_ofMoved (side : Side) (name : String) (f : Value → Except Fault Value)
    (op : Comparison) (l : Literal) : IsNamed name (ofMoved side name f op l) := by
  refine isNamed_bind fun m => ?_
  cases side.bound? op with
  | none => exact isNamed_nothing name
  | some bound => exact isNamed_compare _ _ _

/-- A projection of a comparison that there is compares the partition value. -/
theorem ofMoved_cases {side : Side} {name : String} {f : Value → Except Fault Value} {op : Comparison}
    {l : Literal} {e : Expr (Predicate String)} (h : ofMoved side name f op l = .ok (some e)) :
    ∃ op' b, e = .leaf (.compare op' name b) := by
  obtain ⟨m, _, h⟩ := bind_eq_ok.mp h
  cases hbound : side.bound? op with
  | none => simp [hbound, nothing] at h
  | some bound =>
    rw [hbound] at h
    obtain ⟨b, _, he⟩ := map_eq_ok.mp h
    exact ⟨bound.1, b, (Option.some.inj he).symm⟩

theorem isNamed_shaped {side : Side} {name : String} {f : Value → Except Fault Value}
    {comparison : Comparison → Literal → Projection} (h : ∀ op l, IsNamed name (comparison op l))
    (p : Predicate Column) : IsNamed name (shaped side name f comparison p) := by
  cases p with
  | unary op c => exact isNamed_unary op name
  | compare op c l => exact h op l
  | member op c ls =>
    simp only [shaped]
    split
    · exact isNamed_member _ _ _ _
    · exact isNamed_nothing name

theorem isNamed_ofBeginning (shorter asLong : Comparison) (name : String) (l : Literal)
    (width : Nat) {longer : Projection} (h : IsNamed name longer) :
    IsNamed name (ofBeginning shorter asLong name l width longer) := by
  unfold ofBeginning
  split
  · exact isNamed_compare _ _ _
  · exact isNamed_compare _ _ _
  · exact h

theorem isNamed_ofSequence (name : String) (f : Value → Except Fault Value) (width : Nat)
    (op : Comparison) (l : Literal) : IsNamed name (ofSequence name f width op l) := by
  cases op <;>
    first
      | exact isNamed_compare _ _ _
      | exact isNamed_nothing _
      | exact isNamed_ofBeginning _ _ _ _ _ (isNamed_nothing _)

theorem isNamed_ofSequenceStrict (name : String) (f : Value → Except Fault Value) (width : Nat)
    (op : Comparison) (l : Literal) : IsNamed name (ofSequenceStrict name f width op l) := by
  cases op <;>
    first
      | exact isNamed_compare _ _ _
      | exact isNamed_nothing _
      | exact isNamed_ofBeginning _ _ _ _ _ (isNamed_nothing _)
      | exact isNamed_ofBeginning _ _ _ _ _ (isNamed_compare _ _ _)

end Projection

namespace Transform

open Projection

theorem names_renamed (name : String) (p : Predicate Column) : Names name (renamed name p) := by
  cases p with
  | member op c ls => exact names_ofSet op name _
  | _ => exact Or.inr ⟨_, rfl, rfl⟩

theorem projection_identity (side : Side) (name : String) (p : Predicate Column) :
    identity.projection side name p = .ok (some (renamed name p)) := by
  cases side <;> rfl

/-- **Projections** name their partition field only. -/
theorem names_projection (t : Transform) (side : Side) (name : String) (p : Predicate Column) :
    IsNamed name (t.projection side name p) := by
  cases t with
  | identity =>
    intro e h
    rw [projection_identity] at h
    obtain rfl : renamed name p = e := by simpa using h
    exact names_renamed name p
  | void | unknown => cases side <;> exact isNamed_nothing name
  | bucket count =>
    rw [projection_bucket]
    exact isNamed_bind fun f => isNamed_shaped (isNamed_ofSingle side name f) p
  | time u =>
    rw [projection_time]
    exact isNamed_bind fun f => isNamed_shaped (isNamed_ofMoved side name f) p
  | truncate width =>
    -- texts and bytes are not projected like numbers, so the branches are gone through one by one
    cases side <;>
      simp only [projection, project, strictProject, projectTruncate, strictTruncate] <;>
      split
    all_goals
      first
        | exact isNamed_unary _ name
        | exact isNamed_nothing name
        | exact isNamed_bind fun f => isNamed_member _ _ f _
        | exact isNamed_bind fun f => isNamed_ofSequence _ _ _ _ _
        | exact isNamed_bind fun f => isNamed_ofSequenceStrict _ _ _ _ _
        | exact isNamed_bind fun f => by
            rw [ofNumber_eq]
            exact isNamed_ofMoved _ _ _ _ _
        | exact isNamed_bind fun f => by
            rw [ofNumberStrict_eq]
            exact isNamed_ofMoved _ _ _ _ _

end Transform

end PartitionPruning
