import PartitionPruning.Proofs.Literal.Conversion
import PartitionPruning.Proofs.Transform.Shape

/-!
# Equal values

A number may be given as an integer, a truth value, a double or a decimal. Predicates do not tell equal
numbers apart: whatever one of them is tested for, the other one passes too.

* **`test_of_sameNumber`** — tests of equal numbers have one outcome.
* **`evaluate_of_equals`** — projections have one outcome for equal partition values.
-/

namespace PartitionPruning

open Outcome (bind_eq_ok map_eq_ok)

namespace Value

/-- Whether two values are equal or the same; what is not a number does not even equal itself. -/
def Equals (v w : Value) : Prop := v = w ∨ v.eq w = .ok true

/-- Whether two values are numbers with one exact value. -/
def SameNumber (v w : Value) : Prop :=
  ∃ x y a, v.number? = some x ∧ w.number? = some y ∧ x.exactValue? = some a ∧ y.exactValue? = some a

/-- Values that are equal are the same value or the same number. -/
theorem equals_cases {v w : Value} (hw : w.isNull = true ∨ w.isScalar = true) (h : v.Equals w) :
    v = w ∨ v.SameNumber w := by
  rcases h with h | h
  · exact Or.inl h
  -- Equality of numbers is by value, across their types; other scalars are equal only when they are the
  -- same.
  · cases hy : w.number? with
    | none =>
      left
      rcases hw with hw | hw
      · rw [eq_null_of_isNull hw] at h ⊢
        cases v <;> simp_all [eq, number?]
      · cases w <;> simp [isScalar, number?] at hw hy <;> cases v <;> simp_all [eq, number?]
    | some y =>
      right
      cases hx : v.number? with
      | none => cases v <;> cases w <;> simp_all [eq, number?]
      | some x =>
        rw [eq_number hx hy, eqNumber] at h
        split at h
        · simp at h
        · obtain ⟨a, ha, hb⟩ := Decimal.order?_eq_some_eq.mp (by simpa using h)
          exact ⟨x, y, a, hx, hy, ha, hb⟩

/-- A number with an exact value is no null and can be a member of a set. -/
theorem isNaN_of_exact {v : Value} {x : Decimal} {a : WithBotTop ℚ}
    (hx : v.number? = some x) (ha : x.exactValue? = some a) :
    v.isNull = false ∧ v.isNaN = .ok false ∧ v.isHashable = true := by
  cases v with
  | bool | int => exact ⟨rfl, rfl, rfl⟩
  | float y =>
    obtain rfl : y.toDecimal = x := by simpa [number?] using hx
    refine ⟨rfl, ?_, rfl⟩
    -- A float or a decimal that has a value is a number.
    by_cases hnan : y.isNaN = true
    · simp [Binary64.toDecimal, hnan, Decimal.exactValue?] at ha
    · simpa [isNaN] using hnan
  | decimal d =>
    obtain rfl : d = x := by simpa [number?] using hx
    cases d with
    | nan => simp [Decimal.exactValue?] at ha
    | _ => exact ⟨rfl, rfl, rfl⟩
  | _ => simp [number?] at hx

end Value

namespace Primitive

/-- The values of a primitive type are scalars. -/
theorem isScalar_of_hasKind {p : Primitive} {v : Value} (h : p.hasKind v = true) :
    v.isScalar = true := by
  cases v with
  | null | date | time | timestamp | record | list | type => cases p <;> simp [hasKind, Value.whole?] at h
  | _ => rfl

/-- The values of a type are decimals if one of them is. -/
theorem decimal_of_hasKind {p : Primitive} {v : Value} (h : p.hasKind v = true)
    (hv : v.isDecimal = true) : ∃ precision scale, p = .decimal precision scale := by
  cases v with
  | decimal d => cases p <;> simp [hasKind, Value.whole?] at h; exact ⟨_, _, rfl⟩
  | _ => simp [Value.isDecimal] at hv

end Primitive

namespace Predicate

variable {v w l : Value} {t : Bool}

/-- Tests of one value do not see how the number is written. -/
theorem testUnary_of_sameNumber {op : UnaryTest} (h : v.SameNumber w) :
    testUnary op v = testUnary op w := by
  obtain ⟨x, y, a, hx, hy, ha, hb⟩ := h
  obtain ⟨hvnull, hvnan, _⟩ := Value.isNaN_of_exact hx ha
  obtain ⟨hwnull, hwnan, _⟩ := Value.isNaN_of_exact hy hb
  cases op <;> simp [testUnary, hvnull, hvnan, hwnull, hwnan]

/-- A number does not equal what is no number. -/
theorem eq_not_number {x : Decimal} (hx : v.number? = some x) (hl : l.number? = none) :
    v.eq l = .ok false := by
  cases v <;> simp only [Value.number?, reduceCtorEq] at hx <;> cases l <;>
    first
      | rfl
      | simp [Value.number?] at hl

/-- Equality does not see how the number is written. -/
theorem eq_of_sameNumber (h : v.SameNumber w) (l : Value) : v.eq l = w.eq l := by
  obtain ⟨x, y, a, hx, hy, ha, hb⟩ := h
  cases hz : l.number? with
  | none => rw [eq_not_number hx hz, eq_not_number hy hz]
  | some z =>
    have hquiet {u : Decimal} (hu : u.exactValue? = some a) : u.isSignaling = false := by
      cases hs : u.isSignaling with
      | false => rfl
      | true => simp [Value.exactValue?_of_isSignaling hs] at hu
    rw [Value.eq_number hx hz, Value.eq_number hy hz, Value.eqNumber, Value.eqNumber, hquiet ha,
      hquiet hb, Decimal.order?_congr (ha.trans hb.symm)]

/-- The order of a number and another value. -/
theorem order_number {x : Decimal} (hx : v.number? = some x) (l : Value) :
    v.order l = match l.number? with
      | some z =>
        if (v.isDecimal || l.isDecimal) && (x.isNaN || z.isNaN) then .error .undefinedDecimal
        else .ok (x.order? z)
      | none => .error .notOrdered := by
  cases v <;> simp only [Value.number?, reduceCtorEq, Option.some.injEq] at hx <;> subst hx <;>
    cases l <;> rfl

/-- What one number is ordered with, so is the other. A decimal is not ordered with what is not a
number, so it may take the place of another kind of number among decimals only. -/
theorem order_of_sameNumber (h : v.SameNumber w) (hdecimal : w.isDecimal = true → l.isDecimal = true)
    {o : Option Ordering} (ho : v.order l = .ok o) : w.order l = .ok o := by
  obtain ⟨x, y, a, hx, hy, ha, hb⟩ := h
  -- Having a value, neither number is a missing one, so no order signals.
  have hquiet {u : Decimal} (hu : u.exactValue? = some a) : u.isNaN = false := by
    cases u <;> simp_all [Decimal.isNaN, Decimal.exactValue?]
  rw [order_number hx] at ho
  rw [order_number hy]
  cases hz : l.number? with
  | none => simp [hz] at ho
  | some z =>
    simp only [hz, hquiet ha, hquiet hb, Bool.false_or,
      Decimal.order?_congr (ha.trans hb.symm)] at ho ⊢
    split at ho
    · simp at ho
    · rename_i hordered
      rw [if_neg, ho]
      intro hw
      simp only [Bool.and_eq_true, Bool.or_eq_true] at hw hordered
      exact hordered ⟨Or.inr (hw.1.elim hdecimal id), hw.2⟩

/-- Comparing decimals with decimals gives the same outcome for the same number. -/
theorem testCompare_of_sameNumber {op : Comparison} (h : v.SameNumber w)
    (hdecimal : w.isDecimal = true → l.isDecimal = true) (ht : testCompare op v l = .ok t) :
    testCompare op w l = .ok t := by
  have heq := eq_of_sameNumber h l
  have horder {o} := order_of_sameNumber (o := o) h hdecimal
  obtain ⟨x, y, a, hx, hy, ha, hb⟩ := h
  obtain ⟨hvnull, _, _⟩ := Value.isNaN_of_exact hx ha
  obtain ⟨hwnull, _, _⟩ := Value.isNaN_of_exact hy hb
  cases op with
  | equal | notEqual =>
    simp only [testCompare, ← heq] at ht ⊢
    exact ht
  | less | lessOrEqual | greater | greaterOrEqual =>
    simp only [testCompare, unlessNull, hvnull, hwnull, Bool.false_eq_true, if_false] at ht ⊢
    obtain ⟨o, ho, rfl⟩ := map_eq_ok.mp ht
    exact map_eq_ok.mpr ⟨o, horder ho, rfl⟩
  | startsWith | notStartsWith =>
    -- numbers have no beginning
    cases v <;> simp [Value.number?] at hx <;>
      simp [testCompare, unlessNull, Value.isNull, Value.startsWith, Except.map] at ht

/-- Membership does not see how the number is written. -/
theorem testMember_of_sameNumber {op : Membership} {members : List Value} (h : v.SameNumber w) :
    testMember op v members = testMember op w members := by
  have heq := eq_of_sameNumber h
  obtain ⟨x, y, a, hx, hy, ha, hb⟩ := h
  have hin : v.isIn members = w.isIn members := by
    rw [Value.isIn, Value.isIn, (Value.isNaN_of_exact hx ha).2.2, (Value.isNaN_of_exact hy hb).2.2]
    have hsame : v.same = w.same := by
      funext l
      rw [Value.same, Value.same, heq]
    simp only [if_true, hsame]
  cases op <;> simp [testMember, hin]

/-- **Tests of equal numbers** have one outcome. -/
theorem test_of_sameNumber {τ : Type} {q : Predicate τ} (h : v.SameNumber w)
    (hdecimal : w.isDecimal = true → ∀ l ∈ q.literals, l.value.isDecimal = true)
    (ht : q.test v = .ok t) : q.test w = .ok t := by
  cases q with
  | unary op term => exact (testUnary_of_sameNumber h).symm.trans ht
  | compare op term l =>
    exact testCompare_of_sameNumber h (fun hw => hdecimal hw l (by simp [literals])) ht
  | member op term ls => exact (testMember_of_sameNumber h).symm.trans ht

/-- **Projections** have one outcome for equal partition values, if a decimal is the value of a column
of decimals only. -/
theorem evaluate_of_equals {c : Column} {name : String} {e : Expr (Predicate String)}
    (hnames : Projection.Names name e) (hw : w.isNull = true ∨ w.isScalar = true)
    (hdecimal : w.isDecimal = true → ∃ precision scale,
      c.field.type = .primitive (.decimal precision scale))
    (h : v.Equals w) (ht : Expr.evaluate (outcome c v) e = .ok t) :
    Expr.evaluate (outcome c w) e = .ok t := by
  rcases Value.equals_cases hw h with rfl | hsame
  · exact ht
  · rcases hnames with ⟨b, rfl⟩ | ⟨p, rfl, _⟩
    · exact ht
    · obtain ⟨x, hx, ht⟩ := bind_eq_ok.mp ht
      refine bind_eq_ok.mpr ⟨x, hx, ?_⟩
      rcases bindTo_inv hx with ⟨b, rfl⟩ | ⟨q, rfl, _, hlits⟩
      · exact ht
      · -- Decimals meet decimals only: the column's type says so of the converted literals.
        refine test_of_sameNumber hsame (fun hw l' hl' => ?_) ht
        obtain ⟨precision, scale, htype⟩ := hdecimal hw
        obtain ⟨l, _, hll'⟩ := hlits l' hl'
        rw [htype] at hll'
        obtain ⟨d, rfl, _⟩ := Literal.isConverted_of_convert hll'
        rfl

end Predicate

end PartitionPruning
