import PartitionPruning.Proofs.Filter.Equality

/-!
# Tests that have an outcome

A value of a type can be tested with every literal that was converted to the type, but for tests of the
beginning, which only texts and bytes have. A predicate on a partition field has an outcome for a value
of the field if its literals can be converted.

* **`succeeds_testCompare`**, **`succeeds_testMember`** — when a test of a value has an outcome.
* **`succeeds_outcome_compare`**, **`succeeds_evaluate_ofSet`** — when a predicate on a partition field
  has one.
-/

namespace PartitionPruning

open Outcome

/-- Whether a value is null or of the kind of a type. -/
def Primitive.mayHold (p : Primitive) (v : Value) : Prop := v.isNull = true ∨ p.admits v = true

/-- Whether the values of a type have beginnings. -/
def Primitive.hasBeginnings : Primitive → Bool
  | .string | .binary | .fixed _ => true
  | _ => false

/-- Whether a value is a decimal that is not a number. -/
def Value.isUnordered : Value → Bool
  | .decimal d => d.isNaN
  | _ => false

namespace Predicate

variable {p : Primitive} {v w : Value}

/-- What a column may hold has a key. -/
theorem isHashable_of_mayHold (hv : p.mayHold v) : v.isHashable = true := by
  rcases hv with hnull | hv
  · rw [Value.eq_null_of_isNull hnull]
    rfl
  · cases v with
    | decimal d => cases d <;> cases p <;> simp_all [Primitive.admits, Value.isHashable, Decimal.isSignaling]
    | list | record | type => cases p <;> simp [Primitive.admits] at hv
    | _ => rfl

/-- A value of a type's kind has a key, unless it is unordered. -/
theorem isHashable_of_hasKind (hw : p.hasKind w = true) (hnan : w.isUnordered = false) :
    w.isHashable = true := by
  cases w with
  | decimal d => cases d <;> simp_all [Value.isUnordered, Value.isHashable, Decimal.isSignaling, Decimal.isNaN]
  | list | record | type => cases p <;> simp [Primitive.hasKind, Value.whole?] at hw
  | _ => rfl

/-- Values of one type are ordered or are known to be unordered. -/
theorem succeeds_order (hv : p.admits v = true) (hw : p.hasKind w = true)
    (hnan : w.isUnordered = false) : Succeeds (v.order w) := by
  cases p with
  -- decimals may be no numbers, which the hypotheses on either side leave out
  | decimal precision scale =>
    cases v with
    | decimal x =>
      cases w with
      | decimal y =>
        have hx : x.isNaN = false := by
          cases x <;> simp_all [Primitive.admits, Decimal.isNaN]
        have hy : y.isNaN = false := hnan
        simp [Value.order, Value.number?, hx, hy]
      | _ => simp [Primitive.hasKind] at hw
    | _ => simp [Primitive.admits] at hv
  | string | uuid | fixed length | binary =>
    cases v <;> simp only [Primitive.admits, Bool.false_eq_true] at hv
    cases w <;> simp only [Primitive.hasKind, Bool.false_eq_true] at hw
    exact ⟨_, rfl⟩
  | boolean | int | long | float | double | date | time | timestamp | timestamptz =>
    cases v <;> simp only [Primitive.admits, Bool.false_eq_true] at hv
    cases w <;> simp only [Primitive.hasKind, Value.whole?, Option.isSome_none,
      Bool.false_eq_true] at hw
    all_goals exact ⟨_, rfl⟩

/-- Texts and bytes have beginnings, other values do not. -/
theorem succeeds_startsWith (hv : p.admits v = true) (hw : p.hasKind w = true) :
    Succeeds (v.startsWith w) ↔ p.hasBeginnings = true := by
  cases p with
  | string | fixed length | binary =>
    cases v <;> simp only [Primitive.admits, Bool.false_eq_true] at hv
    cases w <;> simp only [Primitive.hasKind, Bool.false_eq_true] at hw
    exact ⟨fun _ => rfl, fun _ => ⟨_, rfl⟩⟩
  | _ =>
    cases v <;> simp only [Primitive.admits, Bool.false_eq_true] at hv
    all_goals simp [Value.startsWith, Primitive.hasBeginnings]

/-- **Comparisons** of a value with a literal of its type have an outcome, but for tests of the
beginning. -/
theorem succeeds_testCompare {op : Comparison} (hv : p.mayHold v) (hw : p.hasKind w = true)
    (hnan : w.isUnordered = false) :
    Succeeds (testCompare op v w) ↔
      (op.isBeginning = true → v.isNull = true ∨ p.hasBeginnings = true) := by
  have hscalar := Primitive.isScalar_of_hasKind hw
  -- On null no comparison looks at its literal.
  cases hnull : v.isNull with
  | true =>
    rw [Value.eq_null_of_isNull hnull,
      testCompare_null op (by cases w <;> simp_all [Value.isScalar, Value.isNull])]
    simp
  | false =>
    have hv' : p.admits v = true := by simpa [Primitive.mayHold, hnull] using hv
    have heq : Succeeds (v.eq w) :=
      Value.exists_eq (isHashable_of_mayHold hv) hscalar (isHashable_of_hasKind hw hnan)
    have horder := succeeds_order hv' hw hnan
    have hbeginning := succeeds_startsWith hv' hw
    cases op <;>
      simp [testCompare, unlessNull, hnull, Comparison.isBeginning, Value.less, Value.lessOrEqual,
        Value.greater, Value.greaterOrEqual, heq, horder, hbeginning]

/-- **Tests of membership** have an outcome. -/
theorem succeeds_testMember {op : Membership} {members : List Value} (hv : p.mayHold v) :
    Succeeds (testMember op v members) := by
  have hin : Succeeds (v.isIn members) := by
    rw [Value.isIn, isHashable_of_mayHold hv]
    exact ⟨_, rfl⟩
  cases op <;> simp [testMember, hin]

/-- Tests of a value on its own have an outcome. -/
theorem succeeds_testUnary {op : UnaryTest} (hv : p.mayHold v) : Succeeds (testUnary op v) := by
  have hnan : Succeeds v.isNaN := by
    rcases hv with hnull | hv
    · rw [Value.eq_null_of_isNull hnull]
      exact ⟨_, rfl⟩
    · cases v with
      | decimal d =>
        cases d <;> cases p <;> simp_all [Primitive.admits, Value.isNaN, Decimal.isSignaling]
      | _ => exact ⟨_, rfl⟩
  cases op <;> simp [testUnary, hnan]

/-! ## Predicates on a partition field -/

section Outcomes

variable {c : Column} {name : String} {u u' : Literal}

/-- A test of one value has an outcome on every value that the column may hold. -/
theorem succeeds_outcome_unary {op : UnaryTest} (hv : p.mayHold v) :
    Succeeds (outcome c v (.unary op name)) := by
  have htest : Succeeds (testUnary op v) := succeeds_testUnary hv
  have hbound : Succeeds (Expr.evaluate (fun q => q.test v) (bindUnary op c)) := by
    cases op <;> simp only [bindUnary] <;> split <;>
      first
        | exact ⟨_, rfl⟩
        | exact htest
  exact hbound

/-- A comparison has an outcome if its literal can be converted. A mark decides it. -/
theorem succeeds_outcome_compare {op : Comparison} (hc : c.field.type = .primitive p)
    (hv : p.mayHold v) (hu : u.convert (.primitive p) = .ok u')
    (hnan : u'.value.isUnordered = false) (hop : op.isBeginning = false) :
    Succeeds (outcome c v (.compare op name u)) := by
  have hbound : Succeeds (Expr.evaluate (fun q => q.test v) (bindCompare op c u')) := by
    unfold bindCompare
    split
    · exact ⟨_, rfl⟩
    · exact (succeeds_testCompare hv (Literal.kind_of_convert hu) hnan).mpr (by simp [hop])
  simpa [outcome, bindTo, hc, hu] using hbound

/-- A comparison with a literal that is no mark has an outcome, but for tests of the beginning. -/
theorem succeeds_outcome_compare_iff {op : Comparison} (hc : c.field.type = .primitive p)
    (hv : p.mayHold v) (hu : u.convert (.primitive p) = .ok u')
    (hnan : u'.value.isUnordered = false) (hmark : u'.isMark = false) :
    Succeeds (outcome c v (.compare op name u)) ↔
      (op.isBeginning = true → v.isNull = true ∨ p.hasBeginnings = true) := by
  rw [outcome_compare (hc ▸ hu) hmark]
  exact succeeds_testCompare hv (Literal.kind_of_convert hu) hnan

/-- A bound test of membership has an outcome. -/
theorem succeeds_evaluate_bound {op : Membership} {ls : List Literal} (hv : p.mayHold v)
    (hls : ∀ l ∈ ls, p.hasKind l.value = true ∧ l.value.isUnordered = false) :
    Succeeds (Expr.evaluate (fun q => q.test v) (ofSet op c ls)) := by
  match ls, hls with
  | [], _ => exact ⟨_, rfl⟩
  | [l], hls =>
    obtain ⟨hkind, hnan⟩ := hls l (List.mem_singleton.mpr rfl)
    refine (succeeds_testCompare hv hkind hnan).mpr fun hop => ?_
    cases op <;> simp [Membership.single, Comparison.isBeginning] at hop
  | l :: m :: rest, _ => exact succeeds_testMember hv

/-- **Tests of membership** on a partition field have an outcome if all literals can be converted. -/
theorem succeeds_evaluate_ofSet {op : Membership} {ls : List Literal}
    (hc : c.field.type = .primitive p) (hv : p.mayHold v)
    (hls : ∀ l ∈ ls, ∀ l', l.convert (.primitive p) = .ok l' → l'.value.isUnordered = false) :
    Succeeds (Expr.evaluate (outcome c v) (ofSet op name ls)) ↔
      ∀ l ∈ ls, Succeeds (l.convert (.primitive p)) := by
  match ls, hls with
  | [], _ => simp [ofSet, Expr.evaluate]
  | [l], hls =>
    have hsingle : op.single.isBeginning = false := by cases op <;> rfl
    simp only [List.mem_singleton, forall_eq] at hls ⊢
    constructor
    · rintro ⟨t, ht⟩
      obtain ⟨l', hl'⟩ := outcome_compare_inv ht
      exact ⟨l', hc ▸ hl'⟩
    · rintro ⟨l', hl'⟩
      exact succeeds_outcome_compare hc hv hl' (hls l' hl') hsingle
  | l :: m :: rest, hls =>
    -- the set is made of converted literals of the type, all of which can be members of one
    rw [← succeeds_mapM]
    constructor
    · rintro ⟨t, ht⟩
      obtain ⟨e, he, _⟩ := bind_eq_ok.mp ht
      obtain ⟨ls', hls', _⟩ := bind_eq_ok.mp he
      exact ⟨ls', hc ▸ hls'⟩
    · rintro ⟨ls', hls'⟩
      have hkinds : ∀ l' ∈ ls', p.hasKind l'.value = true ∧ l'.value.isUnordered = false := by
        intro l' hl'
        obtain ⟨k, hk, hkl'⟩ := exists_of_mem_result hls' hl'
        exact ⟨Literal.kind_of_convert hkl', hls k hk l' hkl'⟩
      have hhashable : ∀ l' ∈ ls', l'.value.isHashable = true := fun l' hl' =>
        isHashable_of_hasKind (hkinds l' hl').1 (hkinds l' hl').2
      have hset : Literal.toSet ls' = .ok (Literal.relisted (Literal.distinct ls')) :=
        Literal.toSet_eq_ok.mpr ⟨hhashable, rfl⟩
      have hbound : outcome c v (.member op name (l :: m :: rest)) =
          Expr.evaluate (fun q => q.test v) (ofSetAgain op c
            (Literal.relisted (Literal.distinct ls'))) := by
        rw [← hc] at hls'
        simp only [outcome, bindTo, hls', ok_bind, ofSetOf, hset, map_ok]
      show Succeeds (outcome c v (.member op name (l :: m :: rest)))
      rw [hbound]
      exact succeeds_evaluate_bound hv fun k hk =>
        hkinds k (Literal.mem_of_mem_toSet hset (Literal.mem_relisted.mp hk))

end Outcomes

end Predicate

end PartitionPruning
