import Mathlib
import PartitionPruning.Proofs.Expr.Complement
import PartitionPruning.Proofs.Filter.Safety

/-!
# Opposites of filters

Each predicate has an opposite. On most values it is the complement, but an ordering and its opposite are
both false of what cannot be ordered: of a null, and of a double that is not a number. Nothing else comes
between a filter and the complement of it: tests for nulls, equality, membership and beginnings have
complements on every value, and what binding decides for a predicate it decides the other way for its
opposite.

* **`test_opposite_iff`** — the opposite of a predicate is its complement on a value exactly if the value
  can be ordered or no order is asked for.
* **`bindTo_opposite`** — the opposite of a predicate is bound to the opposite of what that is bound to.
* **`opposite_negates`** — the opposite of a filter is its complement on a row whose values can be
  ordered where the filter does.
-/

namespace PartitionPruning

open Outcome (bind_eq_ok map_eq_ok)

/-! ## Values that can be ordered -/

/-- Decimals are ordered unless one of them is no number. -/
theorem Decimal.order?_eq_none {x y : Decimal} :
    x.order? y = none ↔ x.isNaN = true ∨ y.isNaN = true := by
  cases x <;> cases y <;> simp [order?, isNaN]

namespace Value

/-- Whether a value has a place in an order: it is no null, and no number that differs from itself. -/
def IsComparable (v : Value) : Prop := v.isNull = false ∧ v.isNaN ≠ .ok true

/-- A number is unordered only as the decimal it stands for. -/
theorem isNaN_of_number {v : Value} {x : Decimal} (hx : v.number? = some x)
    (hquiet : v.isDecimal = true → x.isNaN = false) : v.isNaN = .ok x.isNaN := by
  cases v with
  | bool b => cases b <;> obtain rfl := Option.some.inj hx <;> rfl
  | int n => obtain rfl := Option.some.inj hx; rfl
  | float y => obtain rfl := Option.some.inj hx; rw [isNaN, Binary64.isNaN_toDecimal]
  | decimal d =>
    obtain rfl := Option.some.inj hx
    cases d with
    | nan => simp [isDecimal, Decimal.isNaN] at hquiet
    | _ => rfl
  | _ => simp [number?] at hx

/-- **Unordered values.** Where the order is asked for without fault, there is none exactly if the first
value is not a number. The second one may be so only among decimals, and they refuse. -/
theorem order_eq_none_iff {v w : Value} {o : Option Ordering} (h : v.order w = .ok o)
    (hw : w.isNaN = .ok true → w.isDecimal = true) : o = none ↔ v.isNaN = .ok true := by
  -- Values that are no numbers always have an order, so only the number's own case can fail to.
  cases hx : v.number? with
  | none =>
    have hnan : v.isNaN = .ok false := by cases v <;> simp [number?] at hx <;> rfl
    have hsome : ∃ c, o = some c := by
      cases v <;> simp [number?] at hx <;> cases w <;> simp [order, number?] at h <;>
        exact ⟨_, h.symm⟩
    obtain ⟨c, rfl⟩ := hsome
    simp [hnan]
  | some x =>
    rw [Predicate.order_number hx] at h
    cases hy : w.number? with
    | none => simp [hy] at h
    | some y =>
      simp only [hy] at h
      split at h
      · simp at h
      · rename_i hquiet
        obtain rfl := Except.ok.inj h
        have hv : v.isNaN = .ok x.isNaN := isNaN_of_number hx fun hd => by simp_all
        have hw' : w.isNaN = .ok y.isNaN := isNaN_of_number hy fun hd => by simp_all
        have hynan : y.isNaN = false := by
          cases hnan : y.isNaN with
          | false => rfl
          | true => simp_all
        rw [Decimal.order?_eq_none, hynan, hv]
        simp

end Value

/-- The only ordered literals that may be no number are decimals. -/
theorem Literal.isDecimal_of_isNaN {l : Literal} (hl : l.isOrdered = true)
    (h : l.value.isNaN = .ok true) : l.value.isDecimal = true := by
  cases l with
  | float x | double x => simp_all [isOrdered, value, Value.isNaN]
  | decimal d => rfl
  | long w | date w | time w | timestamp w => cases w <;> simp [value, Value.ofWhole, Value.isNaN] at h
  | aboveMax t | belowMin t =>
    cases t <;> simp [value, Bounded.max, Bounded.min, Value.isNaN] at h
    revert h
    decide
  | _ => simp [value, Value.isNaN] at h

/-! ## Opposite comparisons -/

namespace Comparison

/-- The outcome of an ordering of values in some order; unordered values have none. -/
def ofOrder : Comparison → Option Ordering → Bool
  | .less, o => o == some .lt
  | .lessOrEqual, o => o == some .lt || o == some .eq
  | .greater, o => o == some .gt
  | .greaterOrEqual, o => o == some .gt || o == some .eq
  | _, _ => false

/-- Nothing holds of values without an order. -/
theorem ofOrder_none (op : Comparison) : op.ofOrder none = false := by cases op <;> rfl

/-- Of two values with an order, exactly one of an ordering and its opposite holds. -/
theorem ofOrder_opposite {op : Comparison} (h : op.isOrdering = true) (o : Ordering) :
    op.opposite.ofOrder (some o) = !op.ofOrder (some o) := by
  cases op <;> simp only [isOrdering, Bool.false_eq_true] at h <;> cases o <;> rfl

/-- The opposite of a comparison is an ordering when the comparison is. -/
theorem isOrdering_opposite (op : Comparison) : op.opposite.isOrdering = op.isOrdering := by
  cases op <;> rfl

end Comparison

namespace Predicate

variable {σ τ : Type} {v w : Value} {t : Bool}

/-- Whether a predicate asks for an order. -/
def isOrdering : Predicate τ → Bool
  | .compare op _ _ => op.isOrdering
  | _ => false

/-- A predicate's opposite is an ordering when the predicate is. -/
theorem isOrdering_opposite (q : Predicate τ) : q.opposite.isOrdering = q.isOrdering := by
  cases q with
  | compare op => exact op.isOrdering_opposite
  | _ => rfl

/-- The opposite is about the same term. -/
theorem term_opposite (q : Predicate τ) : q.opposite.term = q.term := by cases q <;> rfl

/-- The opposite has the same literals. -/
theorem literals_opposite (q : Predicate τ) : q.opposite.literals = q.literals := by cases q <;> rfl

/-- An ordering is decided by the order of the two values, null first. -/
theorem testCompare_ordering {op : Comparison} (h : op.isOrdering = true) (v w : Value) :
    testCompare op v w = unlessNull v ((v.order w).map op.ofOrder) := by
  cases op <;> simp only [Comparison.isOrdering, Bool.false_eq_true] at h <;> rfl

/-- **Opposite orderings** are complements on what can be ordered, and on nothing else. -/
theorem testCompare_opposite_iff {op : Comparison} (hop : op.isOrdering = true)
    (hw : w.isNaN = .ok true → w.isDecimal = true) (h : testCompare op v w = .ok t) :
    testCompare op.opposite v w = .ok (!t) ↔ v.IsComparable := by
  rw [testCompare_ordering hop, unlessNull] at h
  rw [testCompare_ordering (op.isOrdering_opposite ▸ hop), unlessNull, Value.IsComparable]
  cases hnull : v.isNull with
  | true =>
    obtain rfl : false = t := by simpa [hnull] using h
    simp
  | false =>
    simp only [hnull, Bool.false_eq_true, if_false] at h ⊢
    obtain ⟨o, ho, rfl⟩ := map_eq_ok.mp h
    have hnan := Value.order_eq_none_iff ho hw
    rw [ho, Outcome.map_ok, Except.ok.injEq, ne_eq, ← hnan]
    -- Without an order both comparisons are false; with one, exactly one of them is.
    cases o with
    | none => simp [Comparison.ofOrder_none]
    | some c => simp [Comparison.ofOrder_opposite hop]

/-- **Other opposite comparisons** are complements on every value. -/
theorem testCompare_opposite {op : Comparison} (hop : op.isOrdering = false)
    (h : testCompare op v w = .ok t) : testCompare op.opposite v w = .ok (!t) := by
  cases op with
  | equal | startsWith => exact map_eq_ok.mpr ⟨t, h, rfl⟩
  | notEqual | notStartsWith =>
    obtain ⟨b, hb, rfl⟩ := map_eq_ok.mp h
    rwa [Bool.not_not]
  | _ => simp [Comparison.isOrdering] at hop

/-- A test of one value has its opposite, nulls and unordered values included. -/
theorem testUnary_opposite {op : UnaryTest} (h : testUnary op v = .ok t) :
    testUnary op.opposite v = .ok (!t) := by
  cases op with
  | isNull =>
    obtain rfl := Except.ok.inj h
    rfl
  | notNull =>
    obtain rfl := Except.ok.inj h
    rw [Bool.not_not]
    rfl
  | isNaN => exact map_eq_ok.mpr ⟨t, h, rfl⟩
  | notNaN =>
    obtain ⟨b, hb, rfl⟩ := map_eq_ok.mp h
    rwa [Bool.not_not]

/-- Membership has its opposite for every value, null included: both are decided by the same search. -/
theorem testMember_opposite {op : Membership} {members : List Value}
    (h : testMember op v members = .ok t) : testMember op.opposite v members = .ok (!t) := by
  cases op with
  | isIn => exact map_eq_ok.mpr ⟨t, h, rfl⟩
  | notIn =>
    obtain ⟨b, hb, rfl⟩ := map_eq_ok.mp h
    rwa [Bool.not_not]

/-- **Opposite predicates.** Where a predicate has an outcome, its opposite has the opposite one exactly
if no order is asked for or the value can be ordered. -/
theorem test_opposite_iff {q : Predicate τ} (hlits : ∀ l ∈ q.literals, l.isOrdered = true)
    (h : q.test v = .ok t) :
    q.opposite.test v = .ok (!t) ↔ (q.isOrdering = true → v.IsComparable) := by
  cases q with
  | unary op term => exact iff_of_true (testUnary_opposite h) nofun
  | member op term ls => exact iff_of_true (testMember_opposite h) nofun
  | compare op term l =>
    cases hop : op.isOrdering with
    | true =>
      have hnan := Literal.isDecimal_of_isNaN (hlits l (List.mem_singleton.mpr rfl))
      exact (testCompare_opposite_iff hop hnan h).trans ⟨fun hv _ => hv, fun hv => hv hop⟩
    | false => exact iff_of_true (testCompare_opposite hop h) fun hop' => by simp [isOrdering, hop] at hop'

/-- The opposite of a bound predicate has the opposite outcome, where the predicate has one at all. -/
theorem evaluate_opposite {q : Predicate Column} {row : Value}
    (hlits : ∀ l ∈ q.literals, l.isOrdered = true)
    (hrow : q.isOrdering = true → ∀ v, q.term.accessor.get row = .ok v → v.IsComparable)
    (h : q.evaluate row = .ok t) : q.opposite.evaluate row = .ok (!t) := by
  obtain ⟨v, hv, h⟩ := bind_eq_ok.mp h
  rw [evaluate, q.term_opposite, hv, Outcome.ok_bind]
  exact (test_opposite_iff hlits h).mpr fun hq => hrow hq v hv

/-- The opposite of the opposite is the predicate itself, so the outcomes determine each other. -/
theorem evaluate_opposite_iff {q : Predicate Column} {row : Value}
    (hlits : ∀ l ∈ q.literals, l.isOrdered = true)
    (hrow : q.isOrdering = true → ∀ v, q.term.accessor.get row = .ok v → v.IsComparable) (t : Bool) :
    q.evaluate row = .ok t ↔ q.opposite.evaluate row = .ok (!t) := by
  refine ⟨evaluate_opposite hlits hrow, fun h => ?_⟩
  have hback := evaluate_opposite (q := q.opposite) (by rwa [q.literals_opposite])
    (by rwa [q.isOrdering_opposite, q.term_opposite]) h
  rwa [q.opposite_opposite, Bool.not_not] at hback

/-! ## Binding opposites -/

/-- Binding the opposite test gives the opposite of the bound test, folded or not. -/
theorem bindUnary_opposite (op : UnaryTest) (c : Column) :
    bindUnary op.opposite c = (bindUnary op c).invert opposite := by
  cases op <;> simp only [bindUnary, UnaryTest.opposite] <;> split <;> rfl

/-- What a mark decides for a comparison it decides the other way for the opposite. -/
theorem decided?_opposite (op : Comparison) (l : Literal) :
    decided? op.opposite l = (decided? op l).map (!·) := by
  cases l with
  | aboveMax t | belowMin t => cases op <;> rfl
  | _ => rfl

/-- Binding the opposite comparison gives the opposite of the bound comparison. -/
theorem bindCompare_opposite (op : Comparison) (c : Column) (l : Literal) :
    bindCompare op.opposite c l = (bindCompare op c l).invert opposite := by
  rw [bindCompare, bindCompare, decided?_opposite]
  cases decided? op l <;> rfl

/-- The opposite of a set predicate is built of the same set. -/
theorem ofSet_opposite (op : Membership) (term : τ) (ls : List Literal) :
    ofSet op.opposite term ls = (ofSet op term ls).invert opposite := by
  match ls with
  | [] | [_] => cases op <;> rfl
  | _ :: _ :: _ => rfl

/-- **Opposites are bound to opposites**: a fold of the one is the opposite fold of the other. -/
theorem bindTo_opposite {p : Predicate String} {c : Column} {e : Expr (Predicate Column)}
    (h : p.bindTo c = .ok e) : p.opposite.bindTo c = .ok (e.invert opposite) := by
  cases p with
  | unary op name =>
    obtain rfl := Except.ok.inj h
    exact congrArg Except.ok (bindUnary_opposite op c)
  | compare op name l =>
    obtain ⟨l', hl', rfl⟩ := map_eq_ok.mp h
    exact map_eq_ok.mpr ⟨l', hl', bindCompare_opposite op c l'⟩
  | member op name ls =>
    obtain ⟨ls', hls', h⟩ := bind_eq_ok.mp h
    obtain ⟨set, hset, rfl⟩ := map_eq_ok.mp h
    exact bind_eq_ok.mpr ⟨ls', hls', map_eq_ok.mpr ⟨set, hset, ofSet_opposite op c _⟩⟩

/-- Only what asks for an order is bound to what does. -/
theorem isOrdering_of_bindTo {p : Predicate String} {c : Column} {q : Predicate Column}
    (h : p.bindTo c = .ok (.leaf q)) (hq : q.isOrdering = true) : p.isOrdering = true := by
  -- Binding may fold a predicate or make it an equality, and never makes an ordering of another one.
  cases p with
  | unary op name =>
    have hunary : bindUnary op c = .leaf q := Except.ok.inj h
    cases op <;> simp only [bindUnary] at hunary <;> split at hunary <;>
      first
        | contradiction
        | (obtain rfl := Expr.leaf.inj hunary; exact hq)
  | compare op name l =>
    obtain ⟨l', _, hcompare⟩ := map_eq_ok.mp h
    unfold bindCompare at hcompare
    split at hcompare
    · contradiction
    · obtain rfl := Expr.leaf.inj hcompare
      exact hq
  | member op name ls =>
    obtain ⟨ls', _, hmember⟩ := bind_eq_ok.mp h
    obtain ⟨set, _, hset⟩ := map_eq_ok.mp hmember
    unfold ofSetAgain ofSet at hset
    split at hset
    · contradiction
    · obtain rfl := Expr.leaf.inj hset
      cases op <;> exact hq
    · obtain rfl := Expr.leaf.inj hset
      exact hq

end Predicate

/-! ## Filters -/

/-- The literals of a predicate. -/
def Leaf.literals : Leaf → List Literal
  | .unbound p => p.literals
  | .bound p => p.literals

namespace Filter

/-- What the opposite of a predicate is bound to is a complement of what the predicate is bound to. -/
theorem isComplement_bindLeaf {schema : Schema} {caseSensitive : Bool} {row : Value} {a : Leaf}
    {x : Filter} (hlits : ∀ l ∈ a.literals, l.Made)
    (hrow : ∀ p c v, a = .unbound p → p.isOrdering = true → schema.column caseSensitive p.term = .ok c →
      c.accessor.get row = .ok v → v.IsComparable)
    (h : bindLeaf schema caseSensitive a = .ok x) :
    ∃ y, bindLeaf schema caseSensitive a.opposite = .ok y ∧
      Expr.IsComplement (evaluateLeaf row) x y := by
  cases a with
  | bound p => simp [bindLeaf] at h
  | unbound p =>
    obtain ⟨e, he, rfl⟩ := map_eq_ok.mp h
    obtain ⟨c, hc, hbind⟩ := bind_eq_ok.mp he
    -- The same column is found for the opposite, so binding commutes with `opposite`.
    have hopposite : p.opposite.bind schema caseSensitive = .ok (e.invert Predicate.opposite) := by
      rw [Predicate.bind, p.term_opposite, hc]
      exact Predicate.bindTo_opposite hbind
    refine ⟨_, map_eq_ok.mpr ⟨_, hopposite, rfl⟩, ?_⟩
    rcases Predicate.bindTo_inv hbind with ⟨b, rfl⟩ | ⟨q, rfl, rfl, hconverted⟩
    · exact Expr.isComplement_constant _ b
    · refine Expr.isComplement_leaf (Predicate.evaluate_opposite_iff (fun l' hl' => ?_) fun hq v hv => ?_)
      · obtain ⟨l, hl, hconvert⟩ := hconverted l' hl'
        exact Literal.isOrdered_of_made (.converted (hlits l hl) hconvert)
      · exact hrow p q.term v rfl (Predicate.isOrdering_of_bindTo hbind hq) hc hv

/-- **Opposites are complements.** If a filter has a truth value on a row, its opposite has the opposite
one, provided that the values its orderings read in the row are neither nulls nor doubles that are not
numbers. This holds of bound filters, and of filters that are bound to one schema together with their
opposites. -/
theorem opposite_negates {f : Filter} {row : Value} (hlits : ∀ a ∈ f.leaves, ∀ l ∈ a.literals, l.Made) :
    ((∀ q v, Leaf.bound q ∈ f.leaves → q.isOrdering = true → q.term.accessor.get row = .ok v →
        v.IsComparable) →
      ∀ b, f.evaluate row = .ok b → f.opposite.evaluate row = .ok (!b)) ∧
    ∀ schema caseSensitive,
      (∀ p c v, Leaf.unbound p ∈ f.leaves → p.isOrdering = true →
        schema.column caseSensitive p.term = .ok c → c.accessor.get row = .ok v → v.IsComparable) →
      ∀ b, f.evaluateIn schema caseSensitive row = .ok b →
        f.opposite.evaluateIn schema caseSensitive row = .ok (!b) := by
  refine ⟨fun hrow b h => ?bound, fun schema caseSensitive hrow b h => ?unbound⟩
  case bound =>
    refine Expr.evaluate_invert (fun a ha t ht => ?_) h
    cases a with
    | unbound p => simp [evaluateLeaf] at ht
    | bound q =>
      have hordered l hl := Literal.isOrdered_of_made (hlits _ ha l hl)
      exact Predicate.evaluate_opposite hordered (fun hq v hv => hrow q v ha hq hv) ht
  case unbound =>
    obtain ⟨B, hB, h⟩ := bind_eq_ok.mp h
    have hleaves : ∀ a ∈ f.leaves, ∀ x, bindLeaf schema caseSensitive a = .ok x →
        ∃ y, bindLeaf schema caseSensitive a.opposite = .ok y ∧
          Expr.IsComplement (evaluateLeaf row) x y := fun a ha x hx =>
      isComplement_bindLeaf (hlits a ha) (fun p c v hp => hrow p c v (hp ▸ ha)) hx
    -- Binding may have folded leaves to constants, which is why complements and not leaves are
    -- compared.
    obtain ⟨B', hB', hcomplement⟩ := Expr.substitute_invert (fun _ _ => isNormal_bindLeaf) hleaves hB
    exact bind_eq_ok.mpr ⟨B', hB', (hcomplement.evaluate_iff b).mp h⟩

/-- The integer 5 is below 7, not above what no integer of the column reaches, and not in a set with such
a number. The opposite of the filter that is false of it is true, before and after binding. -/
theorem opposite_negates_five :
    let c : Column := ⟨⟨1, "c", .primitive .int, false, none⟩, ⟨0, []⟩⟩
    let schema := Schema.ofFields [c.field]
    let three : Literal := .long (.number 3)
    let seven : Literal := .long (.number 7)
    let wide : Literal := .long (.number (2 ^ 40))
    let f : Filter := .or (.not (.leaf (.unbound (.compare .less "c" seven))))
      (.or (.leaf (.unbound (.compare .greater "c" wide)))
        (.leaf (.unbound (.member .isIn "c" [three, wide]))))
    let B : Filter := .or (.not (.leaf (.bound (.compare .less c seven))))
      (.leaf (.bound (.member .isIn c [three, .aboveMax .int])))
    let row : Value := .record [.int 5]
    f.bind schema true = .ok B ∧ B.evaluate row = .ok false ∧ B.opposite.evaluate row = .ok true ∧
      f.evaluateIn schema true row = .ok false ∧ f.opposite.evaluateIn schema true row = .ok true := by
  intro c schema three seven wide f B row
  have hbind : f.bind schema true = .ok B := by cbv
  have hbound : B.evaluate row = .ok false := rfl
  have hunbound : f.evaluateIn schema true row = .ok false := by rw [evaluateIn, hbind]; exact hbound
  have hmade : ∀ n : Int, (Literal.long (.number n)).Made := fun n => .value (v := .int n) rfl
  have hcolumn : schema.column true "c" = .ok c := rfl
  -- The only row holds five, which compares with everything.
  have hget (v : Value) (hv : (Accessor.mk 0 []).get row = .ok v) : v.IsComparable := by
    obtain rfl : Value.int 5 = v := Except.ok.inj hv
    exact ⟨rfl, by simp [Value.isNaN]⟩
  have hlitsB : ∀ a ∈ B.leaves, ∀ l ∈ a.literals, l.Made := by
    simp [B, three, seven, Expr.leaves, Leaf.literals, Predicate.literals, hmade, Literal.Made.aboveMax]
  have hlitsf : ∀ a ∈ f.leaves, ∀ l ∈ a.literals, l.Made := by
    simp [f, three, seven, wide, Expr.leaves, Leaf.literals, Predicate.literals, hmade]
  refine ⟨hbind, hbound, (opposite_negates hlitsB).1 (fun q v hq _ hv => ?_) false hbound, hunbound,
    (opposite_negates hlitsf).2 schema true (fun p d v hp _ hd hv => ?_) false hunbound⟩
  · have hterm : q.term = c := by
      simp only [B, Expr.leaves, List.singleton_append, List.mem_cons, Leaf.bound.injEq] at hq
      obtain rfl | rfl | hnil := hq
      · rfl
      · rfl
      · cases hnil
    rw [hterm] at hv
    exact hget v hv
  · have hterm : p.term = "c" := by
      simp only [f, Expr.leaves, List.singleton_append, List.mem_cons, Leaf.unbound.injEq] at hp
      obtain rfl | rfl | rfl | hnil := hp
      · rfl
      · rfl
      · rfl
      · cases hnil
    rw [hterm] at hd
    obtain rfl := Except.ok.inj (hcolumn.symm.trans hd)
    exact hget v hv

end Filter

end PartitionPruning
