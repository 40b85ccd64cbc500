import PartitionPruning.Proofs.Filter.Membership

/-!
# Tests of a null

A null satisfies no comparison but the negated ones, and it is a member of no set. Evaluation answers in
this way for every literal. Binding answers for the row where the literal alone decides: an ordering that
every number of the range of the column satisfies is bound to a constant, which is true for a null as well.

* **`get_null_of_get_null`** — what is inside a null struct is read as a null.
* **`outcome_compare_null`**, **`evaluate_ofSet_null`** — a comparison and a test of membership.
* **`evaluateIn_null`** — the tests of a column that a row has a null in.
-/

namespace PartitionPruning

open Outcome

namespace Accessor

/-- A path through a null struct ends in null however much further it leads. -/
theorem follow_append {v : Value} {path rest : List Nat} (h : follow v path = .ok .null) :
    follow v (path ++ rest) = .ok .null := by
  -- A null on the way ends the path there; otherwise the path goes one step down.
  induction path generalizing v with
  | nil =>
    obtain rfl : v = .null := Except.ok.inj h
    exact follow_null rest
  | cons position path ih =>
    rw [List.cons_append, follow]
    rw [follow] at h
    split at h
    · rename_i hnull
      rw [if_pos hnull]
    · rename_i hnull
      rw [if_neg hnull]
      obtain ⟨w, hw, h⟩ := bind_eq_ok.mp h
      rw [hw, ok_bind]
      exact ih h

/-- **Null structs.** Whatever is inside a struct that is read as a null is read as a null. -/
theorem get_null_of_get_null {a : Accessor} {row : Value} (h : a.get row = .ok .null)
    (rest : List Nat) : (Accessor.mk a.position (a.inner ++ rest)).get row = .ok .null := by
  obtain ⟨v, hv, h⟩ := bind_eq_ok.mp h
  rw [get, hv, ok_bind]
  exact follow_append h

end Accessor

/-- Whether every number of a range satisfies an ordering with a literal, as the literal is beyond the
range. -/
def Comparison.holdsOnRange : Comparison → Literal → Bool
  | .less, .aboveMax _ | .lessOrEqual, .aboveMax _ => true
  | .greater, .belowMin _ | .greaterOrEqual, .belowMin _ => true
  | _, _ => false

/-- Only marks are decided for a whole range. -/
theorem Comparison.holdsOnRange_of_not_isMark (op : Comparison) {l : Literal}
    (h : l.isMark = false) : op.holdsOnRange l = false := by
  cases l with
  | aboveMax t | belowMin t => simp [Literal.isMark] at h
  | _ => cases op <;> rfl

namespace Predicate

variable {c : Column} {name : String}

/-- **A comparison of a null.** It is true if it is a negated one, or if a literal beyond the range of the
column has decided it. -/
theorem outcome_compare_null {op : Comparison} {l l' : Literal}
    (hl : l.convert c.field.type = .ok l') :
    outcome c .null (.compare op name l) = .ok (op.ofNull || op.holdsOnRange l') := by
  cases hmark : l'.isMark with
  | false =>
    rw [outcome_compare hl hmark, testCompare_null op l'.isNull_value,
      op.holdsOnRange_of_not_isMark hmark, Bool.or_false]
  | true =>
    simp only [outcome, bindTo, hl, map_ok, ok_bind]
    cases l' with
    | aboveMax t | belowMin t => cases t <;> cases op <;> rfl
    | _ => simp [Literal.isMark] at hmark

/-- Null is in no set of literals, and so passes every exclusion. -/
theorem testMember_null (op : Membership) (ls : List Literal) :
    testMember op .null (ls.map Literal.value) = .ok (op.outcome false) := by
  have hin : Value.null.isIn (ls.map Literal.value) = .ok false := by
    have hhashable : Value.null.isHashable = true := rfl
    rw [Value.isIn, if_pos hhashable, Except.ok.injEq, List.any_eq_false]
    intro w hw hsame
    obtain ⟨l, _, rfl⟩ := List.mem_map.mp hw
    exact Value.not_sameKey_null _ ((Value.same_iff_key l.isScalar_value).mp hsame)
  cases op with
  | isIn => exact hin
  | notIn => rw [testMember, hin]; rfl

/-- **A test of membership of a null.** -/
theorem evaluate_ofSet_null (op : Membership) (c : Column) (ls : List Literal) :
    Expr.evaluate (fun q => q.test .null) (ofSet op c ls) = .ok (op.outcome false) := by
  match ls with
  | [] => cases op <;> rfl
  | [l] =>
    refine (testCompare_null op.single l.isNull_value).trans ?_
    cases op <;> rfl
  | l :: m :: rest => exact testMember_null op (l :: m :: rest)

/-- A set predicate has on null the outcome of the empty set, if it binds. -/
theorem outcome_ofSet_null {op : Membership} {ls : List Literal}
    (h : ∀ q, ofSet op name ls = .leaf q → Succeeds (q.bindTo c)) :
    Expr.evaluate (outcome c .null) (ofSet op name ls) = .ok (op.outcome false) := by
  -- The single literal is an equality, which is folded when it is a mark and false on null when it is
  -- not.
  match ls, h with
  | [], _ => cases op <;> rfl
  | [l], h =>
    obtain ⟨e, he⟩ := h _ rfl
    obtain ⟨l', hl', _⟩ := map_eq_ok.mp he
    have hrange : op.single.holdsOnRange l' = false := by cases op <;> cases l' <;> rfl
    refine (outcome_compare_null hl').trans ?_
    rw [hrange]
    cases op <;> rfl
  | l :: m :: rest, h =>
    obtain ⟨e, he⟩ := h _ rfl
    have houtcome : outcome c .null (.member op name (l :: m :: rest)) =
        Expr.evaluate (fun q => q.test .null) e := by rw [outcome, he, ok_bind]
    obtain ⟨ls', _, he⟩ := bind_eq_ok.mp he
    obtain ⟨set, _, rfl⟩ := map_eq_ok.mp he
    exact houtcome.trans (evaluate_ofSet_null op c _)

end Predicate

namespace Literal

/-- The integers for which an ordering is true on the whole range of a column. -/
theorem holdsOnRange_long {op : Comparison} {p : Primitive} {low high m : Int} {l' : Literal}
    (hp : p.limits? = some (low, high)) (h : (Literal.long (.number m)).convert (.primitive p) = .ok l') :
    op.holdsOnRange l' = true ↔
      ((op = .less ∨ op = .lessOrEqual) ∧ high < m) ∨
        ((op = .greater ∨ op = .greaterOrEqual) ∧ m < low) := by
  obtain ⟨t, hconvert, _⟩ := convert_long hp m
  obtain rfl := Except.ok.inj (hconvert.symm.trans h)
  have hrange : low < high := by cases p <;> simp [Primitive.limits?] at hp <;> omega
  by_cases habove : high < m
  · rw [clamp, Whole.toInt, if_pos habove]
    cases op <;> simp [Comparison.holdsOnRange, habove] <;> omega
  · by_cases hbelow : m < low
    · rw [clamp, Whole.toInt, if_neg habove, if_pos hbelow]
      cases op <;> simp [Comparison.holdsOnRange, habove, hbelow]
    · rw [clamp, Whole.toInt, if_neg habove, if_neg hbelow]
      simp [op.holdsOnRange_of_not_isMark (l := .long (.number m)) rfl, habove, hbelow]

end Literal

namespace Filter

/-- **Tests of a null.** If a row has a null in a column, then a comparison that can be bound to the
column is true exactly if it is a negated one, or an ordering with a literal beyond the range of the
column that everything in the range satisfies: among integers one with a literal above the largest or
below the smallest. A null is in no set. -/
theorem evaluateIn_null {schema : Schema} {caseSensitive : Bool} {name : String} {c : Column}
    {row : Value} (hcolumn : schema.column caseSensitive name = .ok c)
    (hnull : c.accessor.get row = .ok .null) :
    (∀ op l B, (ofPredicate (.compare op name l)).bind schema caseSensitive = .ok B →
      ∃ l', l.convert c.field.type = .ok l' ∧
        (ofPredicate (.compare op name l)).evaluateIn schema caseSensitive row =
          .ok (op.ofNull || op.holdsOnRange l') ∧
        ∀ (p : Primitive) (low high m : Int), c.field.type = .primitive p →
          p.limits? = some (low, high) → l = .long (.number m) →
          (op.holdsOnRange l' = true ↔
            ((op = .less ∨ op = .lessOrEqual) ∧ high < m) ∨
              ((op = .greater ∨ op = .greaterOrEqual) ∧ m < low))) ∧
    ∀ op ls f B, ofLiterals op name ls = .ok f → f.bind schema caseSensitive = .ok B →
      f.evaluateIn schema caseSensitive row = .ok (op.outcome false) := by
  refine ⟨fun op l B hbind => ?compare, fun op ls f B hf hbind => ?member⟩
  case compare =>
    obtain ⟨e, he⟩ := succeeds_bindTo_of_bind (q := .compare op name l) hcolumn hbind
    obtain ⟨l', hl', _⟩ := map_eq_ok.mp he
    have hevaluate := evaluateIn_eq_outcome (e := .leaf (.compare op name l)) hcolumn hnull
      (Or.inr ⟨_, rfl, rfl⟩)
    refine ⟨l', hl', hevaluate.trans (Predicate.outcome_compare_null hl'), ?_⟩
    rintro p low high m hp hlimits rfl
    exact Literal.holdsOnRange_long hlimits (hp ▸ hl')
  case member =>
    obtain rfl := ofLiterals_inv hf
    have hnames := Projection.names_ofSet op name (Literal.relisted (Literal.distinct ls))
    refine (evaluateIn_eq_outcome hcolumn hnull hnames).trans ?_
    refine Predicate.outcome_ofSet_null fun q hq => ?_
    rcases hnames with ⟨b, hb⟩ | ⟨q', hq', rfl⟩
    · rw [hb] at hq
      simp at hq
    · -- The leaf's own literals convert, because the filter was bound.
      obtain rfl := Expr.leaf.inj (hq'.symm.trans hq)
      rw [hq'] at hbind
      exact succeeds_bindTo_of_bind (q := q') hcolumn hbind

/-- The integer inside a null struct is not below 5, and it is not among 5 and 7. -/
theorem evaluateIn_null_inside :
    let c : Field := ⟨2, "c", .primitive .int, false, none⟩
    let schema := Schema.ofFields [⟨1, "s", .struct [c], false, none⟩]
    let ls : List Literal := [.long (.number 5), .long (.number 7)]
    let outside : Filter := .leaf (.unbound (.member .notIn "s.c" ls))
    let below : Filter := ofPredicate (.compare .less "s.c" (.long (.number 5)))
    let row : Value := .record [.null]
    schema.column true "s.c" = .ok ⟨c, ⟨0, [0]⟩⟩ ∧ (Accessor.mk 0 [0]).get row = .ok .null ∧
      (∃ B, below.bind schema true = .ok B) ∧ below.evaluateIn schema true row = .ok false ∧
      ofLiterals .notIn "s.c" ls = .ok outside ∧ (∃ B, outside.bind schema true = .ok B) ∧
      outside.evaluateIn schema true row = .ok true := by
  intro c schema ls outside below row
  have hcolumn : schema.column true "s.c" = .ok ⟨c, ⟨0, [0]⟩⟩ := by cbv
  have hstruct : (Accessor.mk 0 []).get row = .ok .null := rfl
  have hnull : (Accessor.mk 0 [0]).get row = .ok .null := Accessor.get_null_of_get_null hstruct [0]
  have hset : ofLiterals .notIn "s.c" ls = .ok outside := by cbv
  obtain ⟨B, hbelow⟩ : ∃ B, below.bind schema true = .ok B := ⟨_, by cbv⟩
  obtain ⟨B', houtside⟩ : ∃ B, outside.bind schema true = .ok B := ⟨_, by cbv⟩
  obtain ⟨hcompare, hmember⟩ := evaluateIn_null hcolumn hnull
  obtain ⟨l', hl', hfalse, _⟩ := hcompare .less _ B hbelow
  obtain rfl : Literal.long (.number 5) = l' := Except.ok.inj hl'
  have htrue := hmember .notIn ls _ B' hset houtside
  exact ⟨hcolumn, hnull, ⟨B, hbelow⟩, hfalse, hset, ⟨B', houtside⟩, htrue⟩

/-- **A null that satisfies an ordering.** A column of integers is below a literal that no integer of
the column reaches, also where it is null. -/
theorem evaluateIn_null_of_wide_literal :
    let schema := Schema.ofFields [⟨1, "c", .primitive .int, false, none⟩]
    let row : Value := .record [.null]
    schema.holds row = true ∧
      (ofPredicate (.compare .less "c" (.long (.number (2 ^ 40))))).evaluateIn schema true row =
        .ok true :=
  ⟨by cbv, by cbv⟩

end Filter

end PartitionPruning
