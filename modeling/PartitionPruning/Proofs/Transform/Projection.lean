import PartitionPruning.Proofs.Filter.Sets
import PartitionPruning.Transform.Project

/-!
# Outcomes of projections

A projection names a partition field. To ask it for a partition, it is bound to the column of that
field and tested on the partition value: this is `Predicate.outcome`. The lemmas of this module say
what the outcome is for each shape of projection.

* **`outcome_unary`**, **`outcome_compare`** — a test of the value on its own and a comparison.
* **`outcome_member`** — a test of membership among transformed literals.
-/

namespace PartitionPruning

open Outcome (bind_eq_ok map_eq_ok)

namespace Literal

/-- Whether a literal marks a number beyond a range. -/
def isMark : Literal → Bool
  | .aboveMax _ | .belowMin _ => true
  | _ => false

theorem decided?_of_not_isMark {l : Literal} (op : Comparison) (h : l.isMark = false) :
    Predicate.decided? op l = none := by
  cases l <;> simp_all [isMark, Predicate.decided?]

end Literal

namespace Predicate

variable {c : Column} {v : Value}

/-- The outcome of a predicate for a value of a column, to which it is bound first. -/
def outcome (c : Column) (v : Value) (p : Predicate String) : Except Fault Bool := do
  Expr.evaluate (fun q => q.test v) (← p.bindTo c)

/-- Tests for null pass through to a column that is optional, and so do tests for what is not a
number if the column may hold it. -/
theorem outcome_unary {op : UnaryTest} (name : String) (hc : c.field.required = false)
    (hv : c.isFloating = false → v.isNaN = .ok false) :
    outcome c v (.unary op name) = testUnary op v := by
  cases hf : c.isFloating with
  | true => cases op <;> simp [outcome, bindTo, bindUnary, hc, hf, Expr.evaluate, test]
  | false =>
    have hnan := hv hf
    cases op <;> simp [outcome, bindTo, bindUnary, hc, hf, Expr.evaluate, test, testUnary, hnan]

/-- A comparison with a literal that the type of the column takes. -/
theorem outcome_compare {op : Comparison} {name : String} {l l' : Literal}
    (hl : l.convert c.field.type = .ok l') (hmark : l'.isMark = false) :
    outcome c v (.compare op name l) = testCompare op v l'.value := by
  simp [outcome, bindTo, hl, bindCompare, Literal.decided?_of_not_isMark op hmark, Expr.evaluate,
    test]

/-- A comparison that has an outcome has a literal that could be converted. -/
theorem outcome_compare_inv {op : Comparison} {name : String} {l : Literal} {t : Bool}
    (h : outcome c v (.compare op name l) = .ok t) : ∃ l', l.convert c.field.type = .ok l' := by
  obtain ⟨e, he, _⟩ := bind_eq_ok.mp h
  obtain ⟨l', hl', _⟩ := map_eq_ok.mp he
  exact ⟨l', hl'⟩

/-- A test of membership finds a value if one of its literals is converted to the value. -/
theorem outcome_ofSet {op : Membership} {name : String} {ls : List Literal} {t : Bool}
    (h : Expr.evaluate (outcome c v) (ofSet op name ls) = .ok t) {l : Literal} (hl : l ∈ ls)
    (hkey : ∀ l', l.convert c.field.type = .ok l' → l'.isMark = false ∧ v.SameKey l'.value) :
    t = op.outcome true := by
  -- A set with a literal in it is a comparison or a set proper.
  match ls, h with
  | [], _ => exact absurd hl List.not_mem_nil
  | [m], h =>
    obtain rfl := List.mem_singleton.mp hl
    simp only [ofSet, Expr.evaluate] at h
    obtain ⟨l', hl'⟩ := outcome_compare_inv h
    obtain ⟨hmark, hsame⟩ := hkey l' hl'
    rw [outcome_compare hl' hmark] at h
    obtain ⟨b, rfl, hiff⟩ := testCompare_single_eq_ok h
    rw [hiff.mpr hsame]
  | m :: n :: rest, h =>
    obtain ⟨e, he, h⟩ := bind_eq_ok.mp h
    obtain ⟨ls', hls', he⟩ := bind_eq_ok.mp he
    obtain ⟨b, rfl, hiff⟩ := evaluate_ofSetOf he h
    obtain ⟨l', hmem, hl'⟩ := Outcome.exists_result_of_mem hls' hl
    rw [hiff.mpr ⟨l', hmem, (hkey l' hl').2⟩]

/-- **A projection to a test of membership** finds the partition value of a literal of its. Another
literal may take its place in the set if the transformed values are the same, so all of these have to
be converted to the partition value. -/
theorem outcome_member {op : Membership} {name : String} {f : Value → Except Fault Value}
    {ls : List Literal} {e : Expr (Predicate String)} {t : Bool}
    (h : Projection.member op name f ls = .ok (some e))
    (ht : Expr.evaluate (outcome c v) e = .ok t) {l u : Literal} (hl : l ∈ ls)
    (hu : l.transformed f = .ok u)
    (hkeys : ∀ m ∈ ls, ∀ w w', m.transformed f = .ok w → w.value.key? = u.value.key? →
      w.convert c.field.type = .ok w' → w'.isMark = false ∧ v.SameKey w'.value) :
    t = op.outcome true := by
  obtain ⟨ts, hts, h⟩ := bind_eq_ok.mp h
  obtain ⟨e', he, heq⟩ := map_eq_ok.mp h
  obtain rfl : e' = e := by simpa using heq
  obtain ⟨set, hset, rfl⟩ := map_eq_ok.mp he
  obtain ⟨u', hu', hlu'⟩ := Outcome.exists_result_of_mem hts hl
  obtain rfl : u = u' := by simpa using hu.symm.trans hlu'
  -- the literal of the set that stands for the transformed one may come from another literal
  obtain ⟨k, hk, hkey⟩ := Literal.exists_key_of_toSet hset hu'
  obtain ⟨m, hm, hmk⟩ := Outcome.exists_of_mem_result hts (Literal.mem_of_mem_toSet hset hk)
  exact outcome_ofSet ht (Literal.mem_relisted.mpr hk) fun w' hw' => hkeys m hm k w' hmk hkey hw'

end Predicate

end PartitionPruning
