import PartitionPruning.Proofs.Filter.Definedness
import PartitionPruning.Proofs.Transform.Sequences
import PartitionPruning.Proofs.Transform.Units

/-!
# What can be asked of a partition value

A projection moves, transforms and converts literals, and each of these steps is defined for some
literals only. This module says which predicates a transform permits, in terms of their literals, and
what it means that a projection answers: there is none, or it has an outcome for the partition value.

* **`Transform.Permits`** — what a transform asks of the literals of a predicate.
* **`Projection.Answers`** — there is no projection, or the one that there is has an outcome.
* **`answers_member`** — tests of membership answer if each literal can be transformed and converted.
* **`answers_shaped`** — so only the projections of comparisons are left to be looked at.
-/

namespace PartitionPruning

open Outcome

namespace Transform

/-! ## What is asked of literals -/

/-- How far the literal of a comparison is moved before it is transformed, if the comparison has a
projection. -/
def step? (t : Transform) (side : Side) (op : Comparison) : Option Int :=
  match t with
  | .identity => some 0
  | .bucket _ => if op = side.membership.single then some 0 else none
  | .truncate _ | .time _ => (side.bound? op).map Prod.snd
  | .void | .unknown _ => none

/-- Whether a test of membership has a projection. -/
def projectsMember (t : Transform) (side : Side) (op : Membership) : Bool :=
  match t with
  | .identity => true
  | .bucket _ | .truncate _ | .time _ => op = side.membership
  | .void | .unknown _ => false

/-- Whether a literal that is moved by some steps becomes a literal of the partition field. Marks and
decimals that are no finite numbers are not converted again, hashes are those of numbers of 64 bits,
years and months lie in the calendar, and a truth value is no day. -/
def Reaches (t : Transform) (source : DataType) (step : Int) (l : Literal) : Prop :=
  match t with
  | .identity => l.isStable = true
  | .bucket _ => source.hashForm? = some .number → ∀ w, l.value.whole? = some w →
      HashForm.smallest ≤ w.toInt ∧ w.toInt ≤ HashForm.largest
  | .truncate _ => source.truncateForm? = some .decimal → l.isStable = true
  | .time u => ∀ form w, u.form? source = some form → l.value.whole? = some w →
      u.hasUnit form (w.toInt + step) = true ∧
        (u = .day → form = .day → step = 0 → ∃ n, w = .number n)
  | .void | .unknown _ => True

/-- Whether a comparison can be asked apart from its literal: numbers have no beginnings, and a number
is truncated only if it is within its range. -/
def AsksComparison (t : Transform) (source : Primitive) (op : Comparison) (l : Literal) (a : Value) :
    Prop :=
  match t with
  | .identity => op.isBeginning = true → a.isNull = true ∨ source.hasBeginnings = true
  | .truncate _ => (DataType.primitive source).truncateForm? = some .number → l.isMark = false
  | _ => True

/-- **What a transform permits**: whether a projection of a predicate can be asked for a partition
value. -/
def Permits (t : Transform) (side : Side) (source : Primitive) (p : Predicate Column) (a : Value) :
    Prop :=
  match p with
  | .unary _ _ => True
  | .compare op _ l =>
    (∀ step, t.step? side op = some step → t.Reaches (.primitive source) step l) ∧
      t.AsksComparison source op l a
  | .member op _ ls =>
    t.projectsMember side op = true → ∀ l ∈ ls, t.Reaches (.primitive source) 0 l

end Transform

/-! ## Answers -/

namespace Projection

variable {x : Projection} {c : Column} {v : Value} {p : Primitive} {name : String}

/-- Whether there is a projection or none, and the one that there is has an outcome. -/
def Answers (x : Projection) (c : Column) (v : Value) : Prop :=
  ∃ o, x = .ok o ∧ ∀ e, o = some e → Succeeds (Expr.evaluate (Predicate.outcome c v) e)

theorem answers_nothing : Answers nothing c v := ⟨none, rfl, by simp⟩

theorem answers_some {e : Expr (Predicate String)} :
    Answers (.ok (some e)) c v ↔ Succeeds (Expr.evaluate (Predicate.outcome c v) e) := by
  constructor
  · rintro ⟨o, ho, h⟩
    exact h e (Except.ok.inj ho).symm
  · intro h
    refine ⟨some e, rfl, ?_⟩
    rintro _ ⟨rfl⟩
    exact h

theorem answers_bind {α : Type} {y : Except Fault α} {f : α → Projection} :
    Answers (y >>= f) c v ↔ ∃ a, y = .ok a ∧ Answers (f a) c v := by
  cases y with
  | error fault => simp [Answers, bind, Except.bind]
  | ok a => simp

theorem answers_unary {op : UnaryTest} (hv : p.mayHold v) : Answers (unary op name) c v :=
  answers_some.mpr (Predicate.succeeds_outcome_unary hv)

theorem answers_compare {op : Comparison} {y : Except Fault Literal} :
    Answers (compare op name y) c v ↔
      ∃ u, y = .ok u ∧ Succeeds (Predicate.outcome c v (.compare op name u)) := by
  cases y with
  | error fault => simp [Answers, compare, Except.map]
  | ok u => simp only [compare, map_ok, answers_some, Except.ok.injEq, exists_eq_left']; rfl

/-- Whether a literal is transformed to one that a partition field takes. -/
def IsTaken (f : Value → Except Fault Value) (p : Primitive) (x : Except Fault Literal) : Prop :=
  ∃ u, (x >>= Literal.transformed f) = .ok u ∧ Succeeds (u.convert (.primitive p))

theorem isTaken_ok {f : Value → Except Fault Value} {l : Literal} :
    IsTaken f p (.ok l) ↔ ∃ u, l.transformed f = .ok u ∧ Succeeds (u.convert (.primitive p)) := Iff.rfl

/-- **Tests of membership** can be asked if each literal is transformed to one that can be converted. A
literal may be dropped from the set for another one with the same key; so either none is, or all of them
can be converted. -/
theorem answers_member {f : Value → Except Fault Value} {op : Membership} {ls : List Literal}
    (hc : c.field.type = .primitive p) (hv : p.mayHold v)
    (hhash : ∀ l ∈ ls, ∀ u, l.transformed f = .ok u → u.value.isHashable = true)
    (hnan : ∀ l ∈ ls, ∀ u u', l.transformed f = .ok u → u.convert (.primitive p) = .ok u' →
      u'.value.isUnordered = false)
    (hkept : ∀ ts, ls.mapM (Literal.transformed f) = .ok ts →
      Literal.Distinct ts ∨ ∀ u ∈ ts, Succeeds (u.convert (.primitive p))) :
    Answers (member op name f ls) c v ↔ ∀ l ∈ ls, IsTaken f p (.ok l) := by
  have htransformed {ts : List Literal} (hts : ls.mapM (Literal.transformed f) = .ok ts) {u : Literal}
      (hu : u ∈ ts) : ∃ l ∈ ls, l.transformed f = .ok u := exists_of_mem_result hts hu
  have hset {ts : List Literal} (hts : ls.mapM (Literal.transformed f) = .ok ts) :
      Literal.toSet ts = .ok (Literal.relisted (Literal.distinct ts)) := by
    refine Literal.toSet_eq_ok.mpr ⟨fun u hu => ?_, rfl⟩
    obtain ⟨l, hl, hlu⟩ := htransformed hts hu
    exact hhash l hl u hlu
  -- the outcome of the set that is made of the transformed literals
  have houtcome {ts : List Literal} (hts : ls.mapM (Literal.transformed f) = .ok ts) :
      Answers (member op name f ls) c v ↔
        ∀ u ∈ Literal.relisted (Literal.relisted (Literal.distinct ts)),
          Succeeds (u.convert (.primitive p)) := by
    have hmember : member op name f ls = .ok (some (Predicate.ofSetAgain op name
        (Literal.relisted (Literal.distinct ts)))) := by
      simp only [member, hts, ok_bind, Predicate.ofSetOf, hset hts, map_ok]
    rw [hmember, answers_some]
    refine Predicate.succeeds_evaluate_ofSet hc hv fun u hu u' hu' => ?_
    obtain ⟨l, hl, hlu⟩ := htransformed hts
      (Literal.mem_of_mem_toSet (hset hts) (Literal.mem_relisted.mp hu))
    exact hnan l hl u u' hlu hu'
  constructor
  · intro h l hl
    obtain ⟨ts, hts, _⟩ := answers_bind.mp h
    obtain ⟨u, hu, hlu⟩ := exists_result_of_mem hts hl
    refine ⟨u, hlu, ?_⟩
    -- distinct literals are all in the set; otherwise each of them can be converted anyway
    rcases hkept ts hts with hdistinct | hall
    · have hmem := Literal.mem_toSet_of_distinct hdistinct (hset hts) hu
      exact (houtcome hts).mp h u (Literal.mem_relisted.mpr hmem)
    · exact hall u hu
  · intro h
    obtain ⟨ts, hts⟩ : Succeeds (ls.mapM (Literal.transformed f)) :=
      succeeds_mapM.mpr fun l hl => by
        obtain ⟨u, hu, _⟩ := h l hl
        exact ⟨u, hu⟩
    refine (houtcome hts).mpr fun u hu => ?_
    obtain ⟨l, hl, hlu⟩ := htransformed hts
      (Literal.mem_of_mem_toSet (hset hts) (Literal.mem_relisted.mp hu))
    obtain ⟨u₀, hu₀, hconvert⟩ := h l hl
    obtain rfl : u₀ = u := Except.ok.inj (hu₀.symm.trans hlu)
    exact hconvert

/-- A test of membership is always projected. -/
theorem exists_of_answers_member {f : Value → Except Fault Value} {op : Membership}
    {ls : List Literal} (h : Answers (member op name f ls) c v) :
    ∃ e, member op name f ls = .ok (some e) ∧ Succeeds (Expr.evaluate (Predicate.outcome c v) e) := by
  obtain ⟨o, ho, h⟩ := h
  obtain ⟨ts, _, hmember⟩ := bind_eq_ok.mp ho
  obtain ⟨e, _, rfl⟩ := map_eq_ok.mp hmember
  exact ⟨e, ho, h e rfl⟩

/-- **Projections of a common shape** answer what the transform permits, if those of comparisons do. -/
theorem answers_shaped {t : Transform} {side : Side} {source : Primitive} {q : Predicate Column}
    {f : Value → Except Fault Value} {comparison : Comparison → Literal → Projection}
    (hmember : ∀ op, t.projectsMember side op = decide (op = side.membership))
    (hc : c.field.type = .primitive p) (hv : p.mayHold v)
    (hhash : ∀ l ∈ q.literals, ∀ u, l.transformed f = .ok u → u.value.isHashable = true)
    (hnan : ∀ l ∈ q.literals, ∀ u u', l.transformed f = .ok u → u.convert (.primitive p) = .ok u' →
      u'.value.isUnordered = false)
    (hkept : ∀ ts, q.literals.mapM (Literal.transformed f) = .ok ts →
      Literal.Distinct ts ∨ ∀ u ∈ ts, Succeeds (u.convert (.primitive p)))
    (hreaches : ∀ l ∈ q.literals, IsTaken f p (.ok l) ↔ t.Reaches (.primitive source) 0 l)
    (hcompare : ∀ l ∈ q.literals, ∀ op, Answers (comparison op l) c v ↔
      (∀ step, t.step? side op = some step → t.Reaches (.primitive source) step l) ∧
        t.AsksComparison source op l v) :
    Answers (shaped side name f comparison q) c v ↔ t.Permits side source q v := by
  -- A test of one value always has an answer, the other two are asked through their literals.
  cases q with
  | unary op d => exact ⟨fun _ => trivial, fun _ => answers_unary hv⟩
  | compare op d l => exact hcompare l (List.mem_singleton.mpr rfl) op
  | member op d ls =>
    simp only [shaped, Transform.Permits, hmember, decide_eq_true_eq]
    split
    · rename_i hop
      simp only [hop, forall_true_left]
      exact (answers_member hc hv hhash hnan hkept).trans (forall₂_congr hreaches)
    · rename_i hop
      simp [hop, answers_nothing]

end Projection

end PartitionPruning
