import PartitionPruning.Proofs.Expr.NormalForm
import PartitionPruning.Proofs.Filter.Reading
import PartitionPruning.Proofs.Filter.Sets

/-!
# Normal forms of filters

A filter is in normal form if its tree is normal and each of its sets has two distinct literals at
least. Nothing that makes filters leaves this form: the constructors of predicates, the connectives,
opposites, binding and reading a text.

* **`isNormalForm_ofLiterals`** — tests of membership fold small sets.
* **`isNormalForm_opposite`** — the opposite of a predicate has its literals.
* **`isNormalForm_bind`** — binding folds constants, and small sets once more.
* **`isNormalForm_parse`** — what is read is built with the constructors.
-/

namespace PartitionPruning

open Outcome (bind_eq_ok map_eq_ok)

/-! ## Predicates -/

namespace Literal

/-- Nothing is dropped from distinct literals. -/
theorem distinct_eq_self {ls : List Literal} (h : Distinct ls) : distinct ls = ls := by
  rw [distinct, foldl_of_distinct [] (by simpa using h), List.nil_append]

end Literal

namespace Predicate

variable {τ : Type}

/-- The leaf a set becomes has at least two literals, and no two of them equal. -/
theorem isProper_ofSet {op : Membership} {term : τ} {ls : List Literal} {q : Predicate τ}
    (hdistinct : Literal.Distinct ls) (h : ofSet op term ls = .leaf q) : q.isProper = true := by
  match ls with
  | [] => simp [ofSet] at h
  | [l] =>
    obtain rfl := Expr.leaf.inj h
    rfl
  | l :: m :: rest =>
    obtain rfl := Expr.leaf.inj h
    simp [isProper, Literal.distinct_eq_self hdistinct]

/-- The opposite has the same literals, so it is proper when the predicate is. -/
theorem isProper_opposite (p : Predicate τ) : p.opposite.isProper = p.isProper := by cases p <;> rfl

/-- Bound sets are not smaller than two literals. -/
theorem isProper_of_bindTo {c : Column} {p : Predicate String} {q : Predicate Column}
    (h : p.bindTo c = .ok (.leaf q)) : q.isProper = true := by
  rcases bindTo_cases h with ⟨b, hb⟩ | ⟨op, hop⟩ | ⟨op, l, hl⟩ | ⟨op, ls, hdistinct, hls⟩
  · simp at hb
  · rw [Expr.leaf.inj hop]
    rfl
  · rw [Expr.leaf.inj hl]
    rfl
  · exact isProper_ofSet hdistinct hls.symm

end Predicate

/-- So is a leaf's opposite. -/
theorem Leaf.isProper_opposite (l : Leaf) : l.opposite.isProper = l.isProper := by
  cases l with
  | unbound p => exact p.isProper_opposite
  | bound p => exact p.isProper_opposite

namespace Filter

/-- A tree in normal form whose sets have two distinct literals at least. -/
structure IsNormalForm (f : Filter) : Prop where
  normal : f.isNormal = true
  proper : ∀ l ∈ f.leaves, l.isProper = true

/-! ## Connectives -/

/-- Constants are in normal form. -/
theorem isNormalForm_constant (b : Bool) : IsNormalForm (.constant b) :=
  ⟨rfl, by simp [Expr.leaves]⟩

/-- A proper leaf is in normal form. -/
theorem isNormalForm_leaf {l : Leaf} (h : l.isProper = true) : IsNormalForm (.leaf l) :=
  ⟨rfl, by simpa [Expr.leaves] using h⟩

variable {f g : Filter}

/-- `conj` keeps the normal form. -/
theorem isNormalForm_conj (hf : f.IsNormalForm) (hg : g.IsNormalForm) :
    IsNormalForm (Expr.conj f g) := by
  refine ⟨Expr.isNormal_conj hf.normal hg.normal, fun l hl => ?_⟩
  rcases Expr.mem_leaves_conj hl with hl | hl
  · exact hf.proper l hl
  · exact hg.proper l hl

/-- `disj` keeps the normal form. -/
theorem isNormalForm_disj (hf : f.IsNormalForm) (hg : g.IsNormalForm) :
    IsNormalForm (Expr.disj f g) := by
  refine ⟨Expr.isNormal_disj hf.normal hg.normal, fun l hl => ?_⟩
  rcases Expr.mem_leaves_disj hl with hl | hl
  · exact hf.proper l hl
  · exact hg.proper l hl

/-- `negate` keeps the normal form. -/
theorem isNormalForm_negate (hf : f.IsNormalForm) : IsNormalForm (Expr.negate f) := by
  refine ⟨Expr.isNormal_negate hf.normal, fun l hl => ?_⟩
  rw [Expr.leaves_negate] at hl
  exact hf.proper l hl

/-- A conjunction of several filters keeps the normal form, from one pair to the next. -/
theorem isNormalForm_allOf {fs : List Filter} (hfs : ∀ g ∈ fs, g.IsNormalForm)
    (h : allOf fs = .ok f) : f.IsNormalForm :=
  Expr.joinAll_induction (fun _ _ => isNormalForm_conj) hfs h

/-- A disjunction of several filters keeps the normal form, from one pair to the next. -/
theorem isNormalForm_anyOf {fs : List Filter} (hfs : ∀ g ∈ fs, g.IsNormalForm)
    (h : anyOf fs = .ok f) : f.IsNormalForm :=
  Expr.joinAll_induction (fun _ _ => isNormalForm_disj) hfs h

/-- **Opposites** change no literals. -/
theorem isNormalForm_opposite (hf : f.IsNormalForm) : f.opposite.IsNormalForm := by
  refine ⟨Expr.isNormal_invert hf.normal, fun l hl => ?_⟩
  obtain ⟨m, hm, rfl | rfl⟩ := Expr.mem_leaves_invert hl
  · exact hf.proper _ hm
  · rw [Leaf.isProper_opposite]
    exact hf.proper m hm

/-! ## Constructors of predicates -/

/-- A test of one value is in normal form. -/
theorem isNormalForm_unary (op : UnaryTest) (column : String) :
    IsNormalForm (ofPredicate (.unary op column)) := isNormalForm_leaf rfl

/-- A comparison is in normal form. -/
theorem isNormalForm_compare (op : Comparison) (column : String) (literal : Literal) :
    IsNormalForm (ofPredicate (.compare op column literal)) := isNormalForm_leaf rfl

/-- **Tests of membership** are folded if there are less than two distinct literals. -/
theorem isNormalForm_ofLiterals {op : Membership} {column : String} {ls : List Literal}
    (h : ofLiterals op column ls = .ok f) : f.IsNormalForm := by
  obtain ⟨e, he, rfl⟩ := map_eq_ok.mp h
  obtain ⟨set, hset, rfl⟩ := map_eq_ok.mp he
  rcases Predicate.ofSet_cases op column set with hconstant | ⟨q, hq, _, _⟩
  · rw [hconstant]
    exact isNormalForm_constant op.empty
  · rw [hq]
    exact isNormalForm_leaf (Predicate.isProper_ofSet (Literal.distinct_of_toSet hset) hq)

/-! ## Binding -/

/-- **Binding** gives normal forms, also of filters that are not normal. -/
theorem isNormalForm_bind {s : Schema} {caseSensitive : Bool}
    (h : f.bind s caseSensitive = .ok g) : g.IsNormalForm := by
  refine ⟨Expr.isNormal_substitute (fun _ _ => isNormal_bindLeaf) h, fun l hl => ?_⟩
  obtain ⟨p, q, _, rfl, hbind⟩ := exists_bind_of_mem_leaves h hl
  obtain ⟨c, _, hq⟩ := bind_eq_ok.mp hbind
  exact Predicate.isProper_of_bindTo hq

/-! ## Reading -/

/-- Constants and predicates that are built together are in normal form. -/
theorem isNormalForm_of_built (h : f.Built) : f.IsNormalForm := by
  induction h with
  | constant b => exact isNormalForm_constant b
  | unary op column => exact isNormalForm_unary op column
  | compare op column literal => exact isNormalForm_compare op column literal
  | among h => exact isNormalForm_ofLiterals h
  | conj _ _ hf hg => exact isNormalForm_conj hf hg
  | disj _ _ hf hg => exact isNormalForm_disj hf hg
  | negate _ hf => exact isNormalForm_negate hf

/-- **Reading** gives normal forms. -/
theorem isNormalForm_parse {text : String} (h : parse text = .ok f) : f.IsNormalForm :=
  isNormalForm_of_built (built_of_parse h)

end Filter

end PartitionPruning
