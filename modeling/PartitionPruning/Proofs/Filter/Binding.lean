import PartitionPruning.Filter.Bind
import PartitionPruning.Proofs.Expr.Substitution

/-!
# What predicates are bound to

Binding a predicate gives a constant or a predicate on the column, never a larger tree. The literals
of a bound predicate are converted ones of the predicate that was bound, and its set, if it has one,
holds two distinct literals at least.

* **`bindTo_inv`** — the inversion of binding to a column.
* **`bind_inv`** — the inversion of binding to a schema, which finds the column first.
* **`exists_bind_of_mem_leaves`** — the predicates of a bound filter are bound ones of the filter.
-/

namespace PartitionPruning

open Outcome (bind_eq_ok map_eq_ok)

/-! ## Sets of literals -/

namespace Literal

/-- The fold behind `distinct` keeps members of what it started with or of the list. -/
theorem mem_foldl_distinct {l : Literal} {ls kept : List Literal}
    (h : l ∈ ls.foldl (fun kept l => if kept.any (same l) then kept else kept ++ [l]) kept) :
    l ∈ kept ∨ l ∈ ls := by
  induction ls generalizing kept with
  | nil => exact Or.inl h
  | cons m rest ih =>
    rcases ih h with hkept | hrest
    · simp only at hkept
      split at hkept
      · exact Or.inl hkept
      · rcases List.mem_append.mp hkept with hold | hnew
        · exact Or.inl hold
        · exact Or.inr (List.mem_cons.mpr (Or.inl (List.mem_singleton.mp hnew)))
    · exact Or.inr (List.mem_cons_of_mem _ hrest)

/-- Dropping repeats makes no new literal. -/
theorem mem_of_mem_distinct {l : Literal} {ls : List Literal} (h : l ∈ distinct ls) : l ∈ ls := by
  rcases mem_foldl_distinct h with hnil | hmem
  · exact absurd hnil List.not_mem_nil
  · exact hmem

/-- Making a set lists some of the literals and loses none but for repetitions. -/
theorem mem_of_mem_toSet {l : Literal} {ls set : List Literal} (h : toSet ls = .ok set)
    (hl : l ∈ set) : l ∈ ls := by
  unfold toSet at h
  split at h
  · obtain rfl : relisted (distinct ls) = set := by simpa using h
    exact mem_of_mem_distinct (mem_relisted.mp hl)
  · simp at h

end Literal

namespace Predicate

variable {τ : Type}

/-! ## Membership tests -/

/-- A test of membership is a constant, or a predicate on the term with literals of the set. -/
theorem ofSet_cases (op : Membership) (term : τ) (ls : List Literal) :
    ofSet op term ls = .constant op.empty ∨
      ∃ q, ofSet op term ls = .leaf q ∧ q.term = term ∧ q.literals = ls := by
  match ls with
  | [] => exact Or.inl rfl
  | [l] => exact Or.inr ⟨.compare op.single term l, rfl, rfl, rfl⟩
  | l :: m :: rest => exact Or.inr ⟨.member op term (l :: m :: rest), rfl, rfl, rfl⟩

/-- A set predicate is the constant of the empty set, or a leaf with some of the literals. -/
theorem ofSetOf_inv {op : Membership} {term : τ} {ls : List Literal} {e : Expr (Predicate τ)}
    (h : ofSetOf op term ls = .ok e) :
    e = .constant op.empty ∨
      ∃ q, e = .leaf q ∧ q.term = term ∧ ∀ l ∈ q.literals, l ∈ ls := by
  obtain ⟨set, hset, rfl⟩ := map_eq_ok.mp h
  rcases ofSet_cases op term (Literal.relisted set) with hc | ⟨q, hq, hterm, hlits⟩
  · exact Or.inl hc
  · refine Or.inr ⟨q, hq, hterm, fun l hl => ?_⟩
    rw [hlits] at hl
    exact Literal.mem_of_mem_toSet hset (Literal.mem_relisted.mp hl)

/-! ## Binding -/

/-- **Inversion of binding to a column.** The result is a constant or one predicate on the column
whose literals are converted ones. -/
theorem bindTo_inv {c : Column} {p : Predicate String} {e : Expr (Predicate Column)}
    (h : p.bindTo c = .ok e) :
    (∃ b, e = .constant b) ∨
      ∃ q, e = .leaf q ∧ q.term = c ∧
        ∀ l' ∈ q.literals, ∃ l ∈ p.literals, l.convert c.field.type = .ok l' := by
  cases p with
  | unary op name =>
    obtain rfl : bindUnary op c = e := by simpa [bindTo] using h
    cases op <;> simp only [bindUnary] <;> split <;>
      first
        | exact Or.inl ⟨_, rfl⟩
        | exact Or.inr ⟨_, rfl, rfl, by simp [literals]⟩
  | compare op name l =>
    obtain ⟨l', hl', rfl⟩ := map_eq_ok.mp h
    simp only [bindCompare]
    -- a mark decides the comparison
    split
    · exact Or.inl ⟨_, rfl⟩
    · refine Or.inr ⟨_, rfl, rfl, ?_⟩
      simp [literals, hl']
  | member op name ls =>
    obtain ⟨ls', hls', h⟩ := bind_eq_ok.mp h
    rcases ofSetOf_inv h with hc | ⟨q, hq, hterm, hmem⟩
    · exact Or.inl ⟨_, hc⟩
    · refine Or.inr ⟨q, hq, hterm, fun l' hl' => ?_⟩
      exact Outcome.exists_of_mem_result hls' (hmem l' hl')

/-- **Inversion of binding to a schema.** -/
theorem bind_inv {s : Schema} {caseSensitive : Bool} {p : Predicate String}
    {e : Expr (Predicate Column)} (h : p.bind s caseSensitive = .ok e) :
    (∃ b, e = .constant b) ∨
      ∃ q, e = .leaf q ∧ s.column caseSensitive p.term = .ok q.term ∧
        ∀ l' ∈ q.literals, ∃ l ∈ p.literals, l.convert q.term.field.type = .ok l' := by
  obtain ⟨c, hc, h⟩ := bind_eq_ok.mp h
  rcases bindTo_inv h with hconst | ⟨q, hq, rfl, hlits⟩
  · exact Or.inl hconst
  · exact Or.inr ⟨q, hq, hc, hlits⟩

end Predicate

namespace Filter

/-- The bound form of a predicate is a predicate or a constant. -/
theorem isNormal_bindLeaf {s : Schema} {caseSensitive : Bool} {l : Leaf} {e : Filter}
    (h : bindLeaf s caseSensitive l = .ok e) : e.isNormal = true := by
  cases l with
  | bound p => simp [bindLeaf] at h
  | unbound p =>
    obtain ⟨b, hb, rfl⟩ := map_eq_ok.mp h
    rcases Predicate.bind_inv hb with ⟨c, rfl⟩ | ⟨q, rfl, _⟩ <;> rfl

/-- **The predicates of a bound filter** are what predicates of the filter were bound to. -/
theorem exists_bind_of_mem_leaves {s : Schema} {caseSensitive : Bool} {f B : Filter}
    (h : f.bind s caseSensitive = .ok B) {l : Leaf} (hl : l ∈ B.leaves) :
    ∃ p q, Leaf.unbound p ∈ f.leaves ∧ l = .bound q ∧ p.bind s caseSensitive = .ok (.leaf q) := by
  obtain ⟨a, ha, x, hx, hlx⟩ := Expr.exists_leaf_of_substitute h hl
  cases a with
  | bound p => simp [bindLeaf] at hx
  | unbound p =>
    obtain ⟨e, he, rfl⟩ := map_eq_ok.mp hx
    rcases Predicate.bind_inv he with ⟨b, rfl⟩ | ⟨q, rfl, _⟩
    · simp [Expr.map, Expr.leaves] at hlx
    · exact ⟨p, q, ha, by simpa [Expr.map, Expr.leaves] using hlx, he⟩

end Filter

end PartitionPruning
