import PartitionPruning.Expr.Basic
import PartitionPruning.Proofs.Outcome

/-!
# Substitution and evaluation of expressions

Binding a filter and finding its residual both replace the leaves of a tree and build it anew with
`Expr.conj`, `Expr.disj` and `Expr.negate`, which fold constants. This module holds what such a
rewrite does to a tree, whatever the leaves are:

* **`substitute_conj`, `substitute_disj`, `substitute_negate`** — a rewrite may be done before or
  after two operands are joined. Folding first loses nothing: what is folded away is constant on
  both sides.
* **`substitute_substitute`** — two rewrites one after the other are the one rewrite that does both
  at each leaf.
* **`leaves_substitute_sublist`** — a rewrite that keeps or drops leaves keeps their order.
* **`exists_leaf_of_substitute`** — a rewrite has no leaves but those that were put in.
* **`evaluate_substitute`** — a rewrite that keeps the truth value of each leaf keeps that of the
  tree.
-/

namespace PartitionPruning

namespace Expr

open Outcome (Succeeds bind_eq_ok pure_eq_ok)

variable {α β γ : Type}

/-! ## Constants as operands -/

/-- A conjunction with what never holds never holds. -/
@[simp] theorem conj_false_right (l : Expr α) : conj l (.constant false) = .constant false := by
  cases l with
  | constant b => cases b <;> rfl
  | _ => rfl

/-- A conjunction with what always holds is the other side. -/
@[simp] theorem conj_true_right (l : Expr α) : conj l (.constant true) = l := by
  cases l with
  | constant b => cases b <;> rfl
  | _ => rfl

/-- A disjunction with what always holds always holds. -/
@[simp] theorem disj_true_right (l : Expr α) : disj l (.constant true) = .constant true := by
  cases l with
  | constant b => cases b <;> rfl
  | _ => rfl

/-- A disjunction with what never holds is the other side. -/
@[simp] theorem disj_false_right (l : Expr α) : disj l (.constant false) = l := by
  cases l with
  | constant b => cases b <;> rfl
  | _ => rfl

/-- **Double negation.** Negating twice gives a normal expression back. -/
theorem negate_negate {e : Expr α} (h : e.isNormal = true) : negate (negate e) = e := by
  cases e with
  | constant b => cases b <;> rfl
  | not child =>
    cases child with
    | constant b => simp [isNormal, isConstant, isReduced] at h
    | not c => simp [isNormal, isConstant, isReduced, isNot] at h
    | _ => rfl
  | _ => rfl

/-! ## Inversion of a rewrite

One lemma for each constructor: what the parts of a tree became when its rewrite succeeded. -/

/-- A substituted negation is the negation of the substituted child. -/
theorem substitute_not_inv {f : α → Except Fault (Expr β)} {c : Expr α} {e : Expr β}
    (h : substitute f (.not c) = .ok e) : ∃ c', substitute f c = .ok c' ∧ e = negate c' := by
  obtain ⟨c', hc, h⟩ := bind_eq_ok.mp h
  exact ⟨c', hc, (pure_eq_ok.mp h).symm⟩

/-- A substituted conjunction is the conjunction of the substituted sides, left one first. -/
theorem substitute_and_inv {f : α → Except Fault (Expr β)} {l r : Expr α} {e : Expr β}
    (h : substitute f (.and l r) = .ok e) :
    ∃ l' r', substitute f l = .ok l' ∧ substitute f r = .ok r' ∧ e = conj l' r' := by
  obtain ⟨l', hl, h⟩ := bind_eq_ok.mp h
  obtain ⟨r', hr, h⟩ := bind_eq_ok.mp h
  exact ⟨l', r', hl, hr, (pure_eq_ok.mp h).symm⟩

/-- A substituted disjunction is the disjunction of the substituted sides, left one first. -/
theorem substitute_or_inv {f : α → Except Fault (Expr β)} {l r : Expr α} {e : Expr β}
    (h : substitute f (.or l r) = .ok e) :
    ∃ l' r', substitute f l = .ok l' ∧ substitute f r = .ok r' ∧ e = disj l' r' := by
  obtain ⟨l', hl, h⟩ := bind_eq_ok.mp h
  obtain ⟨r', hr, h⟩ := bind_eq_ok.mp h
  exact ⟨l', r', hl, hr, (pure_eq_ok.mp h).symm⟩

/-- A rewrite succeeds if it succeeds at every leaf. -/
theorem exists_substitute {f : α → Except Fault (Expr β)} {e : Expr α}
    (h : ∀ a ∈ e.leaves, ∃ x, f a = .ok x) : ∃ e', substitute f e = .ok e' := by
  induction e with
  | constant b => exact ⟨_, rfl⟩
  | leaf a => exact h a (by simp [leaves])
  | not c ih =>
    obtain ⟨c', hc⟩ := ih h
    exact ⟨negate c', by rw [substitute, hc]; rfl⟩
  | and l r ihl ihr =>
    obtain ⟨l', hl⟩ := ihl fun a ha => h a (List.mem_append_left _ ha)
    obtain ⟨r', hr⟩ := ihr fun a ha => h a (List.mem_append_right _ ha)
    exact ⟨conj l' r', by rw [substitute, hl, hr]; rfl⟩
  | or l r ihl ihr =>
    obtain ⟨l', hl⟩ := ihl fun a ha => h a (List.mem_append_left _ ha)
    obtain ⟨r', hr⟩ := ihr fun a ha => h a (List.mem_append_right _ ha)
    exact ⟨disj l' r', by rw [substitute, hl, hr]; rfl⟩

/-- A rewrite that succeeds does so at every leaf. -/
theorem exists_of_substitute {f : α → Except Fault (Expr β)} {e : Expr α} {e' : Expr β}
    (h : substitute f e = .ok e') : ∀ a ∈ e.leaves, ∃ x, f a = .ok x := by
  -- Both sides of a connective are substituted, whatever becomes of the first.
  induction e generalizing e' with
  | constant b => simp [leaves]
  | leaf a =>
    intro a' ha'
    obtain rfl : a' = a := by simpa [leaves] using ha'
    exact ⟨e', h⟩
  | not c ih =>
    obtain ⟨c', hc, _⟩ := substitute_not_inv h
    exact ih hc
  | and l r ihl ihr =>
    obtain ⟨l', r', hl, hr, _⟩ := substitute_and_inv h
    intro a ha
    rcases List.mem_append.mp ha with ha | ha
    · exact ihl hl a ha
    · exact ihr hr a ha
  | or l r ihl ihr =>
    obtain ⟨l', r', hl, hr, _⟩ := substitute_or_inv h
    intro a ha
    rcases List.mem_append.mp ha with ha | ha
    · exact ihl hl a ha
    · exact ihr hr a ha

/-! ## Rewrites and smart constructors -/

/-- What a rewrite builds is normal if it puts normal expressions in the place of leaves. -/
theorem isNormal_substitute {f : α → Except Fault (Expr β)}
    (hf : ∀ a x, f a = .ok x → x.isNormal = true) {e : Expr α} {e' : Expr β}
    (h : substitute f e = .ok e') : e'.isNormal = true := by
  -- The leaves are normal by assumption, and every connective keeps that.
  induction e generalizing e' with
  | constant b =>
    obtain rfl : Expr.constant b = e' := by simpa [substitute] using h
    rfl
  | leaf a => exact hf a e' h
  | not c ih =>
    obtain ⟨c', hc, rfl⟩ := substitute_not_inv h
    exact isNormal_negate (ih hc)
  | and l r ihl ihr =>
    obtain ⟨l', r', hl, hr, rfl⟩ := substitute_and_inv h
    exact isNormal_conj (ihl hl) (ihr hr)
  | or l r ihl ihr =>
    obtain ⟨l', r', hl, hr, rfl⟩ := substitute_or_inv h
    exact isNormal_disj (ihl hl) (ihr hr)

/-- Substitution commutes with the simplifying conjunction. -/
theorem substitute_conj {f : α → Except Fault (Expr β)} {l r : Expr α} {l' r' : Expr β}
    (hl : substitute f l = .ok l') (hr : substitute f r = .ok r') :
    substitute f (conj l r) = .ok (conj l' r') := by
  unfold conj
  -- an operand that is folded away is a constant, which every rewrite keeps
  split
  · obtain rfl : Expr.constant false = l' := by simpa [substitute] using hl
    rfl
  · obtain rfl : Expr.constant true = l' := by simpa [substitute] using hl
    exact hr
  · obtain rfl : Expr.constant false = r' := by simpa [substitute] using hr
    exact congrArg Except.ok (conj_false_right l').symm
  · obtain rfl : Expr.constant true = r' := by simpa [substitute] using hr
    rw [hl]
    exact congrArg Except.ok (conj_true_right l').symm
  · rw [substitute, hl, hr]
    rfl

/-- Substitution commutes with the simplifying disjunction. -/
theorem substitute_disj {f : α → Except Fault (Expr β)} {l r : Expr α} {l' r' : Expr β}
    (hl : substitute f l = .ok l') (hr : substitute f r = .ok r') :
    substitute f (disj l r) = .ok (disj l' r') := by
  -- A constant that was simplified away is substituted by itself.
  unfold disj
  split
  · obtain rfl : Expr.constant true = l' := by simpa [substitute] using hl
    rfl
  · obtain rfl : Expr.constant false = l' := by simpa [substitute] using hl
    exact hr
  · obtain rfl : Expr.constant true = r' := by simpa [substitute] using hr
    exact congrArg Except.ok (disj_true_right l').symm
  · obtain rfl : Expr.constant false = r' := by simpa [substitute] using hr
    rw [hl]
    exact congrArg Except.ok (disj_false_right l').symm
  · rw [substitute, hl, hr]
    rfl

/-- The leaves have to become normal: a negation that `negate` takes off is put back by it only when
the child is no negation itself. -/
theorem substitute_negate {f : α → Except Fault (Expr β)}
    (hf : ∀ a x, f a = .ok x → x.isNormal = true) {e : Expr α} {e' : Expr β}
    (h : substitute f e = .ok e') : substitute f (negate e) = .ok (negate e') := by
  cases e with
  | constant b =>
    obtain rfl : Expr.constant b = e' := by simpa [substitute] using h
    rfl
  | not c =>
    obtain ⟨c', hc, rfl⟩ := substitute_not_inv h
    -- the negation that was taken off has to be what is negated again
    rw [negate_negate (isNormal_substitute hf hc)]
    exact hc
  | leaf a => simp only [negate, substitute] at h ⊢; rw [h]; rfl
  | and l r => simp only [negate]; rw [substitute, h]; rfl
  | or l r => simp only [negate]; rw [substitute, h]; rfl

/-- **Two rewrites are one.** If `k` does at each leaf what `f` and then `g` do, it does so for the
whole tree, although `f` may have folded parts away in between. Induction on the tree. -/
theorem substitute_substitute {f : α → Except Fault (Expr β)} {g : β → Except Fault (Expr γ)}
    {k : α → Except Fault (Expr γ)} (hg : ∀ b x, g b = .ok x → x.isNormal = true)
    {e : Expr α} {e' : Expr β}
    (hk : ∀ a ∈ e.leaves, ∀ x, f a = .ok x → ∃ y, substitute g x = .ok y ∧ k a = .ok y)
    (h : substitute f e = .ok e') : ∃ y, substitute g e' = .ok y ∧ substitute k e = .ok y := by
  -- Where the first substitution simplifies, the second one has to agree with the simplified tree.
  induction e generalizing e' with
  | constant b =>
    obtain rfl : Expr.constant b = e' := by simpa [substitute] using h
    exact ⟨.constant b, rfl, rfl⟩
  | leaf a => exact hk a (by simp [leaves]) e' h
  | not c ih =>
    obtain ⟨c', hc, rfl⟩ := substitute_not_inv h
    obtain ⟨y, hgy, hky⟩ := ih hk hc
    exact ⟨negate y, substitute_negate hg hgy, by rw [substitute, hky]; rfl⟩
  | and l r ihl ihr =>
    obtain ⟨l', r', hl, hr, rfl⟩ := substitute_and_inv h
    obtain ⟨yl, hgl, hkl⟩ := ihl (fun a ha => hk a (List.mem_append_left _ ha)) hl
    obtain ⟨yr, hgr, hkr⟩ := ihr (fun a ha => hk a (List.mem_append_right _ ha)) hr
    exact ⟨conj yl yr, substitute_conj hgl hgr, by rw [substitute, hkl, hkr]; rfl⟩
  | or l r ihl ihr =>
    obtain ⟨l', r', hl, hr, rfl⟩ := substitute_or_inv h
    obtain ⟨yl, hgl, hkl⟩ := ihl (fun a ha => hk a (List.mem_append_left _ ha)) hl
    obtain ⟨yr, hgr, hkr⟩ := ihr (fun a ha => hk a (List.mem_append_right _ ha)) hr
    exact ⟨disj yl yr, substitute_disj hgl hgr, by rw [substitute, hkl, hkr]; rfl⟩

/-! ## Leaves of a rewrite -/

/-- Folding drops leaves and keeps the others in their order. -/
theorem leaves_conj_sublist (l r : Expr α) : (conj l r).leaves.Sublist (l.leaves ++ r.leaves) := by
  unfold conj
  split
  · exact List.nil_sublist _
  · exact List.Sublist.refl _
  · exact List.nil_sublist _
  · exact List.sublist_append_left _ _
  · exact List.Sublist.refl _

/-- Simplifying a disjunction may drop leaves, and keeps the others in order. -/
theorem leaves_disj_sublist (l r : Expr α) : (disj l r).leaves.Sublist (l.leaves ++ r.leaves) := by
  unfold disj
  split
  · exact List.nil_sublist _
  · exact List.Sublist.refl _
  · exact List.nil_sublist _
  · exact List.sublist_append_left _ _
  · exact List.Sublist.refl _

/-- Simplifying a negation keeps every leaf. -/
theorem leaves_negate (e : Expr α) : (negate e).leaves = e.leaves := by cases e <;> rfl

/-- A leaf of a simplified conjunction comes from one of the sides. -/
theorem mem_leaves_conj {l r : Expr α} {a : α} (h : a ∈ (conj l r).leaves) :
    a ∈ l.leaves ∨ a ∈ r.leaves :=
  List.mem_append.mp ((leaves_conj_sublist l r).subset h)

/-- A leaf of a simplified disjunction comes from one of the sides. -/
theorem mem_leaves_disj {l r : Expr α} {a : α} (h : a ∈ (disj l r).leaves) :
    a ∈ l.leaves ∨ a ∈ r.leaves :=
  List.mem_append.mp ((leaves_disj_sublist l r).subset h)

/-- **Leaves of a rewrite.** A rewrite that keeps or drops each leaf keeps the order of those that are
left. -/
theorem leaves_substitute_sublist {f : α → Except Fault (Expr α)} {e e' : Expr α}
    (hf : ∀ a ∈ e.leaves, ∀ x, f a = .ok x → x.leaves.Sublist [a])
    (h : substitute f e = .ok e') : e'.leaves.Sublist e.leaves := by
  -- Each connective may drop leaves and never moves one past another.
  induction e generalizing e' with
  | constant b =>
    obtain rfl : Expr.constant b = e' := by simpa [substitute] using h
    exact List.Sublist.refl _
  | leaf a => exact hf a (by simp [leaves]) e' h
  | not c ih =>
    obtain ⟨c', hc, rfl⟩ := substitute_not_inv h
    rw [leaves_negate]
    exact ih hf hc
  | and l r ihl ihr =>
    obtain ⟨l', r', hl, hr, rfl⟩ := substitute_and_inv h
    have hleft := ihl (fun a ha => hf a (List.mem_append_left _ ha)) hl
    have hright := ihr (fun a ha => hf a (List.mem_append_right _ ha)) hr
    exact (leaves_conj_sublist l' r').trans (hleft.append hright)
  | or l r ihl ihr =>
    obtain ⟨l', r', hl, hr, rfl⟩ := substitute_or_inv h
    have hleft := ihl (fun a ha => hf a (List.mem_append_left _ ha)) hl
    have hright := ihr (fun a ha => hf a (List.mem_append_right _ ha)) hr
    exact (leaves_disj_sublist l' r').trans (hleft.append hright)

/-- Every leaf of a rewritten tree comes from a leaf of the tree. -/
theorem exists_leaf_of_substitute {f : α → Except Fault (Expr β)} {e : Expr α} {e' : Expr β}
    (h : substitute f e = .ok e') {b : β} (hb : b ∈ e'.leaves) :
    ∃ a ∈ e.leaves, ∃ x, f a = .ok x ∧ b ∈ x.leaves := by
  -- A leaf of the result is traced back to the side that it came from.
  induction e generalizing e' with
  | constant c =>
    obtain rfl : Expr.constant c = e' := by simpa [substitute] using h
    simp [leaves] at hb
  | leaf a => exact ⟨a, by simp [leaves], e', h, hb⟩
  | not c ih =>
    obtain ⟨c', hc, rfl⟩ := substitute_not_inv h
    exact ih hc (leaves_negate c' ▸ hb)
  | and l r ihl ihr =>
    obtain ⟨l', r', hl, hr, rfl⟩ := substitute_and_inv h
    rcases mem_leaves_conj hb with hb | hb
    · obtain ⟨a, ha, hx⟩ := ihl hl hb
      exact ⟨a, List.mem_append_left _ ha, hx⟩
    · obtain ⟨a, ha, hx⟩ := ihr hr hb
      exact ⟨a, List.mem_append_right _ ha, hx⟩
  | or l r ihl ihr =>
    obtain ⟨l', r', hl, hr, rfl⟩ := substitute_or_inv h
    rcases mem_leaves_disj hb with hb | hb
    · obtain ⟨a, ha, hx⟩ := ihl hl hb
      exact ⟨a, List.mem_append_left _ ha, hx⟩
    · obtain ⟨a, ha, hx⟩ := ihr hr hb
      exact ⟨a, List.mem_append_right _ ha, hx⟩

/-! ## Truth values -/

/-- The simplified conjunction means the conjunction, where both sides have a meaning. -/
theorem evaluate_conj {f : α → Except Fault Bool} {l r : Expr α} {a b : Bool}
    (hl : evaluate f l = .ok a) (hr : evaluate f r = .ok b) :
    evaluate f (conj l r) = .ok (a && b) := by
  unfold conj
  split
  · obtain rfl : false = a := by simpa [evaluate] using hl
    rfl
  · obtain rfl : true = a := by simpa [evaluate] using hl
    exact hr
  · obtain rfl : false = b := by simpa [evaluate] using hr
    simp [evaluate]
  · obtain rfl : true = b := by simpa [evaluate] using hr
    simpa using hl
  · rw [evaluate, hl, hr]
    rfl

/-- The simplified disjunction means the disjunction, where both sides have a meaning. -/
theorem evaluate_disj {f : α → Except Fault Bool} {l r : Expr α} {a b : Bool}
    (hl : evaluate f l = .ok a) (hr : evaluate f r = .ok b) :
    evaluate f (disj l r) = .ok (a || b) := by
  unfold disj
  split
  · obtain rfl : true = a := by simpa [evaluate] using hl
    rfl
  · obtain rfl : false = a := by simpa [evaluate] using hl
    exact hr
  · obtain rfl : true = b := by simpa [evaluate] using hr
    simp [evaluate]
  · obtain rfl : false = b := by simpa [evaluate] using hr
    simpa using hl
  · rw [evaluate, hl, hr]
    rfl

/-- A negation that has a meaning is of an expression that has the opposite one. -/
theorem evaluate_not_inv {f : α → Except Fault Bool} {c : Expr α} {t : Bool}
    (h : evaluate f (.not c) = .ok t) : ∃ s, evaluate f c = .ok s ∧ t = !s := by
  obtain ⟨s, hs, h⟩ := bind_eq_ok.mp h
  exact ⟨s, hs, (pure_eq_ok.mp h).symm⟩

/-- A conjunction has a meaning only when both sides do: the right one is never skipped. -/
theorem evaluate_and_inv {f : α → Except Fault Bool} {l r : Expr α} {t : Bool}
    (h : evaluate f (.and l r) = .ok t) :
    ∃ a b, evaluate f l = .ok a ∧ evaluate f r = .ok b ∧ t = (a && b) := by
  obtain ⟨a, ha, h⟩ := bind_eq_ok.mp h
  obtain ⟨b, hb, h⟩ := bind_eq_ok.mp h
  exact ⟨a, b, ha, hb, (pure_eq_ok.mp h).symm⟩

/-- A disjunction has a meaning only when both sides do: the right one is never skipped. -/
theorem evaluate_or_inv {f : α → Except Fault Bool} {l r : Expr α} {t : Bool}
    (h : evaluate f (.or l r) = .ok t) :
    ∃ a b, evaluate f l = .ok a ∧ evaluate f r = .ok b ∧ t = (a || b) := by
  obtain ⟨a, ha, h⟩ := bind_eq_ok.mp h
  obtain ⟨b, hb, h⟩ := bind_eq_ok.mp h
  exact ⟨a, b, ha, hb, (pure_eq_ok.mp h).symm⟩

/-- Both operands are always evaluated, so a tree has a truth value exactly if each leaf has one. -/
theorem succeeds_evaluate {f : α → Except Fault Bool} {e : Expr α} :
    Succeeds (evaluate f e) ↔ ∀ a ∈ e.leaves, Succeeds (f a) := by
  -- There is no short circuit, so both sides count in each connective.
  induction e with
  | constant b => simp [evaluate, leaves]
  | leaf a => simp [evaluate, leaves]
  | not c ih =>
    rw [leaves, ← ih]
    constructor
    · rintro ⟨t, ht⟩
      obtain ⟨s, hs, _⟩ := evaluate_not_inv ht
      exact ⟨s, hs⟩
    · rintro ⟨s, hs⟩
      exact ⟨!s, by rw [evaluate, hs]; rfl⟩
  | and l r ihl ihr =>
    rw [leaves, List.forall_mem_append, ← ihl, ← ihr]
    constructor
    · rintro ⟨t, ht⟩
      obtain ⟨a, b, ha, hb, _⟩ := evaluate_and_inv ht
      exact ⟨⟨a, ha⟩, ⟨b, hb⟩⟩
    · rintro ⟨⟨a, ha⟩, ⟨b, hb⟩⟩
      exact ⟨a && b, by rw [evaluate, ha, Outcome.ok_bind, hb]; rfl⟩
  | or l r ihl ihr =>
    rw [leaves, List.forall_mem_append, ← ihl, ← ihr]
    constructor
    · rintro ⟨t, ht⟩
      obtain ⟨a, b, ha, hb, _⟩ := evaluate_or_inv ht
      exact ⟨⟨a, ha⟩, ⟨b, hb⟩⟩
    · rintro ⟨⟨a, ha⟩, ⟨b, hb⟩⟩
      exact ⟨a || b, by rw [evaluate, ha, Outcome.ok_bind, hb]; rfl⟩

/-- The simplified negation means the opposite. -/
theorem evaluate_negate {f : α → Except Fault Bool} {e : Expr α} {t : Bool}
    (h : evaluate f e = .ok t) : evaluate f (negate e) = .ok (!t) := by
  cases e with
  | constant b =>
    obtain rfl : b = t := by simpa [evaluate] using h
    rfl
  | not c =>
    obtain ⟨s, hs, rfl⟩ := evaluate_not_inv h
    simpa [negate] using hs
  | leaf a => simp only [negate]; rw [evaluate, h]; rfl
  | and l r => simp only [negate]; rw [evaluate, h]; rfl
  | or l r => simp only [negate]; rw [evaluate, h]; rfl

/-- **A rewrite keeps the truth value** of a tree if it keeps that of each leaf. The tree that is
rewritten is evaluated without fault, so each of its leaves is. -/
theorem evaluate_substitute {s : α → Except Fault (Expr β)} {f : α → Except Fault Bool}
    {g : β → Except Fault Bool} {e : Expr α} {e' : Expr β} {t : Bool}
    (hs : ∀ a ∈ e.leaves, ∀ x b, s a = .ok x → f a = .ok b → evaluate g x = .ok b)
    (h : substitute s e = .ok e') (ht : evaluate f e = .ok t) : evaluate g e' = .ok t := by
  -- The outcome of the leaf is the only thing that is kept; the shape may change.
  induction e generalizing e' t with
  | constant b =>
    obtain rfl : Expr.constant b = e' := by simpa [substitute] using h
    exact ht
  | leaf a => exact hs a (by simp [leaves]) e' t h ht
  | not c ih =>
    obtain ⟨c', hc, rfl⟩ := substitute_not_inv h
    obtain ⟨b, hb, rfl⟩ := evaluate_not_inv ht
    exact evaluate_negate (ih hs hc hb)
  | and l r ihl ihr =>
    obtain ⟨l', r', hl, hr, rfl⟩ := substitute_and_inv h
    obtain ⟨a, b, ha, hb, rfl⟩ := evaluate_and_inv ht
    exact evaluate_conj (ihl (fun x hx => hs x (List.mem_append_left _ hx)) hl ha)
      (ihr (fun x hx => hs x (List.mem_append_right _ hx)) hr hb)
  | or l r ihl ihr =>
    obtain ⟨l', r', hl, hr, rfl⟩ := substitute_or_inv h
    obtain ⟨a, b, ha, hb, rfl⟩ := evaluate_or_inv ht
    exact evaluate_disj (ihl (fun x hx => hs x (List.mem_append_left _ hx)) hl ha)
      (ihr (fun x hx => hs x (List.mem_append_right _ hx)) hr hb)

end Expr

end PartitionPruning
