import PartitionPruning.Proofs.Expr.Substitution

/-!
# Complements of expressions

`Expr.invert` takes the opposite of a tree by the laws of De Morgan: conjunctions and disjunctions
change places, a leaf becomes its own opposite, and a negation is taken off. What it builds need not be
`Expr.negate` of the tree, but both are complements of the tree.

* **`evaluate_invert`** — the opposite of a tree is true exactly where the tree is false, if each leaf
  has an opposite of that kind.
* **`IsComplement.conj`**, **`IsComplement.disj`**, **`isComplement_negate`** — folding constants away
  keeps complements: what is constant in a tree is so in its complement.
* **`substitute_invert`** — a rewrite of the opposite of a tree is a complement of the rewritten tree.
-/

namespace PartitionPruning

namespace Expr

variable {α β : Type}

/-- **The laws of De Morgan.** The opposite of a tree that has a truth value has the opposite one, if
the opposites of its leaves have. -/
theorem evaluate_invert {f : α → Except Fault Bool} {opposite : α → α} {e : Expr α} {t : Bool}
    (hleaves : ∀ a ∈ e.leaves, ∀ b, f a = .ok b → f (opposite a) = .ok (!b))
    (h : evaluate f e = .ok t) : evaluate f (invert opposite e) = .ok (!t) := by
  induction e generalizing t with
  | constant b =>
    obtain rfl : b = t := Except.ok.inj h
    rfl
  | leaf a => exact hleaves a (by simp [leaves]) t h
  | not c _ =>
    -- the opposite of a negation is its child, which has no part in the induction
    obtain ⟨s, hs, rfl⟩ := evaluate_not_inv h
    rwa [Bool.not_not]
  | and l r ihl ihr =>
    obtain ⟨a, b, ha, hb, rfl⟩ := evaluate_and_inv h
    rw [Bool.not_and]
    exact evaluate_disj (ihl (fun x hx => hleaves x (List.mem_append_left _ hx)) ha)
      (ihr (fun x hx => hleaves x (List.mem_append_right _ hx)) hb)
  | or l r ihl ihr =>
    obtain ⟨a, b, ha, hb, rfl⟩ := evaluate_or_inv h
    rw [Bool.not_or]
    exact evaluate_conj (ihl (fun x hx => hleaves x (List.mem_append_left _ hx)) ha)
      (ihr (fun x hx => hleaves x (List.mem_append_right _ hx)) hb)

/-! ## Complements -/

/-- Whether two expressions are complements: one is a constant exactly if the other is the opposite
one, and one has a truth value exactly if the other has the opposite one. -/
structure IsComplement (f : α → Except Fault Bool) (e e' : Expr α) : Prop where
  constant_iff : ∀ b, e = .constant b ↔ e' = .constant (!b)
  evaluate_iff : ∀ t, evaluate f e = .ok t ↔ evaluate f e' = .ok (!t)

variable {f : α → Except Fault Bool} {l l' r r' : Expr α}

/-- Being a complement goes both ways. -/
theorem IsComplement.symm (h : IsComplement f l l') : IsComplement f l' l where
  constant_iff b := by rw [h.constant_iff (!b), Bool.not_not]
  evaluate_iff t := by rw [h.evaluate_iff (!t), Bool.not_not]

/-- The two constants are each other's complement. -/
theorem isComplement_constant (f : α → Except Fault Bool) (b : Bool) :
    IsComplement f (.constant b) (.constant (!b)) where
  constant_iff c := by simp
  evaluate_iff t := by simp [evaluate]

/-- Leaves whose meanings are opposite are each other's complement. -/
theorem isComplement_leaf {a a' : α} (h : ∀ t, f a = .ok t ↔ f a' = .ok (!t)) :
    IsComplement f (.leaf a) (.leaf a') where
  constant_iff b := by simp
  evaluate_iff t := h t

/-- The child of a negation is a complement of it. A negation of a negation would be another tree, so
the child has to be normal. -/
theorem isComplement_negate {c : Expr α} (hc : c.isNormal = true) :
    IsComplement f (negate c) c where
  constant_iff b :=
    ⟨fun h => by rw [← negate_negate hc, h]; rfl, fun h => by rw [h, negate, Bool.not_not]⟩
  evaluate_iff t :=
    ⟨fun h => negate_negate hc ▸ evaluate_negate h, fun h => by simpa using evaluate_negate h⟩

/-- De Morgan's law, outcomes included: a conjunction fails where the disjunction of the complements
does. -/
theorem evaluate_and_of_isComplement (hl : IsComplement f l l') (hr : IsComplement f r r') (t : Bool) :
    evaluate f (.and l r) = .ok t ↔ evaluate f (.or l' r') = .ok (!t) := by
  constructor
  · intro h
    obtain ⟨a, b, ha, hb, rfl⟩ := evaluate_and_inv h
    rw [evaluate, (hl.evaluate_iff a).mp ha, (hr.evaluate_iff b).mp hb, Bool.not_and]
    rfl
  · intro h
    obtain ⟨a, b, ha, hb, ht⟩ := evaluate_or_inv h
    rw [evaluate, (hl.symm.evaluate_iff a).mp ha, (hr.symm.evaluate_iff b).mp hb, ← Bool.not_not t, ht,
      Bool.not_or]
    rfl

/-- **Conjunctions.** The disjunction of complements is a complement of the conjunction: an operand that
one folds away is folded away by the other. -/
theorem IsComplement.conj (hl : IsComplement f l l') (hr : IsComplement f r r') :
    IsComplement f (Expr.conj l r) (Expr.disj l' r') := by
  -- Where one side is a constant, the other expression has the opposite constant on that side.
  unfold Expr.conj
  split
  · obtain rfl := (hl.constant_iff false).mp rfl
    exact isComplement_constant f false
  · obtain rfl := (hl.constant_iff true).mp rfl
    exact hr
  · obtain rfl := (hr.constant_iff false).mp rfl
    rw [Bool.not_false, disj_true_right]
    exact isComplement_constant f false
  · obtain rfl := (hr.constant_iff true).mp rfl
    rw [Bool.not_true, disj_false_right]
    exact hl
  · rename_i hlf hlt hrf hrt
    -- No side is a constant here, and then no complement is one.
    have hdisj : Expr.disj l' r' = .or l' r' := by
      unfold Expr.disj
      split
      · exact absurd ((hl.constant_iff false).mpr rfl) hlf
      · exact absurd ((hl.constant_iff true).mpr rfl) hlt
      · exact absurd ((hr.constant_iff false).mpr rfl) hrf
      · exact absurd ((hr.constant_iff true).mpr rfl) hrt
      · rfl
    rw [hdisj]
    exact ⟨fun b => by simp, evaluate_and_of_isComplement hl hr⟩

/-- **Disjunctions.** -/
theorem IsComplement.disj (hl : IsComplement f l l') (hr : IsComplement f r r') :
    IsComplement f (Expr.disj l r) (Expr.conj l' r') :=
  (hl.symm.conj hr.symm).symm

/-! ## Rewrites of opposites -/

/-- **A rewrite of the opposite** of a tree is a complement of the rewritten tree, if the same holds
of each leaf. Induction on the tree; a negation gives the rewrite of its child back, which is normal if
what is put in the place of leaves is. -/
theorem substitute_invert {s : α → Except Fault (Expr β)} {g : β → Except Fault Bool}
    {opposite : α → α} (hs : ∀ a x, s a = .ok x → x.isNormal = true) {e : Expr α} {e' : Expr β}
    (hleaves : ∀ a ∈ e.leaves, ∀ x, s a = .ok x →
      ∃ y, s (opposite a) = .ok y ∧ IsComplement g x y)
    (h : substitute s e = .ok e') :
    ∃ y, substitute s (invert opposite e) = .ok y ∧ IsComplement g e' y := by
  induction e generalizing e' with
  | constant b =>
    obtain rfl : Expr.constant b = e' := Except.ok.inj h
    exact ⟨_, rfl, isComplement_constant g b⟩
  | leaf a => exact hleaves a (by simp [leaves]) e' h
  -- A negation is inverted by taking it away, so its child is left as it is.
  | not c _ =>
    obtain ⟨c', hc, rfl⟩ := substitute_not_inv h
    exact ⟨c', hc, isComplement_negate (isNormal_substitute hs hc)⟩
  | and l r ihl ihr =>
    obtain ⟨l', r', hl, hr, rfl⟩ := substitute_and_inv h
    obtain ⟨yl, hyl, hcl⟩ := ihl (fun a ha => hleaves a (List.mem_append_left _ ha)) hl
    obtain ⟨yr, hyr, hcr⟩ := ihr (fun a ha => hleaves a (List.mem_append_right _ ha)) hr
    exact ⟨_, substitute_disj hyl hyr, hcl.conj hcr⟩
  | or l r ihl ihr =>
    obtain ⟨l', r', hl, hr, rfl⟩ := substitute_or_inv h
    obtain ⟨yl, hyl, hcl⟩ := ihl (fun a ha => hleaves a (List.mem_append_left _ ha)) hl
    obtain ⟨yr, hyr, hcr⟩ := ihr (fun a ha => hleaves a (List.mem_append_right _ ha)) hr
    exact ⟨_, substitute_conj hyl hyr, hcl.disj hcr⟩

end Expr

end PartitionPruning
