import PartitionPruning.Proofs.Expr.Substitution

/-!
# Normal forms of expressions

A normal expression is a constant, or it holds no constant and no negation of a negation. Every way
of building expressions gives a normal one when its operands are; here is what that is worth:

* **`substitute_of_isNormal`** — a rewrite that keeps each leaf of a normal expression gives the
  expression back.
* **`constant_of_leaves_eq_nil`** — a normal expression without leaves is a constant.
* **`isNormal_invert`** — the opposite of a normal expression is normal.
-/

namespace PartitionPruning

namespace Expr

variable {α β : Type}

/-! ## Reduced expressions -/

/-- An expression without constants that is reduced is normal. -/
theorem isNormal_of_isReduced {e : Expr α} (h : e.isReduced = true) : e.isNormal = true := by
  simp [isNormal, h]

/-- A normal expression is a constant or is reduced. -/
theorem isReduced_of_isNormal {e : Expr α} (h : e.isNormal = true)
    (hconstant : e.isConstant = false) : e.isReduced = true := by
  simpa [isNormal, hconstant] using h

/-- Normal expressions are constants or reduced. -/
theorem isNormal_cases {e : Expr α} (h : e.isNormal = true) :
    (∃ b, e = .constant b) ∨ e.isReduced = true := by
  cases e with
  | constant b => exact Or.inl ⟨b, rfl⟩
  | _ => exact Or.inr (isReduced_of_isNormal h rfl)

/-- A reduced negation is of a reduced expression that is no negation itself. -/
theorem isReduced_not {c : Expr α} (h : (Expr.not c).isReduced = true) :
    c.isNot = false ∧ c.isReduced = true := by
  simpa [isReduced] using h

/-- Both sides of a reduced conjunction are reduced. -/
theorem isReduced_and {l r : Expr α} (h : (Expr.and l r).isReduced = true) :
    l.isReduced = true ∧ r.isReduced = true := by
  simpa [isReduced] using h

/-- Both sides of a reduced disjunction are reduced. -/
theorem isReduced_or {l r : Expr α} (h : (Expr.or l r).isReduced = true) :
    l.isReduced = true ∧ r.isReduced = true := by
  simpa [isReduced] using h

/-- Nothing of a reduced expression is folded away. -/
theorem leaves_ne_nil_of_isReduced {e : Expr α} (h : e.isReduced = true) : e.leaves ≠ [] := by
  induction e with
  | constant b => simp [isReduced] at h
  | leaf a => simp [leaves]
  | not c ih => exact ih (isReduced_not h).2
  | and l r ihl _ => exact List.append_ne_nil_of_left_ne_nil (ihl (isReduced_and h).1) _
  | or l r ihl _ => exact List.append_ne_nil_of_left_ne_nil (ihl (isReduced_or h).1) _

/-- **Recognising constants.** What a normal expression without leaves says is seen at its root. -/
theorem constant_of_leaves_eq_nil {e : Expr α} (h : e.isNormal = true) (hnil : e.leaves = []) :
    ∃ b, e = .constant b := by
  rcases isNormal_cases h with hconstant | hreduced
  · exact hconstant
  · exact absurd hnil (leaves_ne_nil_of_isReduced hreduced)

/-! ## Rebuilding -/

/-- There is nothing to simplify in the conjunction of reduced expressions. -/
theorem conj_of_isReduced {l r : Expr α} (hl : l.isReduced = true) (hr : r.isReduced = true) :
    conj l r = .and l r := by
  cases l with
  | constant b => simp [isReduced] at hl
  | _ =>
    cases r with
    | constant b => simp [isReduced] at hr
    | _ => rfl

/-- There is nothing to simplify in the disjunction of reduced expressions. -/
theorem disj_of_isReduced {l r : Expr α} (hl : l.isReduced = true) (hr : r.isReduced = true) :
    disj l r = .or l r := by
  cases l with
  | constant b => simp [isReduced] at hl
  | _ =>
    cases r with
    | constant b => simp [isReduced] at hr
    | _ => rfl

/-- There is nothing to simplify in the negation of what a reduced negation is of. -/
theorem negate_of_isReduced {c : Expr α} (h : (Expr.not c).isReduced = true) :
    negate c = .not c := by
  obtain ⟨hnot, hc⟩ := isReduced_not h
  cases c with
  | constant b => simp [isReduced] at hc
  | not child => simp [isNot] at hnot
  | _ => rfl

/-- A reduced expression is built again as it is. Induction on the tree: no operand is a constant, so
that nothing is folded. -/
theorem substitute_of_isReduced {f : α → Except Fault (Expr α)} {e : Expr α}
    (h : e.isReduced = true) (hf : ∀ a ∈ e.leaves, f a = .ok (.leaf a)) :
    substitute f e = .ok e := by
  -- At every node the simplifying connective finds nothing to do.
  induction e with
  | constant b => rfl
  | leaf a => exact hf a (by simp [leaves])
  | not c ih =>
    have hc := ih (isReduced_not h).2 hf
    rw [substitute, hc, Outcome.ok_bind, negate_of_isReduced h]
    rfl
  | and l r ihl ihr =>
    obtain ⟨hl, hr⟩ := isReduced_and h
    have hleft := ihl hl fun a ha => hf a (List.mem_append_left _ ha)
    have hright := ihr hr fun a ha => hf a (List.mem_append_right _ ha)
    rw [substitute, hleft, Outcome.ok_bind, hright, Outcome.ok_bind, conj_of_isReduced hl hr]
    rfl
  | or l r ihl ihr =>
    obtain ⟨hl, hr⟩ := isReduced_or h
    have hleft := ihl hl fun a ha => hf a (List.mem_append_left _ ha)
    have hright := ihr hr fun a ha => hf a (List.mem_append_right _ ha)
    rw [substitute, hleft, Outcome.ok_bind, hright, Outcome.ok_bind, disj_of_isReduced hl hr]
    rfl

/-- **Rebuilding a normal expression.** A rewrite that keeps its leaves gives it back. -/
theorem substitute_of_isNormal {f : α → Except Fault (Expr α)} {e : Expr α}
    (h : e.isNormal = true) (hf : ∀ a ∈ e.leaves, f a = .ok (.leaf a)) :
    substitute f e = .ok e := by
  rcases isNormal_cases h with ⟨b, rfl⟩ | hreduced
  · rfl
  · exact substitute_of_isReduced hreduced hf

/-! ## Opposites and joins -/

/-- **Opposites are normal.** Conjunctions and disjunctions are built anew, and a negation leaves its
operand, which is no negation. -/
theorem isNormal_invert {opposite : α → α} {e : Expr α} (h : e.isNormal = true) :
    (invert opposite e).isNormal = true := by
  induction e with
  | constant b => rfl
  | leaf a => rfl
  | not c ih => exact isNormal_of_isReduced (isReduced_not (isReduced_of_isNormal h rfl)).2
  | and l r ihl ihr =>
    obtain ⟨hl, hr⟩ := isReduced_and (isReduced_of_isNormal h rfl)
    exact isNormal_disj (ihl (isNormal_of_isReduced hl)) (ihr (isNormal_of_isReduced hr))
  | or l r ihl ihr =>
    obtain ⟨hl, hr⟩ := isReduced_or (isReduced_of_isNormal h rfl)
    exact isNormal_conj (ihl (isNormal_of_isReduced hl)) (ihr (isNormal_of_isReduced hr))

/-- The leaves of the opposite are leaves and opposites of leaves. -/
theorem mem_leaves_invert {opposite : α → α} {e : Expr α} {a : α}
    (h : a ∈ (invert opposite e).leaves) : ∃ b ∈ e.leaves, a = b ∨ a = opposite b := by
  induction e with
  | constant b => simp [invert, leaves] at h
  | leaf b => exact ⟨b, by simp [leaves], Or.inr (by simpa [invert, leaves] using h)⟩
  -- Inverting a negation leaves its child as it was.
  | not c ih => exact ⟨a, h, Or.inl rfl⟩
  | and l r ihl ihr =>
    rcases mem_leaves_disj h with h | h
    · obtain ⟨b, hb, hab⟩ := ihl h
      exact ⟨b, List.mem_append_left _ hb, hab⟩
    · obtain ⟨b, hb, hab⟩ := ihr h
      exact ⟨b, List.mem_append_right _ hb, hab⟩
  | or l r ihl ihr =>
    rcases mem_leaves_conj h with h | h
    · obtain ⟨b, hb, hab⟩ := ihl h
      exact ⟨b, List.mem_append_left _ hb, hab⟩
    · obtain ⟨b, hb, hab⟩ := ihr h
      exact ⟨b, List.mem_append_right _ hb, hab⟩

/-- What holds of all operands and is kept by a join holds of what they are joined to. -/
theorem joinAll_induction {P : Expr α → Prop} {join : Expr α → Expr α → Expr α}
    (hjoin : ∀ l r, P l → P r → P (join l r)) {es : List (Expr α)} {e : Expr α}
    (hes : ∀ x ∈ es, P x) (h : joinAll join es = .ok e) : P e := by
  match es with
  | [] | [_] => simp [joinAll] at h
  | first :: second :: rest =>
    obtain rfl := Except.ok.inj h
    have hfirst : P (join first second) :=
      hjoin _ _ (hes _ (by simp)) (hes _ (by simp))
    have hrest : ∀ x ∈ rest, P x := fun x hx => hes x (by simp [hx])
    exact List.foldlRecOn rest join hfirst fun l hl r hr => hjoin l r hl (hrest r hr)

end Expr

end PartitionPruning
