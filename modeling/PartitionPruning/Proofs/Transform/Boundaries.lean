import PartitionPruning.Proofs.Transform.Shape

/-!
# Boundaries in coarser units

A transform to a coarser unit keeps the order of numbers, but numbers that differ may share a unit.
A comparison with a number is projected to a comparison of units, with the boundary moved by a step
where the comparison leaves it out (`Side.bound?`).

For these bounds only two properties of the transform count (`Coarsens`). It may fail for some
numbers, so it is a partial function.

* **`bound_sound`** — what the units decide is true of the numbers.
* **`bound_complete`** — what they do not decide depends on the number: there is no gap between the
  strict and the inclusive bound.
-/

namespace PartitionPruning

/-- **Coarser units.** A count that keeps the order, and for which no unit holds numbers on both sides
of an end of a range. -/
structure Coarsens (g : Int → Except Fault Int) (inside : Int → Bool) : Prop where
  mono : ∀ {m n a b : Int}, m ≤ n → g m = .ok a → g n = .ok b → a ≤ b
  apart : ∀ {m n a b : Int}, g m = .ok a → g n = .ok b → inside m ≠ inside n → a ≠ b

namespace Side

variable {side : Side} {op op' : Comparison} {step : Int}

/-- The comparison of units is one of numbers too, and it treats nulls alike. -/
theorem bound_like (h : side.bound? op = some (op', step)) :
    op.isBeginning = false ∧ op'.isBeginning = false ∧ op'.ofNull = op.ofNull := by
  cases side <;> cases op <;> simp [bound?] at h <;> obtain ⟨rfl, rfl⟩ := h <;> exact ⟨rfl, rfl, rfl⟩

theorem step_bound (h : side.bound? op = some (op', step)) : -1 ≤ step ∧ step ≤ 1 := by
  cases side <;> cases op <;> simp [bound?] at h <;> omega

theorem exists_bound (side : Side) (h : op.isOrdering = true) :
    ∃ op' step, side.bound? op = some (op', step) := by
  cases side <;> cases op <;> simp [Comparison.isOrdering] at h <;> exact ⟨_, _, rfl⟩

variable {g : Int → Except Fault Int} {inside : Int → Bool} {m n a k : Int}

/-- **Bounds are sound.** If the bound decides for the unit of a number, then the comparison of the
number has the same outcome. -/
theorem bound_sound (hg : Coarsens g inside) (hop : side.bound? op = some (op', step))
    (hn : g n = .ok a) (hm : g (m + step) = .ok k) (h : op'.holds a k = side.decides) :
    op.holds n m = side.decides := by
  have hle : n ≤ m + step → a ≤ k := fun hle => hg.mono hle hn hm
  have hge : m + step ≤ n → k ≤ a := fun hge => hg.mono hge hm hn
  cases side <;> cases op <;>
    simp only [bound?, Option.some.injEq, Prod.mk.injEq, reduceCtorEq] at hop
  all_goals
    obtain ⟨rfl, rfl⟩ := hop
    simp only [Comparison.holds, decides, decide_eq_true_eq, decide_eq_false_iff_not] at h ⊢
    omega

/-- **Bounds are complete.** If the bound of an ordering does not decide for a unit, then the unit holds
a number inside the range for which the ordering has the other outcome. -/
theorem bound_complete (hg : Coarsens g inside) (hord : op.isOrdering = true)
    (hop : side.bound? op = some (op', step)) (hn : g n = .ok a) (hin : inside n = true)
    (hm : g (m + step) = .ok k) (h : op'.holds a k = !side.decides) :
    ∃ n, inside n = true ∧ g n = .ok a ∧ op.holds n m = !side.decides := by
  by_cases hother : op.holds n m = !side.decides
  · exact ⟨n, hin, hn, hother⟩
  have hle : n ≤ m + step → a ≤ k := fun hle => hg.mono hle hn hm
  have hge : m + step ≤ n → k ≤ a := fun hge => hg.mono hge hm hn
  -- the number is on the side of the boundary that the unit is not on, so its unit is the boundary's
  have hsame : a = k := by
    cases side <;> cases op <;> simp only [Comparison.isOrdering, Bool.false_eq_true] at hord <;>
      simp only [bound?, Option.some.injEq, Prod.mk.injEq] at hop
    all_goals
      obtain ⟨rfl, rfl⟩ := hop
      simp only [Comparison.holds, decides, Bool.not_true, Bool.not_false, decide_eq_true_eq,
        decide_eq_false_iff_not] at h hother
      omega
  subst hsame
  refine ⟨m + step, ?_, hm, ?_⟩
  · by_contra hout
    exact hg.apart hn hm (by simp [hin, hout]) rfl
  · cases side <;> cases op <;> simp only [Comparison.isOrdering, Bool.false_eq_true] at hord <;>
      simp only [bound?, Option.some.injEq, Prod.mk.injEq] at hop
    all_goals
      obtain ⟨rfl, rfl⟩ := hop
      simp only [Comparison.holds, decides, Bool.not_true, Bool.not_false, decide_eq_true_eq,
        decide_eq_false_iff_not]
      omega

end Side

end PartitionPruning
