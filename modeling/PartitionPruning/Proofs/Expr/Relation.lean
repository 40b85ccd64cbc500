import PartitionPruning.Expr.Basic
import PartitionPruning.Proofs.Outcome

/-!
# Related expressions

Two expressions are related if they have one shape, the same constants, and related leaves. Equality of
expressions is such a relation, and a rewrite that replaces related leaves by related expressions keeps
expressions related: what is folded away on one side is folded away on the other side too.

* **`eqBy_eq_ok_true_iff`** — expressions are equal if they are related by the equality of leaves.
* **`Related.substitute`** — two rewrites of related expressions fail both or give related ones.
-/

namespace PartitionPruning

namespace Expr

open Outcome (Agree bind_eq_ok)

variable {α β γ δ : Type}

/-- Whether two expressions have one shape, the same constants and related leaves. -/
inductive Related (R : α → β → Prop) : Expr α → Expr β → Prop
  | constant (b : Bool) : Related R (.constant b) (.constant b)
  | leaf {a : α} {b : β} (h : R a b) : Related R (.leaf a) (.leaf b)
  | not {e : Expr α} {f : Expr β} (h : Related R e f) : Related R (.not e) (.not f)
  | and {l r : Expr α} {l' r' : Expr β} (hl : Related R l l') (hr : Related R r r') :
    Related R (.and l r) (.and l' r')
  | or {l r : Expr α} {l' r' : Expr β} (hl : Related R l l') (hr : Related R r r') :
    Related R (.or l r) (.or l' r')

namespace Related

variable {R : α → β → Prop} {S : γ → δ → Prop}

/-- Leaves that are related in two ways are related in both. -/
theorem inter {e : Expr α} {f : Expr β} {R' : α → β → Prop} {T : α → β → Prop} (h : Related R e f)
    (h' : Related R' e f) (hT : ∀ a ∈ e.leaves, ∀ b, R a b → R' a b → T a b) : Related T e f := by
  -- The two trees have one shape, so the second relation is taken apart along with the first.
  induction h with
  | constant b => exact .constant b
  | leaf hR =>
    cases h' with
    | leaf hR' => exact .leaf (hT _ (List.mem_singleton_self _) _ hR hR')
  | not _ ih =>
    cases h' with
    | not h' => exact .not (ih h' hT)
  | and _ _ ihl ihr =>
    cases h' with
    | and hl' hr' =>
      exact .and (ihl hl' fun a ha => hT a (List.mem_append_left _ ha))
        (ihr hr' fun a ha => hT a (List.mem_append_right _ ha))
  | or _ _ ihl ihr =>
    cases h' with
    | or hl' hr' =>
      exact .or (ihl hl' fun a ha => hT a (List.mem_append_left _ ha))
        (ihr hr' fun a ha => hT a (List.mem_append_right _ ha))

/-- Renaming the leaves on both sides keeps the trees alike. -/
theorem map {e : Expr α} {f : Expr β} {g : α → γ} {k : β → δ} (h : Related R e f)
    (hS : ∀ a b, R a b → S (g a) (k b)) : Related S (Expr.map g e) (Expr.map k f) := by
  induction h with
  | constant b => exact .constant b
  | leaf hR => exact .leaf (hS _ _ hR)
  | not _ ih => exact .not ih
  | and _ _ ihl ihr => exact .and ihl ihr
  | or _ _ ihl ihr => exact .or ihl ihr

/-! ## Building -/

/-- The simplifying negation keeps the trees alike. -/
theorem negate {e : Expr α} {f : Expr β} (h : Related R e f) :
    Related R (Expr.negate e) (Expr.negate f) := by
  cases h with
  | constant b => exact .constant !b
  | leaf hR => exact .not (.leaf hR)
  | not h => exact h
  | and hl hr => exact .not (.and hl hr)
  | or hl hr => exact .not (.or hl hr)

/-- The simplifying conjunction keeps the trees alike: it looks at constants, never at leaves. -/
theorem conj {l r : Expr α} {l' r' : Expr β} (hl : Related R l l') (hr : Related R r r') :
    Related R (Expr.conj l r) (Expr.conj l' r') := by
  cases hl with
  | constant b =>
    cases b with
    | false => exact .constant false
    | true => exact hr
  | _ =>
    cases hr with
    | constant b =>
      cases b with
      | false => exact .constant false
      | true => constructor <;> assumption
    | _ => exact .and (by constructor <;> assumption) (by constructor <;> assumption)

/-- The simplifying disjunction keeps the trees alike. -/
theorem disj {l r : Expr α} {l' r' : Expr β} (hl : Related R l l') (hr : Related R r r') :
    Related R (Expr.disj l r) (Expr.disj l' r') := by
  cases hl with
  | constant b =>
    cases b with
    | false => exact hr
    | true => exact .constant true
  | _ =>
    cases hr with
    | constant b =>
      cases b with
      | false => constructor <;> assumption
      | true => exact .constant true
    | _ => exact .or (by constructor <;> assumption) (by constructor <;> assumption)

/-! ## Rewriting -/

/-- **Two rewrites** that agree on related leaves agree on related expressions. -/
theorem substitute {f : α → Except Fault (Expr γ)} {g : β → Except Fault (Expr δ)} {e : Expr α}
    {e' : Expr β} (h : Related R e e') (hleaf : ∀ a b, R a b → Agree (Related S) (f a) (g b)) :
    Agree (Related S) (Expr.substitute f e) (Expr.substitute g e') := by
  induction h with
  | constant b => exact .constant b
  | leaf hR => exact hleaf _ _ hR
  | not _ ih => exact ih.bind fun _ _ h => h.negate
  | and _ _ ihl ihr => exact ihl.bind fun _ _ hl => ihr.bind fun _ _ hr => hl.conj hr
  | or _ _ ihl ihr => exact ihl.bind fun _ _ hl => ihr.bind fun _ _ hr => hl.disj hr

end Related

/-- **Equality** of expressions is that of their leaves. -/
theorem eqBy_eq_ok_true_iff {eq : α → α → Except Fault Bool} {e f : Expr α} :
    eqBy eq e f = .ok true ↔ Related (fun a b => eq a b = .ok true) e f := by
  constructor
  · intro h
    -- the operands are compared one after the other
    have hboth {x : Except Fault Bool} {y : Except Fault Bool}
        (h : (do if ← x then y else pure false) = .ok true) : x = .ok true ∧ y = .ok true := by
      obtain ⟨b, hx, hy⟩ := bind_eq_ok.mp h
      cases b with
      | false => simp at hy
      | true => exact ⟨hx, hy⟩
    induction e generalizing f with
    | constant a =>
      cases f <;> simp only [eqBy, Except.ok.injEq, decide_eq_true_eq, reduceCtorEq] at h
      exact h ▸ .constant a
    | leaf a =>
      cases f <;> simp only [eqBy, Except.ok.injEq, reduceCtorEq] at h
      exact .leaf h
    | not c ih =>
      cases f <;> simp only [eqBy, Except.ok.injEq, reduceCtorEq] at h
      exact .not (ih h)
    | and l r ihl ihr =>
      cases f <;> simp only [eqBy, Except.ok.injEq, reduceCtorEq] at h
      exact .and (ihl (hboth h).1) (ihr (hboth h).2)
    | or l r ihl ihr =>
      cases f <;> simp only [eqBy, Except.ok.injEq, reduceCtorEq] at h
      exact .or (ihl (hboth h).1) (ihr (hboth h).2)
  · intro h
    induction h with
    | constant b => simp [eqBy]
    | leaf h => exact h
    | not _ ih => exact ih
    | and _ _ ihl ihr => simp [eqBy, ihl, ihr]
    | or _ _ ihl ihr => simp [eqBy, ihl, ihr]

end Expr

end PartitionPruning
