import Mathlib.Data.List.Forall2
import PartitionPruning.Fault

/-!
# Outcomes of computations that may fail

What the steps of a computation gave, when the whole of it gave a result. These equivalences take a
`do` block apart, so that no proof unfolds the monad itself.
-/

namespace PartitionPruning

namespace Outcome

variable {α β : Type}

/-- **The two steps of a sequence.** The first gave a result and the second one went on from it. -/
theorem bind_eq_ok {x : Except Fault α} {f : α → Except Fault β} {b : β} :
    (x >>= f) = .ok b ↔ ∃ a, x = .ok a ∧ f a = .ok b := by
  cases x with
  | error fault => simp [bind, Except.bind]
  | ok a => simp [bind, Except.bind]

theorem map_eq_ok {x : Except Fault α} {f : α → β} {b : β} :
    x.map f = .ok b ↔ ∃ a, x = .ok a ∧ f a = b := by
  cases x with
  | error fault => simp [Except.map]
  | ok a => simp [Except.map]

@[simp] theorem pure_eq_ok {a b : α} : (pure a : Except Fault α) = .ok b ↔ a = b := by
  simp [pure, Except.pure]

@[simp] theorem ok_bind (a : α) (f : α → Except Fault β) : (Except.ok a >>= f) = f a := rfl

theorem error_bind (fault : Fault) (f : α → Except Fault β) :
    (Except.error fault >>= f) = .error fault := rfl

@[simp] theorem map_ok (a : α) (f : α → β) : (Except.ok a : Except Fault α).map f = .ok (f a) := rfl

/-- **The steps over a list.** Each element gave the result at the same place. -/
theorem mapM_eq_ok {f : α → Except Fault β} {xs : List α} {ys : List β} :
    xs.mapM f = .ok ys ↔ List.Forall₂ (fun x y => f x = .ok y) xs ys := by
  induction xs generalizing ys with
  | nil => cases ys <;> simp [pure, Except.pure]
  | cons x xs ih =>
    rw [List.mapM_cons, bind_eq_ok]
    constructor
    · rintro ⟨y, hy, h⟩
      obtain ⟨rest, hrest, h⟩ := bind_eq_ok.mp h
      obtain rfl : y :: rest = ys := by simpa using h
      exact .cons hy (ih.mp hrest)
    · rintro (_ | ⟨hy, hrest⟩)
      exact ⟨_, hy, bind_eq_ok.mpr ⟨_, ih.mpr hrest, by simp⟩⟩

theorem mapM_of_ok {f : α → Except Fault β} {g : α → β} {xs : List α}
    (h : ∀ x ∈ xs, f x = .ok (g x)) : xs.mapM f = .ok (xs.map g) := by
  rw [mapM_eq_ok, List.forall₂_map_right_iff, List.forall₂_same]
  exact h

/-- In lists that are related one by one, each element of the first one has a partner. -/
theorem exists_mem_of_forall₂ {R : α → β → Prop} {xs : List α} {ys : List β}
    (h : List.Forall₂ R xs ys) {x : α} (hx : x ∈ xs) : ∃ y ∈ ys, R x y := by
  induction h with
  | nil => simp at hx
  | cons hR _ ih =>
    rcases List.mem_cons.mp hx with rfl | hx
    · exact ⟨_, List.mem_cons_self .., hR⟩
    · obtain ⟨y, hy, hxy⟩ := ih hx
      exact ⟨y, List.mem_cons_of_mem _ hy, hxy⟩

/-- Each result over a list belongs to an element. -/
theorem exists_of_mem_result {f : α → Except Fault β} {xs : List α} {ys : List β}
    (h : xs.mapM f = .ok ys) {y : β} (hy : y ∈ ys) : ∃ x ∈ xs, f x = .ok y :=
  have hflip : List.Forall₂ (fun y x => f x = .ok y) ys xs := (mapM_eq_ok.mp h).flip
  exists_mem_of_forall₂ hflip hy

/-- Each element of a list has its result. -/
theorem exists_result_of_mem {f : α → Except Fault β} {xs : List α} {ys : List β}
    (h : xs.mapM f = .ok ys) {x : α} (hx : x ∈ xs) : ∃ y ∈ ys, f x = .ok y :=
  exists_mem_of_forall₂ (mapM_eq_ok.mp h) hx

/-- The result at a position belongs to the element there. -/
theorem getElem?_of_mapM {f : α → Except Fault β} {xs : List α} {ys : List β}
    (h : xs.mapM f = .ok ys) {i : Nat} {x : α} (hx : xs[i]? = some x) :
    ∃ y, ys[i]? = some y ∧ f x = .ok y := by
  induction mapM_eq_ok.mp h generalizing i with
  | nil => simp at hx
  | cons hxy hrest ih =>
    cases i with
    | zero =>
      obtain rfl := by simpa using hx
      exact ⟨_, rfl, hxy⟩
    | succ i => exact ih (mapM_eq_ok.mpr hrest) hx

/-- What the results have in common with the elements. -/
theorem map_eq_of_mapM {γ : Type} {f : α → Except Fault β} {xs : List α} {ys : List β}
    {g : α → γ} {k : β → γ} (h : xs.mapM f = .ok ys) (hk : ∀ x y, f x = .ok y → k y = g x) :
    ys.map k = xs.map g := by
  induction mapM_eq_ok.mp h with
  | nil => rfl
  | cons hxy hrest ih => rw [List.map_cons, List.map_cons, hk _ _ hxy, ih (mapM_eq_ok.mpr hrest)]

/-- Steps that change nothing give the list back. -/
theorem eq_of_mapM {f : α → Except Fault α} {xs ys : List α} (h : xs.mapM f = .ok ys)
    (hf : ∀ x ∈ xs, ∀ y, f x = .ok y → y = x) : ys = xs := by
  induction mapM_eq_ok.mp h with
  | nil => rfl
  | cons hxy hrest ih =>
    rw [hf _ (List.mem_cons_self ..) _ hxy,
      ih (mapM_eq_ok.mpr hrest) fun x hx => hf x (List.mem_cons_of_mem _ hx)]

/-- A list of steps gives a result if each of them does. -/
theorem exists_mapM {f : α → Except Fault β} {xs : List α} (h : ∀ x ∈ xs, ∃ y, f x = .ok y) :
    ∃ ys, xs.mapM f = .ok ys := by
  induction xs with
  | nil => exact ⟨[], by simp⟩
  | cons x xs ih =>
    obtain ⟨y, hy⟩ := h x (List.mem_cons_self ..)
    obtain ⟨ys, hys⟩ := ih fun a ha => h a (List.mem_cons_of_mem _ ha)
    exact ⟨y :: ys, mapM_eq_ok.mpr (.cons hy (mapM_eq_ok.mp hys))⟩

/-! ## Success -/

/-- Whether a computation gives a result. -/
def Succeeds (x : Except Fault α) : Prop := ∃ a, x = .ok a

@[simp] theorem succeeds_ok (a : α) : Succeeds (.ok a : Except Fault α) := ⟨a, rfl⟩

@[simp] theorem not_succeeds_error (fault : Fault) : ¬ Succeeds (.error fault : Except Fault α) := by
  rintro ⟨a, ha⟩
  simp at ha

theorem succeeds_bind {x : Except Fault α} {f : α → Except Fault β} :
    Succeeds (x >>= f) ↔ ∃ a, x = .ok a ∧ Succeeds (f a) := by
  cases x with
  | error fault => simp [bind, Except.bind]
  | ok a => simp

@[simp] theorem succeeds_map {x : Except Fault α} {f : α → β} :
    Succeeds (x.map f) ↔ Succeeds x := by
  cases x with
  | error fault => simp [Except.map]
  | ok a => simp

/-- **The steps over a list** succeed together. -/
theorem succeeds_mapM {f : α → Except Fault β} {xs : List α} :
    Succeeds (xs.mapM f) ↔ ∀ x ∈ xs, Succeeds (f x) := by
  constructor
  · rintro ⟨ys, hys⟩ x hx
    obtain ⟨y, _, hy⟩ := exists_result_of_mem hys hx
    exact ⟨y, hy⟩
  · exact exists_mapM

/-! ## Agreement -/

/-- Whether two computations fail both or give results that are related. -/
def Agree (R : α → β → Prop) : Except Fault α → Except Fault β → Prop
  | .ok a, .ok b => R a b
  | .error _, .error _ => True
  | _, _ => False

theorem Agree.succeeds_iff {R : α → β → Prop} {x : Except Fault α} {y : Except Fault β}
    (h : Agree R x y) : Succeeds x ↔ Succeeds y := by
  cases x <;> cases y <;> simp_all [Agree]

theorem Agree.mono {R S : α → β → Prop} {x : Except Fault α} {y : Except Fault β}
    (h : Agree R x y) (hRS : ∀ a b, R a b → S a b) : Agree S x y := by
  cases x <;> cases y <;> simp_all [Agree]

theorem Agree.symm {R : α → β → Prop} {S : β → α → Prop} {x : Except Fault α} {y : Except Fault β}
    (h : Agree R x y) (hRS : ∀ a b, R a b → S b a) : Agree S y x := by
  cases x <;> cases y <;> simp_all [Agree]

theorem Agree.trans {γ : Type} {R : α → β → Prop} {S : β → γ → Prop} {T : α → γ → Prop}
    {x : Except Fault α} {y : Except Fault β} {z : Except Fault γ} (h : Agree R x y)
    (h' : Agree S y z) (hRS : ∀ a b c, R a b → S b c → T a c) : Agree T x z := by
  cases x <;> cases y <;> cases z <;> simp_all [Agree]
  exact hRS _ _ _ h h'

/-- **Two sequences** agree if their first steps do, and their second steps on related results. -/
theorem Agree.bind {γ δ : Type} {R : α → β → Prop} {S : γ → δ → Prop} {x : Except Fault α}
    {y : Except Fault β} {f : α → Except Fault γ} {g : β → Except Fault δ} (h : Agree R x y)
    (hsteps : ∀ a b, R a b → Agree S (f a) (g b)) : Agree S (x >>= f) (y >>= g) := by
  cases x with
  | error =>
    cases y with
    | error => trivial
    | ok b => exact h.elim
  | ok a =>
    cases y with
    | error => exact h.elim
    | ok b => exact hsteps a b h

theorem Agree.map {γ δ : Type} {R : α → β → Prop} {S : γ → δ → Prop} {x : Except Fault α}
    {y : Except Fault β} {f : α → γ} {g : β → δ} (h : Agree R x y)
    (hresults : ∀ a b, R a b → S (f a) (g b)) : Agree S (x.map f) (y.map g) := by
  cases x with
  | error =>
    cases y with
    | error => trivial
    | ok b => exact h.elim
  | ok a =>
    cases y with
    | error => exact h.elim
    | ok b => exact hresults a b h

end Outcome

end PartitionPruning
