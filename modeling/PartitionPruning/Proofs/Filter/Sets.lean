import PartitionPruning.Proofs.Filter.Binding
import PartitionPruning.Proofs.Value.Comparison

/-!
# Sets of literals

A set predicate makes a set of its literals more than once: when it is built, when it is bound, and
again when it is projected. Each time repetitions are dropped and the rest is listed in another order.
Nothing of this changes which keys the literals have, so a test of membership asks for the key of the
value among those of the literals that it was built from, whatever it was folded to.

* **`exists_key_of_toSet`** — a set has the keys of the list that it is made of.
* **`distinct_of_toSet`** — a set has distinct literals, and one of distinct literals has all of them.
* **`evaluate_ofSet`**, **`evaluate_ofSetOf`** — the outcome of a bound test of membership.
-/

namespace PartitionPruning

open Outcome (map_eq_ok)

namespace Literal

/-- Each literal keeps a representative of its key in the fold behind `distinct`. -/
theorem exists_key_of_foldl (kept : List Literal) {ls : List Literal} {l : Literal}
    (h : l ∈ kept ∨ l ∈ ls) :
    ∃ k ∈ ls.foldl (fun kept l => if kept.any (same l) then kept else kept ++ [l]) kept,
      k.value.key? = l.value.key? := by
  induction ls generalizing kept l with
  | nil =>
    rcases h with h | h
    · exact ⟨l, h, rfl⟩
    · exact absurd h List.not_mem_nil
  | cons m rest ih =>
    rw [List.foldl_cons]
    -- the next literal is dropped or kept
    by_cases hany : kept.any (same m) = true
    · rw [if_pos hany]
      rcases h with h | h
      · exact ih _ (Or.inl h)
      · rcases List.mem_cons.mp h with rfl | h
        · -- the literal is dropped for one with the same key that came before it
          obtain ⟨k, hk, hsame⟩ := List.any_eq_true.mp hany
          obtain ⟨key, hl, hkey⟩ := (Value.same_iff_key k.isScalar_value).mp hsame
          obtain ⟨k', hk', heq⟩ := ih _ (l := k) (Or.inl hk)
          exact ⟨k', hk', heq.trans (hkey.trans hl.symm)⟩
        · exact ih _ (Or.inr h)
    · rw [if_neg hany]
      rcases h with h | h
      · exact ih _ (Or.inl (List.mem_append_left _ h))
      · rcases List.mem_cons.mp h with rfl | h
        · exact ih _ (Or.inl (List.mem_append_right _ (List.mem_singleton.mpr rfl)))
        · exact ih _ (Or.inr h)

/-- A set is made of literals that all have a key, the repeats dropped and the rest listed as the hash
table does. -/
theorem toSet_eq_ok {ls set : List Literal} :
    toSet ls = .ok set ↔
      (∀ l ∈ ls, l.value.isHashable = true) ∧ set = relisted (distinct ls) := by
  unfold toSet
  split
  · rename_i h
    rw [List.all_eq_true] at h
    simp only [Except.ok.injEq]
    exact ⟨fun hset => ⟨h, hset.symm⟩, fun hset => hset.2.symm⟩
  · rename_i h
    rw [List.all_eq_true] at h
    simp [h]

/-- **Making a set** loses no key. -/
theorem exists_key_of_toSet {ls set : List Literal} (h : toSet ls = .ok set) {l : Literal}
    (hl : l ∈ ls) : ∃ k ∈ set, k.value.key? = l.value.key? := by
  obtain ⟨_, rfl⟩ := toSet_eq_ok.mp h
  obtain ⟨k, hk, heq⟩ := exists_key_of_foldl [] (Or.inr hl)
  exact ⟨k, mem_relisted.mpr hk, heq⟩

/-- A set has the keys of the list that it is made of. -/
theorem sameKey_toSet {ls set : List Literal} (h : toSet ls = .ok set) (v : Value) :
    (∃ k ∈ set, v.SameKey k.value) ↔ ∃ l ∈ ls, v.SameKey l.value := by
  constructor
  · rintro ⟨k, hk, hkey⟩
    exact ⟨k, mem_of_mem_toSet h hk, hkey⟩
  · rintro ⟨l, hl, hkey⟩
    obtain ⟨k, hk, heq⟩ := exists_key_of_toSet h hl
    exact ⟨k, hk, ((Value.SameKey.congr heq).mpr hkey.symm).symm⟩

/-! ## Distinct literals -/

/-- Whether no two literals of a list have one key. -/
def Distinct (ls : List Literal) : Prop := ls.Pairwise fun l m => ¬ l.value.SameKey m.value

/-- Distinctness does not depend on the order. -/
theorem Distinct.perm {ls ms : List Literal} (h : Distinct ls) (hperm : ls.Perm ms) :
    Distinct ms :=
  (hperm.pairwise_iff fun hkey hsame => hkey hsame.symm).mp h

/-- Distinctness depends on the keys only. -/
theorem Distinct.of_keys {ls ms : List Literal} (h : Distinct ls)
    (hkeys : (ms.map fun l => l.value.key?) = ls.map fun l => l.value.key?) : Distinct ms := by
  have hpairwise (ns : List Literal) : Distinct ns ↔
      (ns.map fun l => l.value.key?).Pairwise fun a b => ¬ ∃ k, a = some k ∧ b = some k := by
    rw [List.pairwise_map]
    rfl
  rw [hpairwise, hkeys, ← hpairwise]
  exact h

/-- The fold behind `distinct` keeps literals apart. -/
theorem distinct_foldl (kept : List Literal) {ls : List Literal} (h : Distinct kept) :
    Distinct (ls.foldl (fun kept l => if kept.any (same l) then kept else kept ++ [l]) kept) := by
  induction ls generalizing kept with
  | nil => exact h
  | cons l rest ih =>
    rw [List.foldl_cons]
    by_cases hany : kept.any (same l) = true
    · rw [if_pos hany]
      exact ih kept h
    · rw [if_neg hany]
      refine ih _ (List.pairwise_append.mpr ⟨h, List.pairwise_singleton _ _, fun k hk m hm => ?_⟩)
      obtain rfl := List.mem_singleton.mp hm
      intro hsame
      exact hany (List.any_eq_true.mpr
        ⟨k, hk, (Value.same_iff_key k.isScalar_value).mpr hsame.symm⟩)

/-- **Sets** have distinct literals. -/
theorem distinct_of_toSet {ls set : List Literal} (h : toSet ls = .ok set) : Distinct set := by
  obtain ⟨_, rfl⟩ := toSet_eq_ok.mp h
  exact (distinct_foldl [] List.Pairwise.nil).perm (relisted_perm _).symm

/-- Literals that are distinct are kept by the fold behind `distinct`. -/
theorem foldl_of_distinct (kept : List Literal) {ls : List Literal} (h : Distinct (kept ++ ls)) :
    ls.foldl (fun kept l => if kept.any (same l) then kept else kept ++ [l]) kept = kept ++ ls := by
  induction ls generalizing kept with
  | nil => simp
  | cons l rest ih =>
    -- one that was kept before would have the key of the next one
    have hfresh : ¬ kept.any (same l) = true := by
      intro hany
      obtain ⟨k, hk, hsame⟩ := List.any_eq_true.mp hany
      have hkey := (Value.same_iff_key k.isScalar_value).mp hsame
      exact (List.pairwise_append.mp h).2.2 k hk l (List.mem_cons_self ..) hkey.symm
    rw [List.foldl_cons, if_neg hfresh, ih (kept ++ [l]) (by simpa using h)]
    simp

/-- A set of distinct literals has all of them. -/
theorem mem_toSet_of_distinct {ls set : List Literal} (hdistinct : Distinct ls)
    (h : toSet ls = .ok set) {l : Literal} (hl : l ∈ ls) : l ∈ set := by
  obtain ⟨_, rfl⟩ := toSet_eq_ok.mp h
  rw [mem_relisted, distinct, foldl_of_distinct [] (by simpa using hdistinct)]
  simpa using hl

end Literal

/-! ## Tests of membership -/

namespace Predicate

/-- **A bound test of membership.** It is a constant, a comparison or a predicate on a set, and in
each form it tells whether the value has the key of a literal. -/
theorem evaluate_ofSet {op : Membership} {c : Column} {v : Value} {ls : List Literal} {t : Bool}
    (h : Expr.evaluate (fun q => q.test v) (ofSet op c ls) = .ok t) :
    ∃ b, t = op.outcome b ∧ (b = true ↔ ∃ l ∈ ls, v.SameKey l.value) := by
  match ls, h with
  | [], h =>
    obtain rfl : op.empty = t := by simpa [ofSet, Expr.evaluate] using h
    exact ⟨false, by cases op <;> rfl, by simp⟩
  | [l], h =>
    obtain ⟨b, rfl, hiff⟩ := testCompare_single_eq_ok h
    exact ⟨b, rfl, by simpa using hiff⟩
  | l :: m :: rest, h => exact testMember_eq_ok h

/-- A bound test of membership among literals of which a set is made first. -/
theorem evaluate_ofSetOf {op : Membership} {c : Column} {v : Value} {ls : List Literal}
    {e : Expr (Predicate Column)} {t : Bool} (he : ofSetOf op c ls = .ok e)
    (h : Expr.evaluate (fun q => q.test v) e = .ok t) :
    ∃ b, t = op.outcome b ∧ (b = true ↔ ∃ l ∈ ls, v.SameKey l.value) := by
  obtain ⟨set, hset, rfl⟩ := map_eq_ok.mp he
  obtain ⟨b, rfl, hiff⟩ := evaluate_ofSet h
  refine ⟨b, rfl, hiff.trans (Iff.trans ?_ (Literal.sameKey_toSet hset v))⟩
  simp only [Literal.mem_relisted]

/-- **The forms of a bound predicate.** It is a constant, a test of the value on its own, a comparison,
or a test of membership in a set of distinct literals. -/
theorem bindTo_cases {c : Column} {p : Predicate String} {e : Expr (Predicate Column)}
    (h : p.bindTo c = .ok e) :
    (∃ b, e = .constant b) ∨ (∃ op, e = .leaf (.unary op c)) ∨
      (∃ op l, e = .leaf (.compare op c l)) ∨
      ∃ op ls, Literal.Distinct ls ∧ e = ofSet op c ls := by
  cases p with
  | unary op name =>
    obtain rfl : bindUnary op c = e := Except.ok.inj h
    cases op <;> simp only [bindUnary] <;> split <;>
      first
        | exact Or.inl ⟨_, rfl⟩
        | exact Or.inr (Or.inl ⟨_, rfl⟩)
  | compare op name l =>
    obtain ⟨l', _, rfl⟩ := map_eq_ok.mp h
    unfold bindCompare
    split
    · exact Or.inl ⟨_, rfl⟩
    · exact Or.inr (Or.inr (Or.inl ⟨op, l', rfl⟩))
  | member op name ls =>
    obtain ⟨ls', _, hmember⟩ := Outcome.bind_eq_ok.mp h
    obtain ⟨set, hset, rfl⟩ := map_eq_ok.mp hmember
    -- the set that is made again has the literals of the first one
    have hdistinct : Literal.Distinct (Literal.relisted set) :=
      (Literal.distinct_of_toSet hset).perm (Literal.relisted_perm set).symm
    exact Or.inr (Or.inr (Or.inr ⟨op, _, hdistinct, rfl⟩))

/-- The literals of a bound predicate are distinct. -/
theorem distinct_of_bindTo {c : Column} {p : Predicate String} {q : Predicate Column}
    (h : p.bindTo c = .ok (.leaf q)) : Literal.Distinct q.literals := by
  rcases bindTo_cases h with ⟨b, hb⟩ | ⟨op, hop⟩ | ⟨op, l, hl⟩ | ⟨op, ls, hdistinct, hls⟩
  · simp at hb
  · rw [Expr.leaf.inj hop]
    exact List.Pairwise.nil
  · rw [Expr.leaf.inj hl]
    exact List.pairwise_singleton _ _
  · rcases ofSet_cases op c ls with hempty | ⟨q', hq', _, hlits⟩
    · simp [hempty] at hls
    · rw [Expr.leaf.inj (hls.trans hq'), hlits]
      exact hdistinct

end Predicate

end PartitionPruning
