import Mathlib.Data.List.Perm.Subperm
import PartitionPruning.Proofs.Expr.Relation
import PartitionPruning.Proofs.Literal.Forms

/-!
# Equal filters

Literals are equal if their values are, so equal filters may hold literals of different classes, which
are converted to different types. Filters that are equal and have literals of the same forms cannot be
told apart by binding them: it fails for both, or gives equal bound filters. In which order the members
of a set were given makes no difference.

* **`agree_convert_all`** — two sets with the same members have the same converted members.
* **`agree_bindTo`** — equal predicates with literals of the same forms are bound to equal ones.
* **`bind_congr`** — the same for filters.
-/

namespace PartitionPruning

open Outcome (Agree bind_eq_ok map_eq_ok)

/-! ## Sets -/

namespace Literal

/-- Whether every literal has one in another list that is related to it. -/
def Covered (R : Literal → Literal → Prop) (ls ms : List Literal) : Prop :=
  ∀ l ∈ ls, ∃ m ∈ ms, R l m

/-- Whether two literals have the same key. -/
def Equal (l m : Literal) : Prop := l.value.SameKey m.value

/-- Only literals with a key are equal to anything. -/
theorem isHashable_of_sameKey {l m : Literal} (h : l.Equal m) : l.value.isHashable = true := by
  obtain ⟨k, hk, _⟩ := h
  cases l with
  | decimal d =>
    cases d <;> simp_all [value, Value.isHashable, Decimal.isSignaling, Value.key?, Value.number?,
      Decimal.exactValue?]
  | long w | date w | time w | timestamp w => cases w <;> rfl
  | aboveMax t | belowMin t => cases t <;> rfl
  | _ => rfl

/-- Distinct literals have distinct keys, as far as others cover them. -/
theorem nodup_keys {ls ms : List Literal} (hdistinct : Distinct ls) (h : Covered Equal ls ms) :
    (ls.map fun l => l.value.key?).Nodup := by
  rw [List.Nodup, List.pairwise_map]
  refine hdistinct.imp_of_mem fun {a b} ha _ hab heq => ?_
  obtain ⟨_, _, k, hk, _⟩ := h a ha
  exact hab ⟨k, hk, heq ▸ hk⟩

/-- Literals that are covered have their keys among those that cover them. -/
theorem keys_subset {ls ms : List Literal} (h : Covered Equal ls ms) :
    (ls.map fun l => l.value.key?) ⊆ ms.map fun m => m.value.key? := by
  intro key hkey
  obtain ⟨l, hl, rfl⟩ := List.mem_map.mp hkey
  obtain ⟨m, hm, k, hlk, hmk⟩ := h l hl
  exact List.mem_map.mpr ⟨m, hm, hmk.trans hlk.symm⟩

/-- Distinct literals that are found in a list are not more than it has. -/
theorem length_le_of_covered {ls ms : List Literal} (hdistinct : Distinct ls)
    (h : Covered Equal ls ms) : ls.length ≤ ms.length := by
  simpa using (List.subperm_of_subset (nodup_keys hdistinct h) (keys_subset h)).length_le

/-- Where distinct literals are found in a list that is not longer, its literals are found among
them. -/
theorem covered_symm {ls ms : List Literal} (hdistinct : Distinct ls) (h : Covered Equal ls ms)
    (hlength : ms.length ≤ ls.length) : Covered Equal ms ls := by
  have hperm := (List.subperm_of_subset (nodup_keys hdistinct h) (keys_subset h)).perm_of_length_le
    (by simpa using hlength)
  intro m hm
  obtain ⟨l, hl, heq⟩ := List.mem_map.mp (hperm.mem_iff.mpr (List.mem_map_of_mem hm))
  obtain ⟨m', _, k, hlk, _⟩ := h l hl
  exact ⟨l, hl, k, heq ▸ hlk, hlk⟩

/-- Sets are the same if they are equally large and the members of one are members of the other. -/
theorem sameSet_iff {ls ms : List Literal} :
    sameSet ls ms = true ↔ ls.length = ms.length ∧ Covered Equal ls ms := by
  have hsame (l m : Literal) : same l m = true ↔ Equal l m :=
    Value.same_iff_key m.isScalar_value
  simp only [sameSet, Bool.and_eq_true, decide_eq_true_eq, List.all_eq_true, List.any_eq_true, hsame,
    Covered]

/-- **Two sets with the same members**, whose members have the same forms, have the same converted
members. -/
theorem agree_convert_all {ls ms : List Literal} (h : Covered Alike ls ms) (h' : Covered Alike ms ls)
    (t : DataType) :
    Agree (fun ls' ms' => Covered Equal ls' ms' ∧ Covered Equal ms' ls')
      (ls.mapM (·.convert t)) (ms.mapM (·.convert t)) := by
  -- each conversion agrees with one of the other list
  have hone {ls ms : List Literal} (h : Covered Alike ls ms) {ls' ms' : List Literal}
      (hls : ls.mapM (·.convert t) = .ok ls') (hms : ms.mapM (·.convert t) = .ok ms') :
      Covered Equal ls' ms' := by
    intro l' hl'
    obtain ⟨l, hl, hconvert⟩ := Outcome.exists_of_mem_result hls hl'
    obtain ⟨m, hm, halike⟩ := h l hl
    obtain ⟨m', hm', hconvert'⟩ := Outcome.exists_result_of_mem hms hm
    have hagree := halike.convert t
    rw [hconvert, hconvert'] at hagree
    exact ⟨m', hm', hagree.1⟩
  have hsucceeds {ls ms : List Literal} (h : Covered Alike ls ms)
      (hms : Outcome.Succeeds (ms.mapM (·.convert t))) :
      Outcome.Succeeds (ls.mapM (·.convert t)) := by
    refine Outcome.succeeds_mapM.mpr fun l hl => ?_
    obtain ⟨m, hm, halike⟩ := h l hl
    exact (halike.convert t).succeeds_iff.mpr (Outcome.succeeds_mapM.mp hms m hm)
  cases hls : ls.mapM (·.convert t) with
  | ok ls' =>
    cases hms : ms.mapM (·.convert t) with
    | ok ms' => exact ⟨hone h hls hms, hone h' hms hls⟩
    | error => exact absurd (hsucceeds h' ⟨ls', hls⟩) (by simp [hms])
  | error =>
    cases hms : ms.mapM (·.convert t) with
    | ok ms' => exact absurd (hsucceeds h ⟨ms', hms⟩) (by simp [hls])
    | error => trivial

/-- Sets that are made of the same literals have the same members. -/
theorem agree_toSet {ls ms : List Literal} (h : Covered Equal ls ms) (h' : Covered Equal ms ls) :
    Agree (fun s t => Distinct s ∧ Distinct t ∧ Covered Equal s t ∧ Covered Equal t s)
      (toSet ls) (toSet ms) := by
  -- A literal that another one is equal to has a key, so both sets are made.
  have hset {ls ms : List Literal} (h : Covered Equal ls ms) :
      toSet ls = .ok (relisted (distinct ls)) := by
    refine toSet_eq_ok.mpr ⟨fun l hl => ?_, rfl⟩
    obtain ⟨m, _, hkey⟩ := h l hl
    exact isHashable_of_sameKey hkey
  have hcovered {ls ms : List Literal} (h : Covered Equal ls ms) {s t : List Literal}
      (hs : toSet ls = .ok s) (ht : toSet ms = .ok t) : Covered Equal s t := by
    intro l hl
    obtain ⟨m, hm, hkey⟩ := h l (mem_of_mem_toSet hs hl)
    exact (sameKey_toSet ht l.value).mpr ⟨m, hm, hkey⟩
  have hls := hset h
  have hms := hset h'
  rw [hls, hms]
  exact ⟨distinct_of_toSet hls, distinct_of_toSet hms, hcovered h hls hms, hcovered h' hms hls⟩

end Literal

/-! ## Predicates -/

namespace Predicate

open Literal (Covered Distinct)

/-- Whether equal literals of two predicates have the same form. -/
def SameForms {σ τ : Type} : Predicate σ → Predicate τ → Prop
  | .compare _ _ l, .compare _ _ m => l.form = m.form
  | .member _ _ ls, .member _ _ ms => ∀ l ∈ ls, ∀ m ∈ ms, l.same m = true → l.form = m.form
  | _, _ => True

/-- Whether two bound predicates are equal. -/
def EqualBound (p q : Predicate Column) : Prop := p.eqBy Column.same q = .ok true

/-- Bound comparisons with equal literals are equal. -/
theorem equalBound_compare (op : Comparison) (c : Column) {l m : Literal} (h : l.Equal m) :
    EqualBound (.compare op c l) (.compare op c m) := by
  simp only [EqualBound, eqBy, Column.same, decide_true, Bool.and_self, if_true]
  exact Literal.eq_eq_ok_true_iff.mpr h

/-- Tests of membership in sets with the same members are equal. -/
theorem related_ofSet (op : Membership) (c : Column) {s t : List Literal}
    (hlength : s.length = t.length) (h : Covered Literal.Equal s t) :
    Expr.Related EqualBound (ofSet op c s) (ofSet op c t) := by
  match s, t with
  | [], [] => exact .constant _
  | [l], [m] =>
    obtain ⟨m', hm', hkey⟩ := h l (List.mem_singleton_self l)
    obtain rfl := List.mem_singleton.mp hm'
    exact .leaf (equalBound_compare op.single c hkey)
  | l :: l' :: ls, m :: m' :: ms =>
    refine .leaf ?_
    simp [EqualBound, eqBy, Column.same, Literal.sameSet_iff.mpr ⟨hlength, h⟩]

/-- Sets that cover each other are bound to equal sets, or fail alike. -/
theorem agree_ofSetOf (op : Membership) (c : Column) {ls ms : List Literal}
    (h : Covered Literal.Equal ls ms) (h' : Covered Literal.Equal ms ls) :
    Agree (Expr.Related EqualBound) (ofSetOf op c ls) (ofSetOf op c ms) := by
  refine (Literal.agree_toSet h h').map fun s t hst => ?_
  obtain ⟨hs, ht, hst, hts⟩ := hst
  -- the sets are listed once more
  refine related_ofSet op c ?_ fun l hl => ?_
  · rw [Literal.length_relisted, Literal.length_relisted]
    exact le_antisymm (Literal.length_le_of_covered hs hst) (Literal.length_le_of_covered ht hts)
  · obtain ⟨m, hm, hkey⟩ := hst l (Literal.mem_relisted.mp hl)
    exact ⟨m, Literal.mem_relisted.mpr hm, hkey⟩

/-- What is above a range is not equal to what is below one. -/
theorem not_equal_marks (t t' : Bounded) : ¬ (Literal.aboveMax t).Equal (.belowMin t') := by
  intro h
  have hsame : Value.same t.max t'.min = true :=
    (Value.same_iff_key (Literal.isScalar_value (.belowMin t'))).mpr h
  revert hsame
  cases t <;> cases t' <;> decide +kernel

/-- Marks that are equal decide alike. -/
theorem decided?_congr (op : Comparison) {l m : Literal} (h : l.Alike m) :
    decided? op l = decided? op m := by
  obtain ⟨hkey, hform⟩ := h
  cases l with
  | aboveMax t =>
    cases m <;> simp only [Literal.form, reduceCtorEq] at hform
    · rfl
    · exact absurd hkey (not_equal_marks _ _)
  | belowMin t =>
    cases m <;> simp only [Literal.form, reduceCtorEq] at hform
    · exact absurd hkey.symm (not_equal_marks _ _)
    · rfl
  | _ => cases m <;> first | rfl | simp [Literal.form] at hform

/-- Comparisons with literals that are alike are folded alike. -/
theorem related_bindCompare (op : Comparison) (c : Column) {l m : Literal} (h : l.Alike m) :
    Expr.Related EqualBound (bindCompare op c l) (bindCompare op c m) := by
  unfold bindCompare
  rw [decided?_congr op h]
  cases decided? op m with
  | some b => exact .constant b
  | none => exact .leaf (equalBound_compare op c h.1)

/-- **Equal predicates** with literals of the same forms are bound to equal ones. -/
theorem agree_bindTo {p q : Predicate String} (hproper : p.isProper = true)
    (heq : p.eqBy (fun s t => s = t) q = .ok true) (hforms : p.SameForms q) (c : Column) :
    Agree (Expr.Related EqualBound) (p.bindTo c) (q.bindTo c) := by
  cases p with
  | unary op name =>
    cases q <;> simp only [eqBy, Except.ok.injEq, Bool.and_eq_true, decide_eq_true_eq,
      Bool.false_eq_true] at heq
    obtain ⟨rfl, rfl⟩ := heq
    have hleaf (op : UnaryTest) : EqualBound (.unary op c) (.unary op c) := by
      simp [EqualBound, eqBy, Column.same]
    cases op <;> simp only [bindTo, bindUnary] <;> split <;>
      first | exact .constant _ | exact .leaf (hleaf _)
  | compare op name l =>
    cases q <;> simp only [eqBy, Except.ok.injEq, Bool.false_eq_true] at heq
    rename_i op' name' m
    split at heq
    · rename_i hsame
      obtain ⟨rfl, rfl⟩ : op = op' ∧ name = name' := by simpa using hsame
      have halike : l.Alike m := ⟨Literal.eq_eq_ok_true_iff.mp heq, hforms⟩
      exact (halike.convert c.field.type).map fun _ _ => related_bindCompare op c
    · simp at heq
  | member op name ls =>
    cases q <;> simp only [eqBy, Except.ok.injEq, Bool.and_eq_true, decide_eq_true_eq,
      Bool.false_eq_true] at heq
    rename_i op' name' ms
    obtain ⟨⟨rfl, rfl⟩, hsame⟩ := heq
    have hdistinct : Distinct ls := by
      simp only [isProper, Bool.and_eq_true, decide_eq_true_eq] at hproper
      exact hproper.2 ▸ Literal.distinct_foldl [] List.Pairwise.nil
    -- no member of a set occurs twice, so sets of one size with common members cover each other
    obtain ⟨hlength, hcovered⟩ := Literal.sameSet_iff.mp hsame
    have hback := Literal.covered_symm hdistinct hcovered hlength.ge
    have hform l (hl : l ∈ ls) m (hm : m ∈ ms) (hkey : l.Equal m) : l.form = m.form :=
      hforms l hl m hm ((Value.same_iff_key m.isScalar_value).mpr hkey)
    refine (Literal.agree_convert_all (fun l hl => ?_) (fun m hm => ?_) c.field.type).bind
      fun _ _ h => agree_ofSetOf op c h.1 h.2
    · obtain ⟨m, hm, hkey⟩ := hcovered l hl
      exact ⟨m, hm, hkey, hform l hl m hm hkey⟩
    · obtain ⟨l, hl, hkey⟩ := hback m hm
      exact ⟨l, hl, hkey, (hform l hl m hm hkey.symm).symm⟩

/-- Equal predicates are about the same column. -/
theorem term_eq_of_eqBy {p q : Predicate String} (h : p.eqBy (fun s t => s = t) q = .ok true) :
    p.term = q.term := by
  cases p <;> cases q <;>
    simp only [eqBy, Except.ok.injEq, Bool.and_eq_true, decide_eq_true_eq, Bool.false_eq_true] at h
  · exact h.2
  · split at h
    · rename_i hsame
      exact hsame.2
    · simp at h
  · exact h.1.2

/-- Equal predicates with literals of the same forms bind to equal expressions, or fail alike. -/
theorem agree_bind {p q : Predicate String} (hproper : p.isProper = true)
    (heq : p.eqBy (fun s t => s = t) q = .ok true) (hforms : p.SameForms q) (s : Schema)
    (caseSensitive : Bool) :
    Agree (Expr.Related EqualBound) (p.bind s caseSensitive) (q.bind s caseSensitive) := by
  unfold bind
  rw [term_eq_of_eqBy heq]
  cases s.column caseSensitive q.term with
  | error => trivial
  | ok c => exact agree_bindTo hproper heq hforms c

end Predicate

/-! ## Filters -/

/-- Whether equal literals of two predicates that name their columns have the same form. -/
def Leaf.SameForms : Leaf → Leaf → Prop
  | .unbound p, .unbound q => p.SameForms q
  | _, _ => True

namespace Filter

variable {schema : Schema} {caseSensitive : Bool} {f g : Filter}

/-- So do equal leaves. -/
theorem agree_bindLeaf {a b : Leaf} (hproper : a.isProper = true) (heq : a.eq b = .ok true)
    (hforms : a.SameForms b) :
    Agree (Expr.Related fun a b => Leaf.eq a b = .ok true) (bindLeaf schema caseSensitive a)
      (bindLeaf schema caseSensitive b) := by
  cases a with
  | bound p =>
    cases b with
    | bound q => trivial
    | unbound q => simp [Leaf.eq] at heq
  | unbound p =>
    cases b with
    | bound q => simp [Leaf.eq] at heq
    | unbound q =>
      exact (Predicate.agree_bind hproper heq hforms schema caseSensitive).map
        fun _ _ h => h.map fun _ _ => id

/-- **Equal filters** with literals of the same forms behave the same: for every schema, binding fails
for both, or gives equal bound filters. -/
theorem bind_congr (hproper : ∀ a ∈ f.leaves, a.isProper = true) (heq : f.eq g = .ok true)
    (hforms : Expr.Related Leaf.SameForms f g) :
    Agree (fun b c => Filter.eq b c = .ok true) (f.bind schema caseSensitive)
      (g.bind schema caseSensitive) := by
  have hrelated := (Expr.eqBy_eq_ok_true_iff.mp heq).inter hforms
    (T := fun a b => a.isProper = true ∧ a.eq b = .ok true ∧ a.SameForms b)
    fun a ha b heq hforms => ⟨hproper a ha, heq, hforms⟩
  have hagree := hrelated.substitute (f := bindLeaf schema caseSensitive)
    (g := bindLeaf schema caseSensitive) fun a b h => agree_bindLeaf h.1 h.2.1 h.2.2
  exact hagree.mono fun _ _ => Expr.eqBy_eq_ok_true_iff.mpr

/-- Two orders of the same literals. -/
theorem bind_congr_reversed :
    let schema := Schema.ofFields [⟨1, "c", .primitive .date, false, none⟩]
    let ls : List Literal := [.string "2024-01-01", .long (.number 5)]
    let f : Filter := .leaf (.unbound (.member .isIn "c" ls))
    let g : Filter := .leaf (.unbound (.member .isIn "c" ls.reverse))
    (∀ a ∈ f.leaves, a.isProper = true) ∧ f.eq g = .ok true ∧ Expr.Related Leaf.SameForms f g ∧
      Agree (fun b c => Filter.eq b c = .ok true) (f.bind schema true) (g.bind schema true) := by
  intro schema ls f g
  have hproper : ∀ a ∈ f.leaves, a.isProper = true := by
    intro a ha
    obtain rfl := List.mem_singleton.mp ha
    decide +kernel
  have heq : f.eq g = .ok true := by decide +kernel
  have hforms : Expr.Related Leaf.SameForms f g := by
    -- Only a literal and itself have the same key here.
    refine .leaf fun l hl m hm hsame => ?_
    rcases List.mem_pair.mp hl with rfl | rfl <;> rcases List.mem_pair.mp hm with rfl | rfl <;>
      first | rfl | exact absurd hsame (by decide +kernel)
  exact ⟨hproper, heq, hforms, bind_congr hproper heq hforms⟩

/-- **Equal literals of two classes.** The truth value true is the integer one, but only the integer can
be compared with a column of integers. -/
theorem bind_of_equal_literals :
    let schema := Schema.ofFields [⟨1, "c", .primitive .int, false, none⟩]
    let f := ofPredicate (.compare .equal "c" (.boolean true))
    let g := ofPredicate (.compare .equal "c" (.long (.number 1)))
    f.eq g = .ok true ∧ ¬ Outcome.Succeeds (f.bind schema true) ∧
      Outcome.Succeeds (g.bind schema true) := by
  intro schema f g
  have hf : f.bind schema true = .error (.noConversion "BooleanLiteral" (.primitive .int)) := rfl
  exact ⟨rfl, by simp [hf], ⟨_, rfl⟩⟩

end Filter

end PartitionPruning
