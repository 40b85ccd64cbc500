import PartitionPruning.Proofs.Expr.Substitution
import PartitionPruning.Proofs.Filter.Binding
import PartitionPruning.Residual

/-!
# Residuals of bound filters

A filter may be bound before its residuals are found, or its residuals may be bound afterwards. Both
ways give the same: at each predicate they decide alike, and folding constants in between changes
nothing (`Expr.substitute_substitute`).

* **`residualOfLeaf_commutes`** — the two ways meet at a predicate.
* **`bind_residual_of_filter`** — they meet for a whole filter and one evaluator.
* **`residual_bind_comm`** — they meet for the evaluators that are made of the filter and of its bound
  form.
-/

namespace PartitionPruning

namespace ResidualEvaluator

open Outcome (bind_eq_ok map_eq_ok)

/-! ## Evaluators that differ in their filter only -/

/-- The evaluator of another filter. -/
def withFilter (r : ResidualEvaluator) (f : Filter) : ResidualEvaluator := { r with filter := f }

theorem anyTrue_withFilter (r : ResidualEvaluator) (f : Filter) (d : Value)
    (projections : List (Expr (Predicate String))) :
    (r.withFilter f).anyTrue d projections = r.anyTrue d projections := by
  induction projections with
  | nil => rfl
  | cons projection rest ih => simp only [anyTrue, ih]; rfl

theorem ruledOut_withFilter (r : ResidualEvaluator) (f : Filter) (d : Value) (p : Predicate Column)
    (fields : List PartitionField) :
    (r.withFilter f).ruledOut d p fields = r.ruledOut d p fields := by
  induction fields with
  | nil => rfl
  | cons g rest ih => simp only [ruledOut, ih]; rfl

/-- What a partition decides about a predicate does not depend on the filter around it. -/
theorem decide?_withFilter (r : ResidualEvaluator) (f : Filter) (d : Value) (p : Predicate Column) :
    (r.withFilter f).decide? d p = r.decide? d p := by
  simp only [decide?, anyTrue_withFilter, ruledOut_withFilter]
  rfl

theorem residualOfLeaf_withFilter (r : ResidualEvaluator) (f : Filter) (d : Value) :
    (r.withFilter f).residualOfLeaf d = r.residualOfLeaf d := by
  funext l
  cases l with
  | bound p => simp only [residualOfLeaf, decide?_withFilter]
  | unbound p =>
    have hbound : (r.withFilter f).residualOfBound d (.unbound p) =
        r.residualOfBound d (.unbound p) := by
      funext e
      cases e with
      | leaf q => simp only [residualOfBound, decide?_withFilter]
      | _ => rfl
    simp only [residualOfLeaf, hbound]
    rfl

/-- The evaluators that are made of two filters differ in the filter only, and the spec decides
whether there is one. -/
theorem make_withFilter {spec : PartitionSpec} {f g : Filter} {caseSensitive : Bool}
    {schema : Schema} {r : ResidualEvaluator} (h : make spec f caseSensitive schema = .ok r) :
    make spec g caseSensitive schema = .ok (r.withFilter g) := by
  unfold make at h ⊢
  split at h
  · rename_i hun
    obtain rfl := by simpa using h
    simp [hun, withFilter]
  · rename_i hpart
    obtain ⟨fields, hfields, h⟩ := bind_eq_ok.mp h
    obtain rfl := by simpa using h
    simp [hpart, hfields, withFilter]

/-- An evaluator of a partitioned spec keeps what it was made of. -/
theorem make_inv {spec : PartitionSpec} {f : Filter} {caseSensitive : Bool} {schema : Schema}
    {r : ResidualEvaluator} (hpart : spec.isUnpartitioned = false)
    (h : make spec f caseSensitive schema = .ok r) :
    ∃ fields, spec.resultFields schema = .ok fields ∧
      r = ⟨schema, spec, f, caseSensitive, Schema.ofFields fields⟩ := by
  simp only [make, hpart, Bool.false_eq_true, if_false] at h
  obtain ⟨fields, hfields, h⟩ := bind_eq_ok.mp h
  exact ⟨fields, hfields, (Outcome.pure_eq_ok.mp h).symm⟩

theorem make_keeps {spec : PartitionSpec} {f : Filter} {caseSensitive : Bool} {schema : Schema}
    {r : ResidualEvaluator} (hpart : spec.isUnpartitioned = false)
    (h : make spec f caseSensitive schema = .ok r) :
    r.schema = schema ∧ r.spec = spec ∧ r.filter = f ∧ r.caseSensitive = caseSensitive := by
  obtain ⟨_, _, rfl⟩ := make_inv hpart h
  exact ⟨rfl, rfl, rfl, rfl⟩

/-! ## A predicate -/

/-- **What is left of a predicate** is a constant or the predicate itself. -/
theorem residualOfLeaf_inv {r : ResidualEvaluator} {d : Value} {l : Leaf} {e : Filter}
    (h : r.residualOfLeaf d l = .ok e) : (∃ b, e = .constant b) ∨ e = .leaf l := by
  have hdecided (o : Option Bool) : (∃ b, decided l o = .constant b) ∨ decided l o = .leaf l := by
    cases o with
    | some b => exact Or.inl ⟨b, rfl⟩
    | none => exact Or.inr rfl
  cases l with
  | bound p =>
    obtain ⟨o, _, rfl⟩ := map_eq_ok.mp h
    exact hdecided o
  | unbound p =>
    obtain ⟨b, hb, h⟩ := bind_eq_ok.mp h
    rcases Predicate.bind_inv hb with ⟨c, rfl⟩ | ⟨q, rfl, _⟩
    · exact Or.inl ⟨c, (Except.ok.inj h).symm⟩
    · obtain ⟨o, _, rfl⟩ := map_eq_ok.mp h
      exact hdecided o

theorem residualOfLeaf_isNormal {r : ResidualEvaluator} {d : Value} {l : Leaf} {e : Filter}
    (h : r.residualOfLeaf d l = .ok e) : e.isNormal = true := by
  rcases residualOfLeaf_inv h with ⟨b, rfl⟩ | rfl <;> rfl

/-- **The two ways meet at a predicate.** If an unbound predicate leaves `x`, then it can be bound,
and binding `x` gives what the bound form leaves. -/
theorem residualOfLeaf_commutes {r : ResidualEvaluator} {d : Value} {p : Predicate String}
    {x : Filter} (h : r.residualOfLeaf d (.unbound p) = .ok x) :
    ∃ b y, Filter.bindLeaf r.schema r.caseSensitive (.unbound p) = .ok b ∧
      Expr.substitute (r.residualOfLeaf d) b = .ok y ∧
      Expr.substitute (Filter.bindLeaf r.schema r.caseSensitive) x = .ok y := by
  obtain ⟨e, he, h⟩ := bind_eq_ok.mp h
  have hbind : Filter.bindLeaf r.schema r.caseSensitive (.unbound p) = .ok (e.map .bound) := by
    simp [Filter.bindLeaf, he]
  refine ⟨e.map .bound, ?_⟩
  rcases Predicate.bind_inv he with ⟨c, rfl⟩ | ⟨q, rfl, _⟩
  · -- the schema alone decides: both ways keep the constant
    obtain rfl : Expr.constant c = x := by simpa [residualOfBound, Expr.map] using h
    exact ⟨.constant c, hbind, rfl, rfl⟩
  · obtain ⟨o, ho, rfl⟩ := map_eq_ok.mp h
    refine ⟨decided (.bound q) o, hbind, ?_, ?_⟩
    · simp [Expr.map, Expr.substitute, residualOfLeaf, ho]
    · cases o with
      | some b => rfl
      | none => simpa [decided, Expr.substitute, Expr.map] using hbind

/-! ## A filter -/

/-- **The two ways meet for a filter.** Both are rewrites of the same tree that agree at each leaf. -/
theorem bind_residual_of_filter {r : ResidualEvaluator} {d : Value} {f R : Filter}
    (hunbound : ∀ l ∈ f.leaves, l.isUnbound = true)
    (h : Expr.substitute (r.residualOfLeaf d) f = .ok R) :
    ∃ B R', f.bind r.schema r.caseSensitive = .ok B ∧
      Expr.substitute (r.residualOfLeaf d) B = .ok R' ∧
      R.bind r.schema r.caseSensitive = .ok R' := by
  -- what both ways do at a leaf
  let k : Leaf → Except Fault Filter := fun l =>
    Filter.bindLeaf r.schema r.caseSensitive l >>= Expr.substitute (r.residualOfLeaf d)
  have hleaf : ∀ l ∈ f.leaves, ∀ x, r.residualOfLeaf d l = .ok x →
      ∃ b y, Filter.bindLeaf r.schema r.caseSensitive l = .ok b ∧
        Expr.substitute (r.residualOfLeaf d) b = .ok y ∧
        Expr.substitute (Filter.bindLeaf r.schema r.caseSensitive) x = .ok y := by
    intro l hl x hx
    cases l with
    | bound p => exact absurd (hunbound _ hl) (by simp [Leaf.isUnbound])
    | unbound p => exact residualOfLeaf_commutes hx
  obtain ⟨y, hRy, hky⟩ := Expr.substitute_substitute (k := k) (fun _ _ => Filter.isNormal_bindLeaf)
    (fun l hl x hx => by
      obtain ⟨b, y, hb, hy, hxy⟩ := hleaf l hl x hx
      exact ⟨y, hxy, by simp [k, hb, hy]⟩) h
  obtain ⟨B, hB⟩ : ∃ B, f.bind r.schema r.caseSensitive = .ok B :=
    Expr.exists_substitute fun l hl => by
      obtain ⟨x, hx⟩ := Expr.exists_of_substitute h l hl
      obtain ⟨b, _, hb, _⟩ := hleaf l hl x hx
      exact ⟨b, hb⟩
  obtain ⟨y', hBy, hky'⟩ := Expr.substitute_substitute (k := k)
    (fun _ _ => residualOfLeaf_isNormal) (fun l hl b hb => by
      obtain ⟨x, hx⟩ := Expr.exists_of_substitute h l hl
      obtain ⟨b', y, hb', hy, _⟩ := hleaf l hl x hx
      obtain rfl : b' = b := by simpa using hb'.symm.trans hb
      exact ⟨y, hy, by simp [k, hb, hy]⟩) hB
  obtain rfl : y = y' := by simpa using hky.symm.trans hky'
  exact ⟨B, y, hB, hBy, hRy⟩

/-- **Binding and residuals commute.** If a filter without bound predicates has a residual for a
partition, then the filter can be bound, the evaluator of the bound filter has a residual for the
partition too, and that is the bound form of the first. -/
theorem residual_bind_comm {schema : Schema} {spec : PartitionSpec} {caseSensitive : Bool}
    {f R : Filter} {r : ResidualEvaluator} {d : Value} (hpart : spec.isUnpartitioned = false)
    (hmake : make spec f caseSensitive schema = .ok r)
    (hunbound : ∀ l ∈ f.leaves, l.isUnbound = true) (h : r.residual d = .ok R) :
    ∃ B r' R', f.bind schema caseSensitive = .ok B ∧
      make spec B caseSensitive schema = .ok r' ∧
      r'.residual d = .ok R' ∧ R.bind schema caseSensitive = .ok R' := by
  obtain ⟨fields, _, rfl⟩ := make_inv hpart hmake
  simp only [residual, hpart, Bool.false_eq_true, if_false] at h
  obtain ⟨B, R', hB, hBR, hRR⟩ := bind_residual_of_filter hunbound h
  refine ⟨B, _, R', hB, make_withFilter hmake, ?_, hRR⟩
  rw [residual, if_neg (by simp [withFilter, hpart]), residualOfLeaf_withFilter]
  exact hBR

/-- On the day after the bound, the comparison and the test for null are decided; on the day of the
bound the comparison is kept. -/
theorem residual_bind_comm_day :
    let schema := Schema.ofFields [⟨1, "ts", .primitive .timestamp, false, none⟩]
    let spec : PartitionSpec := ⟨0, [⟨1, 1000, .time .day, "ts_day"⟩]⟩
    let late : Leaf := .unbound (.compare .greaterOrEqual "ts" (.long (.number 5)))
    let missing : Leaf := .unbound (.unary .isNull "ts")
    let f : Filter := .and (.leaf late) (.not (.leaf missing))
    ∃ B r' R', f.bind schema true = .ok B ∧ make spec B true schema = .ok r' ∧
      r'.residual (.record [.int 0]) = .ok R' ∧ Filter.bind schema true (.leaf late) = .ok R' := by
  intro schema spec late missing f
  exact residual_bind_comm (r := ⟨schema, spec, f, true,
      Schema.ofFields [⟨1000, "ts_day", .primitive .date, false, none⟩]⟩)
    rfl rfl (by simp [f, Expr.leaves, late, missing, Leaf.isUnbound]) rfl

end ResidualEvaluator

end PartitionPruning
