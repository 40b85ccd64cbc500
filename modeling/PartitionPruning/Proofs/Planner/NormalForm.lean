import PartitionPruning.Proofs.Filter.NormalForm
import PartitionPruning.Proofs.Planner.Soundness
import PartitionPruning.Proofs.Residual.Idempotence

/-!
# Constant residuals are recognised

A planner leaves a partition out if its residual *is* the constant false, and asks for no check of rows
if it *is* true. It only looks at the root of the tree, so it relies on everything that makes filters
to fold constants away.

* **`isNormalForm_of_made`** — whatever makes filters, finitely many steps of it give normal forms.
* **`normalForm_of_made`** — so a planner recognises every residual that holds no predicate.
-/

namespace PartitionPruning

namespace Filter

/-- The filters that are made of constants and unbound predicates in finitely many steps. -/
inductive Made : Filter → Prop
  | constant (b : Bool) : Made (.constant b)
  | unary (op : UnaryTest) (column : String) : Made (ofPredicate (.unary op column))
  | compare (op : Comparison) (column : String) (literal : Literal) :
      Made (ofPredicate (.compare op column literal))
  | among {op : Membership} {column : String} {literals : List Literal} {f : Filter}
      (h : ofLiterals op column literals = .ok f) : Made f
  | allOf {fs : List Filter} {f : Filter} (hfs : ∀ g ∈ fs, Made g)
      (h : Filter.allOf fs = .ok f) : Made f
  | anyOf {fs : List Filter} {f : Filter} (hfs : ∀ g ∈ fs, Made g)
      (h : Filter.anyOf fs = .ok f) : Made f
  | negate {f : Filter} (hf : Made f) : Made (Expr.negate f)
  | opposite {f : Filter} (hf : Made f) : Made f.opposite
  | bind {f g : Filter} {schema : Schema} {caseSensitive : Bool} (hf : Made f)
      (h : f.bind schema caseSensitive = .ok g) : Made g
  | parse {text : String} {f : Filter} (h : Filter.parse text = .ok f) : Made f
  | residual {f R : Filter} {spec : PartitionSpec} {schema : Schema} {caseSensitive : Bool}
      {r : ResidualEvaluator} {d : Value} (hf : Made f)
      (hmake : ResidualEvaluator.make spec f caseSensitive schema = .ok r)
      (h : r.residual d = .ok R) : Made R

theorem isNormalForm_residual {f R : Filter} {spec : PartitionSpec} {schema : Schema}
    {caseSensitive : Bool} {r : ResidualEvaluator} {d : Value} (hf : f.IsNormalForm)
    (hmake : ResidualEvaluator.make spec f caseSensitive schema = .ok r)
    (h : r.residual d = .ok R) : R.IsNormalForm := by
  have hleaves := ResidualEvaluator.leaves_residual_sublist hmake h
  exact ⟨ResidualEvaluator.isNormal_residual hmake hf.normal h,
    fun l hl => hf.proper l (hleaves.subset hl)⟩

/-- **Every filter is in normal form.** Induction on the steps that made it. -/
theorem isNormalForm_of_made {f : Filter} (h : f.Made) : f.IsNormalForm := by
  induction h with
  | constant b => exact isNormalForm_constant b
  | unary op column => exact isNormalForm_unary op column
  | compare op column literal => exact isNormalForm_compare op column literal
  | among h => exact isNormalForm_ofLiterals h
  | allOf _ h ih => exact isNormalForm_allOf ih h
  | anyOf _ h ih => exact isNormalForm_anyOf ih h
  | negate _ ih => exact isNormalForm_negate ih
  | opposite _ ih => exact isNormalForm_opposite ih
  | bind _ h _ => exact isNormalForm_bind h
  | parse h => exact isNormalForm_parse h
  | residual _ hmake h ih => exact isNormalForm_residual ih hmake h

end Filter

namespace Planner

/-- The residuals that a planner finds are those of its filter. -/
theorem made_of_mem_residuals {source : SettingsSource} {schema : Schema} {spec : PartitionSpec}
    {rowFilter : RowFilter} {flag : Option Bool} {planner : Planner} {partitions : List Value}
    {found : List PlannedPartition} {f : Filter} (hf : f.Made) (hfilter : rowFilter.toFilter = .ok f)
    (hmake : (make source schema spec rowFilter flag).result = .ok planner)
    (hfound : planner.residuals partitions = .ok found) {p : PlannedPartition} (hp : p ∈ found) :
    p.residual.Made := by
  obtain ⟨_, _, hplanner, hevaluator⟩ := make_inv hmake
  obtain rfl : f = planner.filter := Except.ok.inj (hfilter.symm.trans hplanner)
  exact .residual hf hevaluator ((mem_residuals hfound).1 p hp).2

/-- **Constant residuals are recognised.** A filter that is made of constants and predicates is a
constant, or it holds no constant, no negation of a negation and no set of less than two distinct
literals. So a residual without predicates has the same outcome on every row, and the planner tells
which by its root. -/
theorem normalForm_of_made {f : Filter} (h : f.Made) :
    f.isNormal = true ∧ (∀ l ∈ f.leaves, l.isProper = true) ∧
      ∀ (source : SettingsSource) (schema : Schema) (spec : PartitionSpec) (rowFilter : RowFilter)
        (flag : Option Bool) (planner : Planner) (partitions : List Value)
        (found : List PlannedPartition), rowFilter.toFilter = .ok f →
        (make source schema spec rowFilter flag).result = .ok planner →
        planner.residuals partitions = .ok found → ∀ p ∈ found, p.residual.leaves = [] →
          ∃ b, (∀ row, Filter.evaluate row p.residual = .ok b) ∧
            p.matchesAll = b ∧ p.matchesNone = !b := by
  have hform := Filter.isNormalForm_of_made h
  refine ⟨hform.normal, hform.proper, ?_⟩
  intro source schema spec rowFilter flag planner partitions found hfilter hmake hfound p hp hnil
  have hresidual := Filter.isNormalForm_of_made (made_of_mem_residuals h hfilter hmake hfound hp)
  -- A normal expression without leaves is a constant.
  obtain ⟨b, hb⟩ := Expr.constant_of_leaves_eq_nil hresidual.normal hnil
  refine ⟨b, fun row => ?_, ?_, ?_⟩
  · rw [hb]
    rfl
  · rw [PlannedPartition.matchesAll, hb]
  · rw [PlannedPartition.matchesNone, hb]

/-- A conjunction with a negation, on the day after the bound of its comparison: nothing is left to be
checked there. -/
theorem normalForm_of_made_day :
    let late : Filter := Filter.ofPredicate (.compare .greaterOrEqual "ts" (.long (.number 5)))
    let missing : Filter := Filter.ofPredicate (.unary .isNull "ts")
    let f : Filter := .and late (.not missing)
    let p : PlannedPartition := ⟨0, .record [.int 1], .constant true⟩
    f.Made ∧ f.isNormal = true ∧ (∀ l ∈ f.leaves, l.isProper = true) ∧
      ∃ b, (∀ row, Filter.evaluate row p.residual = .ok b) ∧ p.matchesAll = b ∧ p.matchesNone = !b := by
  intro late missing f p
  have hmade : f.Made := by
    have hoperands : ∀ g ∈ [late, Expr.not missing], Filter.Made g := by
      intro g hg
      rcases List.mem_pair.mp hg with rfl | rfl
      · exact .compare _ _ _
      · exact .negate (.unary _ _)
    exact .allOf hoperands rfl
  -- The second day lies behind the bound, so nothing of the filter is left on it.
  let schema := Schema.ofFields [⟨1, "ts", .primitive .timestamp, false, none⟩]
  let spec : PartitionSpec := ⟨0, [⟨1, 1000, .time .day, "ts_day"⟩]⟩
  let planner : Planner := ⟨schema, spec, f, true, ⟨schema, spec, f, true,
    Schema.ofFields [⟨1000, "ts_day", .primitive .date, false, none⟩]⟩⟩
  have hfound : planner.residuals [.record [.int 1]] = .ok [p] := rfl
  obtain ⟨hnormal, hproper, hconstant⟩ := normalForm_of_made hmade
  exact ⟨hmade, hnormal, hproper, hconstant ⟨[], none, none⟩ schema spec (.filter f) (some true)
    planner _ _ rfl rfl hfound p (List.mem_singleton.mpr rfl) rfl⟩

end Planner

end PartitionPruning
