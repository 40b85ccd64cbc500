import Mathlib
import PartitionPruning.Proofs.Residual.Idempotence
import PartitionPruning.Proofs.Residual.Decision
import PartitionPruning.Proofs.Schema.Shadowing

/-!
# Positions of projections

A projection is made for a partition field at some position, but it is evaluated on the partition value
that the name of the field leads to. That is the value at the position of the field unless a partition
field behind it takes its place.

* **`isShadowed_iff`** — which partition fields are shadowed.
* **`position_of_bind`** — the position that a projection is bound to.
* **`position_of_projection`** — the position on which it is evaluated when there is a residual.
* **`decide?_of_isShadowed`** — the value of a shadowed field decides nothing.
-/

namespace PartitionPruning

open Outcome

/-- Whatever has projections has primitive results. -/
theorem Transform.isPrimitive_of_projection {t : Transform} {source : DataType} {side : Side}
    {name : String} {p : Predicate Column} {e : Expr (Predicate String)}
    (hcan : t.canTransform source = true ∨ ∃ name, t = .unknown name)
    (h : t.projection side name p = .ok (some e)) : ∃ q, t.resultType source = .primitive q := by
  have hnothing : t.projection side name p ≠ Projection.nothing := by
    rw [h]
    simp [Projection.nothing]
  -- A transform of an unknown name projects nothing, and neither does `void`.
  rcases hcan with hcan | ⟨unknown, rfl⟩
  · cases t with
    | identity | truncate =>
      cases source with
      | primitive q => exact ⟨q, rfl⟩
      | struct | other =>
        simp [canTransform, DataType.isPrimitive, DataType.truncateForm?] at hcan
    | bucket count => exact ⟨.int, rfl⟩
    | time u => cases u <;> exact ⟨_, rfl⟩
    | void => cases side <;> exact absurd rfl hnothing
    | unknown => simp [canTransform] at hcan
  · cases side <;> exact absurd rfl hnothing

namespace ResidualEvaluator

variable {spec : PartitionSpec} {filter : Filter} {caseSensitive : Bool} {schema : Schema}
variable {r : ResidualEvaluator} {d : Value} {p : Predicate Column} {i : Nat} {f : PartitionField}

/-! ## Partition fields and columns of the partition values -/

/-- The column of the partition values at the position of a partition field. -/
theorem field_of_make (hpart : spec.isUnpartitioned = false)
    (hmake : make spec filter caseSensitive schema = .ok r) (hf : spec.fields[i]? = some f) :
    ∃ g, r.partitionSchema.fields[i]? = some g ∧ PartitionSpec.resultField schema f = .ok g := by
  obtain ⟨fields, hfields, rfl⟩ := make_inv hpart hmake
  exact getElem?_of_mapM hfields hf

/-- **Shadowed partition fields.** If all columns that partition values are derived from are primitive,
then a partition field is shadowed by those behind it that have its id or a name that agrees. -/
theorem isShadowed_iff (hpart : spec.isUnpartitioned = false)
    (hmake : make spec filter caseSensitive schema = .ok r)
    (hsources : spec.HasPrimitiveSources schema) (hf : spec.fields[i]? = some f) :
    r.partitionSchema.IsShadowed r.caseSensitive i ↔ ∃ g ∈ spec.fields.drop (i + 1),
      g.fieldId = f.fieldId ∨
        Schema.nameKey caseSensitive g.name = Schema.nameKey caseSensitive f.name := by
  obtain ⟨fields, hfields, rfl⟩ := make_inv hpart hmake
  have hkeeps : ∀ f g, PartitionSpec.resultField schema f = .ok g →
      (g.id, g.name) = (f.fieldId, f.name) := by
    intro f g hg
    obtain ⟨_, _, rfl, _⟩ := PartitionSpec.resultField_inv hg
    rfl
  have hflat : ∀ g ∈ fields, g.IsPrimitive := by
    intro g hg
    obtain ⟨f, hf, hfg⟩ := exists_of_mem_result hfields hg
    obtain ⟨s, hs, rfl, _⟩ := PartitionSpec.resultField_inv hfg
    obtain ⟨q, hq⟩ := hsources f hf s hs
    exact PartitionSpec.isPrimitive_resultType hq
  obtain ⟨g, hg, hresult⟩ := getElem?_of_mapM hfields hf
  obtain ⟨hid, hname⟩ := Prod.mk.inj (hkeeps f g hresult)
  refine (Schema.isShadowed_flat (s := Schema.ofFields fields) hflat hg).trans ?_
  -- the fields behind have the ids and the names of the partition fields behind
  have hbehind : (fields.drop (i + 1)).map (fun g => (g.id, g.name)) =
      (spec.fields.drop (i + 1)).map fun f => (f.fieldId, f.name) := by
    rw [List.map_drop, List.map_drop, map_eq_of_mapM hfields hkeeps]
  have hexists (q : Int × String → Prop) : (∃ h ∈ fields.drop (i + 1), q (h.id, h.name)) ↔
      ∃ h ∈ spec.fields.drop (i + 1), q (h.fieldId, h.name) := by
    have hmap {α : Type} (xs : List α) (k : α → Int × String) :
        (∃ pair ∈ xs.map k, q pair) ↔ ∃ x ∈ xs, q (k x) := by
      simp only [List.mem_map, exists_exists_and_eq_and]
    rw [← hmap (fields.drop (i + 1)) fun g => (g.id, g.name), hbehind, hmap]
  rw [hid, hname]
  exact hexists fun (id, name) => id = f.fieldId ∨
    Schema.nameKey caseSensitive name = Schema.nameKey caseSensitive f.name

/-! ## Projections -/

/-- **Binding a projection.** What a projection to a partition field is bound to reads the position of the
field exactly if the field is not shadowed. -/
theorem position_of_bind (hpart : spec.isUnpartitioned = false)
    (hmake : make spec filter caseSensitive schema = .ok r) (hf : spec.fields[i]? = some f) {side : Side}
    {e : Expr (Predicate String)} {B : Filter}
    (hproject : f.transform.projection side f.name p = .ok (some e))
    (hbind : Filter.bind r.partitionSchema r.caseSensitive (e.map .unbound) = .ok B)
    {q : Predicate Column} (hq : Leaf.bound q ∈ B.leaves) :
    q.term.accessor = ⟨i, []⟩ ↔ ¬ r.partitionSchema.IsShadowed r.caseSensitive i := by
  obtain ⟨g, hg, hresult⟩ := field_of_make hpart hmake hf
  obtain ⟨s, _, rfl, hcan⟩ := PartitionSpec.resultField_inv hresult
  obtain ⟨p', q', hp', heq, hp'q⟩ := Filter.exists_bind_of_mem_leaves hbind hq
  obtain rfl : q = q' := Leaf.bound.inj heq
  -- the projection names the partition field only
  have hname : p'.term = f.name := by
    rcases Transform.names_projection _ _ _ _ e hproject with ⟨b, rfl⟩ | ⟨p'', rfl, hterm⟩
    · simp [Expr.map, Expr.leaves] at hp'
    · obtain rfl : p' = p'' := by simpa [Expr.map, Expr.leaves] using hp'
      exact hterm
  obtain ⟨b, hb⟩ | ⟨q', hleaf, hcolumn, _⟩ := Predicate.bind_inv hp'q
  · simp at hb
  · obtain rfl := Expr.leaf.inj hleaf
    rw [hname] at hcolumn
    exact Schema.column_position_iff hg (Transform.isPrimitive_of_projection hcan hproject) hcolumn

/-! ## Residuals -/

/-- Whether a predicate is asked for by a residual: it is a bound one of the filter, or what an unbound
one is bound to. -/
def Asks (r : ResidualEvaluator) (p : Predicate Column) : Prop :=
  Leaf.bound p ∈ r.filter.leaves ∨ ∃ q, Leaf.unbound q ∈ r.filter.leaves ∧
    q.bind r.schema r.caseSensitive = .ok (.leaf p)

/-- A residual decides the predicates that it asks for. -/
theorem succeeds_decide?_of_residual {R : Filter} (hpart : r.spec.isUnpartitioned = false)
    (h : r.residual d = .ok R) (hp : r.Asks p) : Succeeds (r.decide? d p) := by
  rw [residual, if_neg (by simp [hpart])] at h
  rcases hp with hbound | ⟨q, hunbound, hq⟩
  · obtain ⟨x, hx⟩ := Expr.exists_of_substitute h _ hbound
    obtain ⟨o, ho, _⟩ := map_eq_ok.mp hx
    exact ⟨o, ho⟩
  · obtain ⟨x, hx⟩ := Expr.exists_of_substitute h _ hunbound
    rw [residualOfLeaf, hq] at hx
    obtain ⟨o, ho, _⟩ := map_eq_ok.mp hx
    exact ⟨o, ho⟩

/-- **Positions of projections.** When there is a residual for a partition, the strict projections of the
predicates that it asks for have been evaluated. A projection of either side that was evaluated reads the
partition value at the position of its field, and no other, exactly if the field is not shadowed by those
behind it: for primitive columns, if none of these has its id or a name that agrees. -/
theorem position_of_projection (hpart : spec.isUnpartitioned = false)
    (hmake : make spec filter caseSensitive schema = .ok r) {R : Filter}
    (hresidual : r.residual d = .ok R) (hp : r.Asks p) (hf : spec.fields[i]? = some f)
    (hsource : f.sourceId = p.term.field.id) :
    (∀ e, f.transform.projection .strict f.name p = .ok (some e) → Succeeds (r.evaluate d e)) ∧
      (∀ side e t, f.transform.projection side f.name p = .ok (some e) → r.evaluate d e = .ok t →
        ∃ B, Filter.bind r.partitionSchema r.caseSensitive (e.map .unbound) = .ok B ∧
          B.evaluate d = .ok t ∧ ∀ q, Leaf.bound q ∈ B.leaves →
            (q.term.accessor = ⟨i, []⟩ ↔ ¬ r.partitionSchema.IsShadowed r.caseSensitive i)) ∧
      (spec.HasPrimitiveSources schema →
        (r.partitionSchema.IsShadowed r.caseSensitive i ↔ ∃ g ∈ spec.fields.drop (i + 1),
          g.fieldId = f.fieldId ∨
            Schema.nameKey caseSensitive g.name = Schema.nameKey caseSensitive f.name)) := by
  obtain ⟨_, hspec, _, _⟩ := make_keeps hpart hmake
  refine ⟨fun e hproject => ?strict, fun side e t hproject ht => ?position,
    fun hsources => isShadowed_iff hpart hmake hsources hf⟩
  case strict =>
    obtain ⟨o, ho⟩ := succeeds_decide?_of_residual (by rw [hspec, hpart]) hresidual hp
    -- The field is one of those asked, since the leaf's column is its source.
    have hmem : f ∈ r.spec.fieldsOfSource p.term.field.id := by
      rw [hspec]
      simpa [PartitionSpec.fieldsOfSource, hsource] using List.mem_of_getElem? hf
    obtain ⟨verdict, hverdict⟩ := (decide?_eq_ok.mp ho).1 f hmem
    rw [fieldVerdict, hproject] at hverdict
    obtain ⟨t, ht, _⟩ := map_eq_ok.mp hverdict
    exact ⟨t, ht⟩
  case position =>
    obtain ⟨B, hB, hevaluate⟩ := bind_eq_ok.mp ht
    exact ⟨B, hB, hevaluate, fun q hq => position_of_bind hpart hmake hf hproject hB hq⟩

/-- The second partition field is asked for its own value, the day. -/
theorem position_of_projection_day :
    let ts : Field := ⟨1, "ts", .primitive .timestamp, false, none⟩
    let schema := Schema.ofFields [ts, ⟨2, "c", .primitive .int, false, none⟩]
    let spec : PartitionSpec := ⟨0, [⟨2, 1000, .identity, "c"⟩, ⟨1, 1001, .time .day, "ts_day"⟩]⟩
    let late : Filter := Filter.ofPredicate (.compare .greaterOrEqual "ts" (.long (.number 5)))
    let r : ResidualEvaluator := ⟨schema, spec, late, false, Schema.ofFields
      [⟨1000, "c", .primitive .int, false, none⟩, ⟨1001, "ts_day", .primitive .date, false, none⟩]⟩
    let after : Expr (Predicate String) := .leaf (.compare .greater "ts_day" (.long (.number 0)))
    r.residual (.record [.int 7, .int 1]) = .ok (.constant true) ∧
      ∃ B, Filter.bind r.partitionSchema false (after.map .unbound) = .ok B ∧
        B.evaluate (.record [.int 7, .int 1]) = .ok true ∧
        ∀ q, Leaf.bound q ∈ B.leaves → q.term.accessor = ⟨1, []⟩ := by
  intro ts schema spec late r after
  let bound : Predicate Column := .compare .greaterOrEqual ⟨ts, ⟨0, []⟩⟩ (.timestamp (.number 5))
  have hmake : make spec late false schema = .ok r := by cbv
  have hresidual : r.residual (.record [.int 7, .int 1]) = .ok (.constant true) := by cbv
  have hasks : r.Asks bound := Or.inr ⟨_, List.mem_singleton.mpr rfl, by cbv⟩
  have hproject : (Transform.time .day).projection .strict "ts_day" bound = .ok (some after) := by cbv
  have hsources : spec.HasPrimitiveSources schema := by
    intro f hf g hg
    rcases List.mem_pair.mp hf with rfl | rfl
    · obtain rfl := Except.ok.inj hg
      exact ⟨.int, rfl⟩
    · obtain rfl := Except.ok.inj hg
      exact ⟨.timestamp, rfl⟩
  obtain ⟨hstrict, hposition, hshadowed⟩ :=
    position_of_projection rfl hmake hresidual hasks (i := 1) rfl rfl
  obtain ⟨t, ht⟩ := hstrict after hproject
  obtain ⟨B, hB, hevaluate, hown⟩ := hposition .strict after t hproject ht
  obtain rfl : true = t := by
    have htrue : r.evaluate (.record [.int 7, .int 1]) after = .ok true := by cbv
    exact Except.ok.inj (htrue.symm.trans ht)
  -- no field is behind the second one
  have hfree : ¬ r.partitionSchema.IsShadowed r.caseSensitive 1 := by
    rw [hshadowed hsources]
    rintro ⟨g, hg, _⟩
    simp [spec] at hg
  exact ⟨hresidual, B, hB, hevaluate, fun q hq => (hown q hq).mpr hfree⟩

/-- **A projection on the value of another field.** The names of two partition fields agree when case is
ignored. The projection for the first field is evaluated on the value of the second one. So a partition
all of whose rows match is left out. -/
theorem residual_of_agreeing_names :
    let x : Field := ⟨1, "x", .primitive .int, false, none⟩
    let schema := Schema.ofFields [x, ⟨2, "y", .primitive .int, false, none⟩]
    let spec : PartitionSpec := ⟨0, [⟨1, 1000, .identity, "A"⟩, ⟨2, 1001, .identity, "a"⟩]⟩
    let five : Filter := Filter.ofPredicate (.compare .equal "x" (.long (.number 5)))
    let d : Value := .record [.int 5, .int 7]
    (Transform.identity).projection .strict "A" (.compare .equal ⟨x, ⟨0, []⟩⟩ (.long (.number 5))) =
        .ok (some (.leaf (.compare .equal "A" (.long (.number 5))))) ∧
      ∃ r, make spec five false schema = .ok r ∧
        r.partitionSchema.column false "A" =
          .ok ⟨⟨1001, "a", .primitive .int, false, none⟩, ⟨1, []⟩⟩ ∧
        r.residual d = .ok (.constant false) ∧
        Filter.evaluateIn schema false five (.record [.int 5, .int 7]) = .ok true := by
  intro x schema spec five d
  refine ⟨rfl, ⟨schema, spec, five, false, Schema.ofFields
    [⟨1000, "A", .primitive .int, false, none⟩, ⟨1001, "a", .primitive .int, false, none⟩]⟩, ?_⟩
  -- The evaluator is given, so everything below is computed.
  exact ⟨by cbv, by cbv, by cbv, by cbv⟩

/-! ## Values that decide nothing -/

/-- Partitions for which the projections to the fields of a column come out the same are told apart by
none of these. -/
theorem ruledOut_congr {d' : Value} {fields : List PartitionField}
    (h : ∀ f ∈ fields, ∀ e, f.transform.projection .inclusive f.name p = .ok (some e) →
      r.evaluate d' e = r.evaluate d e) : r.ruledOut d' p fields = r.ruledOut d p fields := by
  induction fields with
  | nil => rfl
  | cons f rest ih =>
    obtain ⟨hfirst, hrest⟩ := List.forall_mem_cons.mp h
    have hverdict : r.fieldVerdict d' p .inclusive f = r.fieldVerdict d p .inclusive f := by
      rw [fieldVerdict, fieldVerdict]
      cases hproject : f.transform.projection .inclusive f.name p with
      | error fault => rfl
      | ok o =>
        cases o with
        | none => rfl
        | some e => rw [verdict_some, verdict_some, hfirst e hproject]
    rw [ruledOut_cons, ruledOut_cons, hverdict, ih hrest]

theorem anyTrue_congr {d' : Value} {projections : List (Expr (Predicate String))}
    (h : ∀ e ∈ projections, r.evaluate d' e = r.evaluate d e) :
    r.anyTrue d' projections = r.anyTrue d projections := by
  induction projections with
  | nil => rfl
  | cons e rest ih =>
    obtain ⟨hfirst, hrest⟩ := List.forall_mem_cons.mp h
    rw [anyTrue, anyTrue, hfirst, ih hrest]

/-- **Decisions rest on projections.** A predicate is decided alike for partitions for which the projections
to all fields of its column come out the same. -/
theorem decide?_congr {d' : Value}
    (h : ∀ f ∈ r.spec.fieldsOfSource p.term.field.id, ∀ side e,
      f.transform.projection side f.name p = .ok (some e) → r.evaluate d' e = r.evaluate d e) :
    r.decide? d' p = r.decide? d p := by
  -- The strict projections are listed before any is evaluated, so the list is the same for both
  -- partitions.
  simp only [decide?]
  cases hstrict : (r.spec.fieldsOfSource p.term.field.id).mapM
      fun f => f.transform.strictProject f.name p with
  | error fault => simp only [error_bind]
  | ok strict =>
    have hany : r.anyTrue d' strict.reduceOption = r.anyTrue d strict.reduceOption := by
      refine anyTrue_congr fun e he => ?_
      obtain ⟨f, hf, hproject⟩ := (mem_strict_iff hstrict).mp he
      exact h f hf .strict e hproject
    have hruled := ruledOut_congr fun f hf e => h f hf .inclusive e
    simp only [ok_bind, hruled]
    cases hprojections : strict.reduceOption with
    | nil => rfl
    | cons e rest =>
      rw [hprojections] at hany
      simp only [hany]

/-- A projection is evaluated alike for rows that agree at the positions that it is bound to. -/
theorem evaluate_congr {d' : Value} {e : Expr (Predicate String)} {name : String}
    (hnames : Projection.Names name e)
    (h : ∀ c, r.partitionSchema.column r.caseSensitive name = .ok c →
      c.accessor.get d' = c.accessor.get d) : r.evaluate d' e = r.evaluate d e := by
  rcases hnames with ⟨b, rfl⟩ | ⟨q, rfl, rfl⟩
  · rfl
  · simp only [evaluate, Filter.evaluateIn, Expr.map, Filter.bind, Expr.substitute, Filter.bindLeaf,
      Predicate.bind]
    cases hc : r.partitionSchema.column r.caseSensitive q.term with
    | error fault => rfl
    | ok c =>
      cases hb : q.bindTo c with
      | error fault =>
        simp only [ok_bind, hb]
        rfl
      | ok b =>
        simp only [ok_bind, map_ok, hb, Filter.evaluate]
        -- what was bound is a constant or reads the column
        rcases Predicate.bindTo_inv hb with ⟨t, rfl⟩ | ⟨q', rfl, hterm, _⟩
        · rfl
        · simp [Expr.map, Expr.evaluate, Filter.evaluateLeaf, Predicate.evaluate, hterm, h c hc]

/-- **A shadowed field decides nothing.** If a column has a single partition field and this one is shadowed,
then the value at its position makes no difference to what is decided about the column. -/
theorem decide?_of_isShadowed (hpart : spec.isUnpartitioned = false)
    (hmake : make spec filter caseSensitive schema = .ok r) (hf : spec.fields[i]? = some f)
    (hsingle : spec.fieldsOfSource p.term.field.id = [f])
    (hshadowed : r.partitionSchema.IsShadowed r.caseSensitive i) {d' : Value}
    (hagree : ∀ j, j ≠ i → d'.at j = d.at j) : r.decide? d' p = r.decide? d p := by
  obtain ⟨_, hspec, _, _⟩ := make_keeps hpart hmake
  refine decide?_congr fun f' hf' side e hproject => ?_
  obtain rfl : f' = f := by simpa [hspec, hsingle] using hf'
  obtain ⟨g, hg, hresult⟩ := field_of_make hpart hmake hf
  obtain ⟨s, _, rfl, hcan⟩ := PartitionSpec.resultField_inv hresult
  have hprimitive := Transform.isPrimitive_of_projection hcan hproject
  refine evaluate_congr (Transform.names_projection _ _ _ _ e hproject) fun c hc => ?_
  have hposition := Schema.position_ne_of_isShadowed hg hprimitive hc hshadowed
  rw [Accessor.get, Accessor.get, hagree _ hposition]

end ResidualEvaluator

end PartitionPruning
