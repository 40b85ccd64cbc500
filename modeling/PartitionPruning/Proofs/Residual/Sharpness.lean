import PartitionPruning.Proofs.Filter.Safety
import PartitionPruning.Proofs.Residual.Positions
import PartitionPruning.Proofs.Transform.Time

/-!
# Sharp residuals of dates and moments

On a table that is partitioned by a unit of time, the residual of an ordering with a date or a moment
is as small as it can be: a constant exactly when all values of the partition agree on the ordering.
The strict and the inclusive projection leave no gap between them, at the ends of the calendar either.
This takes that the partition field is found by its name. A field that another one behind it shadows is
never asked, and then the residual is that of another value.

* **`fieldVerdict_ordering`** — the verdicts on an ordering are those of the bounds.
* **`decide?_ordering_unit`** — what they decide, and what they leave open.
* **`residual_time_sharp`** — the residual of an ordering decides whatever can be decided, exactly if the
  field is not shadowed.
-/

namespace PartitionPruning

open Outcome (bind_eq_ok map_eq_ok)

/-- Whether a partition value belongs to a value of a column. -/
def Transform.Sends (t : Transform) (source : DataType) (v a : Value) : Prop :=
  source.holds v = true ∧ t.apply source v = .ok a

/-- Whether a predicate of a filter is bound to another one, or is what one was bound to. -/
def Leaf.StandsFor (l : Leaf) (schema : Schema) (caseSensitive : Bool) (p : Predicate Column) :
    Prop :=
  ∃ q : Predicate String, q.bind schema caseSensitive = .ok (.leaf p) ∧
    (l = .unbound q ∨ l = .bound p)

/-- Another value can take the place of one that is read at a position, and all others stay. -/
theorem Value.exists_replaced {d a : Value} {i : Nat} (h : d.at i = .ok a) (a' : Value) :
    ∃ d' : Value, d'.at i = .ok a' ∧ ∀ j, j ≠ i → d'.at j = d.at j := by
  -- what is read at a position is an element of a list, whatever the container is
  have hlist {items : List Value} {fault : Fault} (hi : element items i fault = .ok a) :
      element (items.set i a') i fault = .ok a' ∧
        ∀ j, j ≠ i → element (items.set i a') j fault = element items j fault := by
    have hlt : i < items.length := by
      by_contra hge
      rw [element, List.getElem?_eq_none (by omega)] at hi
      simp at hi
    refine ⟨by rw [element, List.getElem?_set_self hlt], fun j hj => ?_⟩
    rw [element, element, List.getElem?_set_ne (Ne.symm hj)]
  cases d with
  | record fields => exact ⟨.record _, hlist h⟩
  | list items => exact ⟨.list _, hlist h⟩
  | text s => exact ⟨.list _, hlist h⟩
  | bytes bs => exact ⟨.list _, hlist h⟩
  | type t => cases t <;> simp [«at»] at h
  | _ => simp [«at»] at h

namespace ResidualEvaluator

/-- Whether what is left of a predicate is as small as it can be for a partition value: false for a null, and for
the partition value of some value of the column a constant exactly if all of these values agree. -/
structure IsSharp (l : Leaf) (t : Transform) (p : Predicate Column) (a : Value) (R : Filter) : Prop where
  ofNull : a = .null → R = .constant false
  all : (∃ v, t.Sends p.term.field.type v a) →
    (R = .constant true ↔ ∀ v, t.Sends p.term.field.type v a → p.test v = .ok true)
  none : (∃ v, t.Sends p.term.field.type v a) →
    (R = .constant false ↔ ¬ ∃ v, t.Sends p.term.field.type v a ∧ p.test v = .ok true)
  cases : (∃ v, t.Sends p.term.field.type v a) →
    R = .constant true ∨ R = .constant false ∨ R = .leaf l

variable {spec : PartitionSpec} {schema : Schema} {caseSensitive : Bool} {r : ResidualEvaluator}
variable {l : Leaf} {p : Predicate Column} {d : Value}

/-- The residual of a single predicate is what the partition decides about it. -/
theorem residual_leaf (hpart : spec.isUnpartitioned = false)
    (hmake : make spec (.leaf l) caseSensitive schema = .ok r)
    (hl : l.StandsFor schema caseSensitive p) (d : Value) :
    r.residual d = (r.decide? d p).map (decided l) := by
  obtain ⟨fields, _, rfl⟩ := make_inv hpart hmake
  simp only [residual, hpart, Bool.false_eq_true, if_false, Expr.substitute]
  obtain ⟨q, hq, rfl | rfl⟩ := hl
  · rw [residualOfLeaf, hq, Outcome.ok_bind, residualOfBound]
  · rw [residualOfLeaf_bound]

/-- A comparison of a partition value that has an outcome reads a primitive column. -/
theorem exists_column_of_evaluate {op : Comparison} {name : String} {b : Literal} {t : Bool}
    (h : r.evaluate d (.leaf (.compare op name b)) = .ok t) :
    ∃ c, r.partitionSchema.column r.caseSensitive name = .ok c ∧ c.field.IsPrimitive := by
  obtain ⟨B, hB, _⟩ := bind_eq_ok.mp h
  obtain ⟨e, he, _⟩ := map_eq_ok.mp hB
  obtain ⟨c, hc, hbind⟩ := bind_eq_ok.mp he
  obtain ⟨b', hb', _⟩ := map_eq_ok.mp hbind
  exact ⟨c, hc, Literal.primitive_of_convert hb'⟩

/-- **Finding a field that is not shadowed.** If its name leads to a primitive column at all, it leads to the
column of its own values. -/
theorem column_of_not_isShadowed (hpart : spec.isUnpartitioned = false) {filter : Filter}
    (hmake : make spec filter caseSensitive schema = .ok r) {i : Nat} {f : PartitionField} {s : Field}
    (hi : spec.fields[i]? = some f) (hs : schema.fieldWithId (.number f.sourceId) = .ok s)
    (hprimitive : s.IsPrimitive)
    (hshadowed : ¬ r.partitionSchema.IsShadowed r.caseSensitive i) {c : Column}
    (hc : r.partitionSchema.column r.caseSensitive f.name = .ok c) (hread : c.field.IsPrimitive) :
    c = partitionColumn f s.type i := by
  obtain ⟨g, hg, hresult⟩ := field_of_make hpart hmake hi
  obtain ⟨s', hs', rfl, _⟩ := PartitionSpec.resultField_inv hresult
  obtain rfl : s = s' := Except.ok.inj (hs.symm.trans hs')
  obtain ⟨q, hq⟩ := hprimitive
  have hresults := PartitionSpec.isPrimitive_resultType (t := f.transform) hq
  -- The position decides the field, so the column found is that of the partition field.
  have hposition := (Schema.column_position_iff hg hresults hc).mpr hshadowed
  have hfield := Schema.field_of_position hg hresults hc hposition (Field.isRead_isPrimitive hread)
  obtain ⟨field, accessor⟩ := c
  obtain rfl := hposition
  obtain rfl := hfield
  rfl

section Verdicts

variable {f : PartitionField} {u : TimeUnit} {form : TimeForm} {c : Column} {i : Nat} {a : Value}
variable {op : Comparison} {w : Whole} {o : Option Bool}

/-- The verdict on an ordering is that of the bound. -/
theorem fieldVerdict_ordering (hf : f.transform = .time u)
    (hform : u.form? c.field.type = some form)
    (hcolumn : ∀ col, r.partitionSchema.column r.caseSensitive f.name = .ok col →
      col.field.IsPrimitive → col = partitionColumn f c.field.type i)
    (ha : d.at i = .ok a) (hcount : a.IsCount) (hw : form.inCalendar w.toInt = true)
    (hop : op.isOrdering = true) {side : Side}
    (h : r.fieldVerdict d (.compare op c (form.literal w)) side f = .ok o) :
    ∃ op' step k, side.bound? op = some (op', step) ∧
      u.ofForm form (w.toInt + step) = .ok k ∧ o = some (op'.holdsFor a k) := by
  have hprojection : f.transform.projection side f.name (.compare op c (form.literal w)) =
      Projection.ofMoved side f.name (u.function form) op (form.literal w) := by
    rw [hf, Transform.projection_time, Transform.sourceOf, Predicate.term,
      TimeUnit.function_time hform]
    rfl
  rw [fieldVerdict] at h
  cases o with
  | none =>
    rw [verdict_eq_none, hprojection] at h
    exact absurd h (TimeUnit.ofMoved_ordering_ne_none _ hop)
  | some t =>
    obtain ⟨e, he, ht⟩ := verdict_eq_some.mp h
    -- the projection is a comparison, and it was bound to the column of the field
    obtain ⟨op', b, rfl⟩ := Projection.ofMoved_cases (hprojection ▸ he)
    obtain ⟨col, hcol, hprimitive⟩ := exists_column_of_evaluate ht
    rw [hcolumn col hcol hprimitive] at hcol
    rw [evaluate_eq_outcome hcol (get_partitionColumn f c.field.type i ha)
      (Transform.names_projection _ _ _ _ _ he)] at ht
    have htype : (partitionColumn f c.field.type i).field.type = u.resultType := by
      rw [partitionColumn, hf]
      exact u.resultType_time _
    rw [hprojection] at he
    obtain ⟨op', step, k, hbound, hk, rfl⟩ := TimeUnit.ofMoved_inv hw htype hcount he ht
    exact ⟨op', step, k, hbound, hk, rfl⟩

/-- For a null partition value an ordering is decided to be false. -/
theorem decide?_ordering_null (hf : f.transform = .time u)
    (hform : u.form? c.field.type = some form)
    (hcolumn : ∀ col, r.partitionSchema.column r.caseSensitive f.name = .ok col →
      col.field.IsPrimitive → col = partitionColumn f c.field.type i)
    (ha : d.at i = .ok .null) (hw : form.inCalendar w.toInt = true) (hop : op.isOrdering = true)
    (hsingle : r.spec.fieldsOfSource c.field.id = [f])
    (h : r.decide? d (.compare op c (form.literal w)) = .ok o) : o = some false := by
  -- either verdict is that of a comparison that is false for nulls
  have hverdict {side : Side} {o : Option Bool}
      (ho : r.fieldVerdict d (.compare op c (form.literal w)) side f = .ok o) : o = some false := by
    obtain ⟨op', _, _, hbound, _, rfl⟩ :=
      fieldVerdict_ordering hf hform hcolumn ha (Or.inl rfl) hw hop ho
    rw [Comparison.holdsFor_null, (Side.bound_like hbound).2.2, Comparison.ofNull_of_isOrdering hop]
  cases o with
  | none =>
    rcases decide?_none h with hall | hall
    · have hnone := hverdict (hall f (by simp [Predicate.term, hsingle]))
      simp at hnone
    · obtain ⟨o, ho, hne⟩ := hall f (by simp [Predicate.term, hsingle]) .inclusive
      exact absurd (hverdict ho) hne
  | some t =>
    obtain ⟨side, rfl, g, hg, ho⟩ := decide?_some h
    obtain rfl : g = f := by simpa [Predicate.term, hsingle] using hg
    exact hverdict ho

/-- What is decided about an ordering is true of all numbers of the unit, and it is left open only
where numbers of the unit differ. -/
theorem decide?_ordering_unit {x : Int} (hf : f.transform = .time u)
    (hform : u.form? c.field.type = some form)
    (hcolumn : ∀ col, r.partitionSchema.column r.caseSensitive f.name = .ok col →
      col.field.IsPrimitive → col = partitionColumn f c.field.type i)
    (ha : d.at i = .ok (.int x)) (hw : form.inCalendar w.toInt = true) (hop : op.isOrdering = true)
    (hsingle : r.spec.fieldsOfSource c.field.id = [f])
    (hx : ∃ n, form.inCalendar n = true ∧ u.ofForm form n = .ok x)
    (h : r.decide? d (.compare op c (form.literal w)) = .ok o) :
    match o with
    | some b => ∀ n, u.ofForm form n = .ok x → op.holds n w.toInt = b
    | none => ∀ b, ∃ n, form.inCalendar n = true ∧ u.ofForm form n = .ok x ∧
        op.holds n w.toInt = b := by
  have hunits := TimeUnit.coarsens u form
  have hverdict {side : Side} {o : Option Bool}
      (ho : r.fieldVerdict d (.compare op c (form.literal w)) side f = .ok o) :
      ∃ op' step k, side.bound? op = some (op', step) ∧
        u.ofForm form (w.toInt + step) = .ok k ∧ o = some (op'.holds x k) :=
    fieldVerdict_ordering hf hform hcolumn ha (Or.inr ⟨x, rfl⟩) hw hop ho
  cases o with
  | some t =>
    obtain ⟨side, rfl, g, hg, ho⟩ := decide?_some h
    obtain rfl : g = f := by simpa [Predicate.term, hsingle] using hg
    obtain ⟨op', step, k, hbound, hk, hdecides⟩ := hverdict ho
    intro n hn
    exact Side.bound_sound hunits hbound hn hk (Option.some.inj hdecides).symm
  | none =>
    obtain ⟨n, hin, hn⟩ := hx
    rcases decide?_none h with hall | hall
    · obtain ⟨_, _, _, _, _, hnone⟩ := hverdict (hall f (by simp [Predicate.term, hsingle]))
      simp at hnone
    · -- a bound that does not decide leaves a number with the other outcome
      have hother (side : Side) : ∃ n, form.inCalendar n = true ∧ u.ofForm form n = .ok x ∧
          op.holds n w.toInt = !side.decides := by
        obtain ⟨o, ho, hne⟩ := hall f (by simp [Predicate.term, hsingle]) side
        obtain ⟨op', step, k, hbound, hk, rfl⟩ := hverdict ho
        exact Side.bound_complete hunits hop hbound hn hin hk
          (Bool.eq_not.mpr fun heq => hne (congrArg some heq))
      intro b
      cases b with
      | false => exact hother .strict
      | true => exact hother .inclusive

end Verdicts

/-! ## Residuals -/

theorem decided_eq_constant {o : Option Bool} {b : Bool} :
    decided l o = .constant b ↔ o = some b := by
  cases o <;> simp [decided]

/-- A residual is sharp if it is a constant where all values of a partition agree on a predicate, and if
they differ where it is none. -/
theorem isSharp_of_decision {t : Transform} {a : Value} {o : Option Bool}
    (hnull : a = .null → o = some false)
    (hsome : ∀ b, o = some b → ∀ v, t.Sends p.term.field.type v a → p.test v = .ok b)
    (hnone : o = none → ∀ v, t.Sends p.term.field.type v a →
      ∀ b, ∃ m, t.Sends p.term.field.type m a ∧ p.test m = .ok b) :
    IsSharp l t p a (decided l o) := by
  refine ⟨fun ha => decided_eq_constant.mpr (hnull ha), fun ⟨v, hv⟩ => ?agree, fun ⟨v, hv⟩ => ?differ,
    fun _ => ?kept⟩
  case agree =>
    rw [decided_eq_constant]
    refine ⟨fun ho => hsome true ho, fun hall => ?_⟩
    cases o with
    | some b => rw [Except.ok.inj ((hsome b rfl v hv).symm.trans (hall v hv))]
    | none =>
      -- Without a decision both outcomes occur, and one of them is against the assumption.
      obtain ⟨m, hm, hfails⟩ := hnone rfl v hv false
      have := (hall m hm).symm.trans hfails
      simp at this
  case differ =>
    rw [decided_eq_constant]
    constructor
    · rintro ho ⟨m, hm, htrue⟩
      have := htrue.symm.trans (hsome false ho m hm)
      simp at this
    · intro hnever
      cases o with
      | some b =>
        cases b with
        | true => exact absurd ⟨v, hv, hsome true rfl v hv⟩ hnever
        | false => rfl
      | none => exact absurd (hnone rfl v hv true) hnever
  case kept =>
    cases o with
    | some b => cases b <;> simp [decided]
    | none => exact Or.inr (Or.inr rfl)

/-- The values that are sent to a unit are the days or moments of the calendar in it. -/
theorem sends_time_iff {u : TimeUnit} {form : TimeForm} {source : DataType} {v : Value} {x : Int}
    (hform : u.form? source = some form) :
    (Transform.time u).Sends source v (.int x) ↔
      ∃ n, v = .int n ∧ form.inCalendar n = true ∧ u.ofForm form n = .ok x := by
  rw [Transform.Sends, TimeUnit.holds_of_timeForm? (TimeUnit.timeForm?_of_form? hform)]
  constructor
  · rintro ⟨⟨n, rfl, hn⟩, hv⟩
    obtain ⟨k, hk, hxk⟩ := (TimeUnit.apply_int_eq_ok hform).mp hv
    obtain rfl : x = k := by simpa using hxk
    exact ⟨n, rfl, hn, hk⟩
  · rintro ⟨n, rfl, hn, hx⟩
    exact ⟨⟨n, rfl, hn⟩, (TimeUnit.apply_int_eq_ok hform).mpr ⟨x, hx, rfl⟩⟩

/-- A day or a moment is sent to a unit. -/
theorem sends_time_inv {u : TimeUnit} {form : TimeForm} {source : DataType} {v a : Value}
    (hform : u.form? source = some form) (h : (Transform.time u).Sends source v a) :
    ∃ x, a = .int x := by
  obtain ⟨n, rfl, _⟩ := (TimeUnit.holds_of_timeForm? (TimeUnit.timeForm?_of_form? hform)).mp h.1
  obtain ⟨x, _, rfl⟩ := (TimeUnit.apply_int_eq_ok hform).mp h.2
  exact ⟨x, rfl⟩

/-- The column of a bound ordering with a date or a moment, and what the literal counts. -/
theorem ordering_of_standsFor {c : Column} {op : Comparison} {b : Literal} {w : Whole}
    {form : TimeForm} (hl : l.StandsFor schema caseSensitive (.compare op c b))
    (hform : c.field.type.timeForm? = some form) (hb : b.value = .ofWhole w) :
    schema.fieldWithId (.number c.field.id) = .ok c.field ∧ b = form.literal w := by
  obtain ⟨q, hq, _⟩ := hl
  obtain ⟨_, hconstant⟩ | ⟨q', hq', hc, hlits⟩ := Predicate.bind_inv hq
  · simp at hconstant
  obtain rfl : Predicate.compare op c b = q' := by simpa using hq'
  obtain ⟨_, _, hconvert⟩ := hlits b (List.mem_singleton.mpr rfl)
  obtain ⟨w', rfl⟩ := TimeForm.literal_of_convert hform hconvert
  rw [TimeForm.value_literal] at hb
  have hwhole := congrArg Value.whole? hb
  obtain rfl : w' = w := by simpa [Value.whole?_ofWhole] using hwhole
  exact ⟨(Schema.column_inv hc).1, rfl⟩

/-- Every value of a column of dates or moments is sent to a unit. -/
theorem exists_sends_time {u : TimeUnit} {form : TimeForm} {source : DataType} {v : Value}
    (hform : u.form? source = some form) (hv : source.holds v = true) :
    ∃ x, (Transform.time u).Sends source v x := by
  obtain ⟨n, rfl, hn⟩ := (TimeUnit.holds_of_timeForm? (TimeUnit.timeForm?_of_form? hform)).mp hv
  obtain ⟨x, hx⟩ := TimeUnit.succeeds_ofForm.mpr (u.hasUnit_of_inCalendar hn)
  exact ⟨.int x, (sends_time_iff hform).mpr ⟨n, rfl, hn, hx⟩⟩

/-- The only partition field of a column is derived from the column. -/
theorem sourceId_of_single {id : Int} {f : PartitionField} (h : spec.fieldsOfSource id = [f]) :
    f.sourceId = id := by
  have hmem : f ∈ spec.fieldsOfSource id := by simp [h]
  simpa [PartitionSpec.fieldsOfSource] using (List.mem_filter.mp hmem).2

/-- A unit of time in a spec that is accepted counts what the column holds. -/
theorem form?_of_make (hpart : spec.isUnpartitioned = false) {filter : Filter}
    (hmake : make spec filter caseSensitive schema = .ok r) {i : Nat} {f : PartitionField} {s : Field}
    (hi : spec.fields[i]? = some f) (hs : schema.fieldWithId (.number f.sourceId) = .ok s)
    {u : TimeUnit} {form : TimeForm} (hf : f.transform = .time u)
    (hform : s.type.timeForm? = some form) : u.form? s.type = some form := by
  obtain ⟨_, _, hresult⟩ := field_of_make hpart hmake hi
  obtain ⟨s', hs', _, hcan⟩ := PartitionSpec.resultField_inv hresult
  obtain rfl : s = s' := Except.ok.inj (hs.symm.trans hs')
  rcases hcan with hcan | ⟨name, hname⟩
  · rw [hf] at hcan
    obtain ⟨form', hform'⟩ : ∃ form', u.form? s.type = some form' := Option.isSome_iff_exists.mp hcan
    rw [hform', ← hform, TimeUnit.timeForm?_of_form? hform']
  · simp [hf] at hname

/-- **Decisions about an ordering are sharp** for the value of a field that is found by its name. -/
theorem isSharp_decided {f : PartitionField} {u : TimeUnit} {form : TimeForm} {c : Column}
    {op : Comparison} {w : Whole} {i : Nat} {a : Value} {o : Option Bool} (hf : f.transform = .time u)
    (hform : u.form? c.field.type = some form)
    (hcolumn : ∀ col, r.partitionSchema.column r.caseSensitive f.name = .ok col →
      col.field.IsPrimitive → col = partitionColumn f c.field.type i)
    (ha : d.at i = .ok a) (hw : form.inCalendar w.toInt = true) (hop : op.isOrdering = true)
    (hsingle : r.spec.fieldsOfSource c.field.id = [f])
    (h : r.decide? d (.compare op c (form.literal w)) = .ok o) :
    IsSharp l f.transform (.compare op c (form.literal w)) a (decided l o) := by
  -- what is decided about the numbers of the unit is decided about the values sent to it
  have htest (n : Int) : (Predicate.compare op c (form.literal w)).test (.int n) =
      .ok (op.holds n w.toInt) := by
    rw [Predicate.test, TimeForm.value_literal,
      Predicate.testCompare_int (Comparison.isBeginning_of_isOrdering hop)]
  rw [hf]
  refine isSharp_of_decision ?null (fun b hb v hv => ?decided) fun hb v hv b => ?undecided
  case null =>
    rintro rfl
    exact decide?_ordering_null hf hform hcolumn ha hw hop hsingle h
  case decided =>
    obtain ⟨x, rfl⟩ := sends_time_inv hform hv
    obtain ⟨n, rfl, hn, hx⟩ := (sends_time_iff hform).mp hv
    subst hb
    rw [htest, decide?_ordering_unit hf hform hcolumn ha hw hop hsingle ⟨n, hn, hx⟩ h n hx]
  case undecided =>
    obtain ⟨x, rfl⟩ := sends_time_inv hform hv
    obtain ⟨n, _, hn, hx⟩ := (sends_time_iff hform).mp hv
    subst hb
    obtain ⟨m, hm, hmx, hholds⟩ :=
      decide?_ordering_unit hf hform hcolumn ha hw hop hsingle ⟨n, hn, hx⟩ h b
    exact ⟨.int m, (sends_time_iff hform).mpr ⟨m, rfl, hm, hmx⟩, by rw [htest, hholds]⟩

/-- **Sharp residuals.** Let a column of dates or moments have a single partition field, which cuts it to a
unit of time, and let the literal of an ordering lie inside the calendar. If the field is not shadowed, every
residual of the ordering is sharp for the value at its position. If it is shadowed, the value at its position is
not looked at: as soon as any value of the column satisfies the ordering, each partition with a residual can be
changed at this position alone so that it has the same residual and this one is not sharp. A field whose spec
is derived from primitive columns is shadowed if a field behind it has its id or a name that agrees; the only
field of a spec, or the last one, never is. -/
theorem residual_time_sharp {f : PartitionField} {u : TimeUnit} {form : TimeForm} {c : Column}
    {op : Comparison} {b : Literal} {w : Whole} {i : Nat}
    (hmake : make spec (.leaf l) caseSensitive schema = .ok r)
    (hl : l.StandsFor schema caseSensitive (.compare op c b)) (hop : op.isOrdering = true)
    (hsingle : spec.fieldsOfSource c.field.id = [f]) (hf : f.transform = .time u)
    (hform : c.field.type.timeForm? = some form) (hb : b.value = .ofWhole w)
    (hw : form.inCalendar w.toInt = true) (hi : spec.fields[i]? = some f) :
    (¬ r.partitionSchema.IsShadowed r.caseSensitive i → ∀ d a R, d.at i = .ok a →
        r.residual d = .ok R → IsSharp l f.transform (.compare op c b) a R) ∧
      (r.partitionSchema.IsShadowed r.caseSensitive i →
        (∃ v, c.field.type.holds v = true ∧ (Predicate.compare op c b).test v = .ok true) →
        ∀ d a R, d.at i = .ok a → r.residual d = .ok R → ∃ d' a',
          (∀ j, j ≠ i → d'.at j = d.at j) ∧ d'.at i = .ok a' ∧ r.residual d' = .ok R ∧
            ¬ IsSharp l f.transform (.compare op c b) a' R) ∧
      (spec.HasPrimitiveSources schema →
        (r.partitionSchema.IsShadowed r.caseSensitive i ↔ ∃ g ∈ spec.fields.drop (i + 1),
          g.fieldId = f.fieldId ∨
            Schema.nameKey caseSensitive g.name = Schema.nameKey caseSensitive f.name)) := by
  have hpart : spec.isUnpartitioned = false := by
    cases hfields : spec.fields with
    | nil => simp [hfields] at hi
    | cons g rest => simp [PartitionSpec.isUnpartitioned, hfields]
  obtain ⟨hc, rfl⟩ := ordering_of_standsFor hl hform hb
  have hresidual := residual_leaf hpart hmake hl
  have hfield := form?_of_make hpart hmake hi (sourceId_of_single hsingle ▸ hc) hf hform
  refine ⟨fun hshadowed d a R ha h => ?sharp, fun hshadowed hsome d a R ha h => ?blind,
    fun hsources => isShadowed_iff hpart hmake hsources hi⟩
  case sharp =>
    obtain ⟨o, ho, rfl⟩ := map_eq_ok.mp ((hresidual d).symm.trans h)
    obtain ⟨_, hkeep, _, _⟩ := make_keeps hpart hmake
    exact isSharp_decided hf hfield (fun _ => column_of_not_isShadowed hpart hmake hi
      (sourceId_of_single hsingle ▸ hc) (TimeUnit.primitive_of_timeForm? hform) hshadowed)
      ha hw hop (hkeep ▸ hsingle) ho
  case blind =>
    -- the residual stays when the value of the field becomes null, or that of a row that matches
    obtain ⟨v, hv, htest⟩ := hsome
    obtain ⟨x, hsends⟩ := exists_sends_time hfield hv
    rw [← hf] at hsends
    have hother (a' : Value) : ∃ d', (∀ j, j ≠ i → d'.at j = d.at j) ∧ d'.at i = .ok a' ∧
        r.residual d' = .ok R := by
      obtain ⟨d', hself, hagree⟩ := Value.exists_replaced ha a'
      refine ⟨d', hagree, hself, ?_⟩
      rw [hresidual, decide?_of_isShadowed (p := .compare op c (form.literal w)) hpart hmake hi hsingle
        hshadowed hagree, ← hresidual, h]
    by_cases hfalse : R = .constant false
    · obtain ⟨d', hagree, hself, hR⟩ := hother x
      refine ⟨d', x, hagree, hself, hR, fun hsharp => ?_⟩
      exact (hsharp.none ⟨v, hsends⟩).mp hfalse ⟨v, hsends, htest⟩
    · obtain ⟨d', hagree, hself, hR⟩ := hother .null
      exact ⟨d', .null, hagree, hself, hR, fun hsharp => hfalse (hsharp.ofNull rfl)⟩

/-- The first day of 1970 has moments before and after its fifth microsecond, so an ordering with that
moment is kept. -/
theorem residual_time_sharp_day :
    let c : Column := ⟨⟨1, "ts", .primitive .timestamp, false, none⟩, ⟨0, []⟩⟩
    let p : Predicate Column := .compare .less c (.timestamp (.number 5))
    (¬ ∀ v, (Transform.time .day).Sends c.field.type v (.int 0) → p.test v = .ok true) ∧
      ∃ v, (Transform.time .day).Sends c.field.type v (.int 0) ∧ p.test v = .ok true := by
  intro c p
  let schema := Schema.ofFields [c.field]
  let spec : PartitionSpec := ⟨0, [⟨1, 1000, .time .day, "ts_day"⟩]⟩
  let l : Leaf := .unbound (.compare .less "ts" (.long (.number 5)))
  let r : ResidualEvaluator := ⟨schema, spec, .leaf l, true,
    Schema.ofFields [⟨1000, "ts_day", .primitive .date, false, none⟩]⟩
  have hmake : make spec (.leaf l) true schema = .ok r := rfl
  have hl : l.StandsFor schema true p := ⟨_, rfl, Or.inl rfl⟩
  have hresidual : r.residual (.record [.int 0]) = .ok (.leaf l) := rfl
  obtain ⟨hsharp, _⟩ := residual_time_sharp (w := .number 5) (i := 0) hmake hl rfl rfl rfl rfl rfl
    (by decide) rfl
  -- a single field is the last one
  have hday := hsharp (Schema.not_isShadowed_last (Nat.le_refl 1)) _ _ _ rfl hresidual
  have hsome : ∃ v, (Transform.time .day).Sends c.field.type v (.int 0) := ⟨.int 0, by decide, rfl⟩
  refine ⟨fun hall => ?_, ?_⟩
  · have := (hday.all hsome).mpr hall
    simp at this
  · by_contra hnone
    have := (hday.none hsome).mpr hnone
    simp at this

/-- **The value of another field decides.** The names of two partition fields agree when case is ignored, and
the projection for the day is evaluated on the value of the field behind it. All moments of the first day of
1970 lie before the sixth one, but the residual for that day is false. -/
theorem residual_time_of_agreeing_names :
    let c : Column := ⟨⟨1, "ts", .primitive .timestamp, false, none⟩, ⟨0, []⟩⟩
    let schema := Schema.ofFields [c.field, ⟨2, "y", .primitive .int, false, none⟩]
    let spec : PartitionSpec := ⟨0, [⟨1, 1000, .time .day, "A"⟩, ⟨2, 1001, .identity, "a"⟩]⟩
    let l : Leaf := .unbound (.compare .less "ts" (.long (.number 432000000000)))
    let p : Predicate Column := .compare .less c (.timestamp (.number 432000000000))
    l.StandsFor schema false p ∧ spec.fieldsOfSource 1 = [⟨1, 1000, .time .day, "A"⟩] ∧
      (∃ v, (Transform.time .day).Sends c.field.type v (.int 0)) ∧
      (∀ v, (Transform.time .day).Sends c.field.type v (.int 0) → p.test v = .ok true) ∧
      ∃ r, make spec (.leaf l) false schema = .ok r ∧
        r.residual (.record [.int 0, .int 7]) = .ok (.constant false) := by
  intro c schema spec l p
  refine ⟨⟨_, by cbv, Or.inl rfl⟩, by decide, ⟨.int 0, by decide, rfl⟩, fun v hv => ?before, ?_⟩
  case before =>
    have hform : TimeUnit.day.form? c.field.type = some .moment := rfl
    obtain ⟨n, rfl, _, hn⟩ := (sends_time_iff hform).mp hv
    obtain ⟨_, hday⟩ := Epoch.dayOfMicros_eq_ok.mp hn
    -- The partition's day ends before the bound, so the filter holds throughout.
    have hbefore : n < 432000000000 := by
      simp only [Timestamp.dayOfMicros, TimeOfDay.microsPerDay] at hday
      omega
    have hvalue : (Literal.timestamp (.number 432000000000)).value =
        .ofWhole (.number 432000000000) := rfl
    have hless : Comparison.less.isBeginning = false := rfl
    rw [Predicate.test, hvalue, Predicate.testCompare_int hless]
    exact congrArg Except.ok (decide_eq_true hbefore)
  exact ⟨⟨schema, spec, .leaf l, false, Schema.ofFields
    [⟨1000, "A", .primitive .date, false, none⟩, ⟨1001, "a", .primitive .int, false, none⟩]⟩,
    by cbv, by cbv⟩

end ResidualEvaluator

end PartitionPruning
