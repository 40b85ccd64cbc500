import PartitionPruning.Proofs.Transform.Buckets
import PartitionPruning.Proofs.Transform.Permission
import PartitionPruning.Proofs.Transform.Time

/-!
# Projections that answer

The identity, buckets and units of time answer exactly the predicates that they permit. A transform that
moves boundaries answers if the moved boundary exists and the partition field takes what it is
transformed to.

* **`answers_identity`**, **`answers_bucket`**, **`answers_time`** — one lemma for each transform.
* **`answers_ofMoved`** — what the transforms that move boundaries have in common.
-/

namespace PartitionPruning

open Outcome

/-! ## The identity -/

namespace Literal

variable {p : Primitive} {l l' : Literal}

/-- A converted literal can be converted again if it is no mark and no decimal without a scale. -/
theorem succeeds_convert_iff (h : IsConverted p l) :
    Succeeds (l.convert (.primitive p)) ↔ l.isStable = true :=
  ⟨fun ⟨_, hl'⟩ => isStable_of_convert h hl', fun hstable => ⟨l, convert_of_isStable h hstable⟩⟩

theorem isUnordered_of_isStable (h : l.isStable = true) : l.value.isUnordered = false := by
  cases l with
  | decimal d => cases d <;> simp_all [isStable, Decimal.scale?, value, Value.isUnordered, Decimal.isNaN]
  | long w | date w | time w | timestamp w => cases w <;> rfl
  | aboveMax t | belowMin t => simp [isStable] at h
  | _ => rfl

/-- What a converted literal is converted to once more can be ordered. -/
theorem isUnordered_of_convert (h : IsConverted p l) (hl' : l.convert (.primitive p) = .ok l') :
    l'.value.isUnordered = false := by
  have hstable := isStable_of_convert h hl'
  obtain rfl : l = l' := Except.ok.inj ((convert_of_isStable h hstable).symm.trans hl')
  exact isUnordered_of_isStable hstable

end Literal

namespace Transform

variable {side : Side} {name : String} {p : Predicate Column} {c : Column} {v : Value} {q : Primitive}

theorem answers_identity (hc : c.field.type = .primitive q) (hv : q.mayHold v)
    (hlits : ∀ l ∈ p.literals, Literal.IsConverted q l) :
    (identity.projection side name p).Answers c v ↔ identity.Permits side q p v := by
  rw [projection_identity, Projection.answers_some]
  cases p with
  | unary op d => exact ⟨fun _ => trivial, fun _ => Predicate.succeeds_outcome_unary hv⟩
  | compare op d l =>
    have hl := hlits l (List.mem_singleton.mpr rfl)
    -- The literal is converted a second time, to the type it has already.
    have hiff (hstable : l.isStable = true) :
        Succeeds (Predicate.outcome c v (.compare op name l)) ↔
          (op.isBeginning = true → v.isNull = true ∨ q.hasBeginnings = true) :=
      Predicate.succeeds_outcome_compare_iff hc hv (Literal.convert_of_isStable hl hstable)
        (Literal.isUnordered_of_isStable hstable) (Literal.isMark_of_isStable hstable)
    simp only [Permits, step?, Reaches, AsksComparison, Option.some.injEq, forall_eq']
    constructor
    · rintro ⟨t, ht⟩
      obtain ⟨l', hl'⟩ := Predicate.outcome_compare_inv ht
      have hstable := Literal.isStable_of_convert hl (hc ▸ hl')
      exact ⟨hstable, (hiff hstable).mp ⟨t, ht⟩⟩
    · rintro ⟨hstable, hbeginning⟩
      exact (hiff hstable).mpr hbeginning
  | member op d ls =>
    have hnan : ∀ l ∈ Literal.relisted ls, ∀ l', l.convert (.primitive q) = .ok l' →
        l'.value.isUnordered = false := fun l hl l' hl' =>
      Literal.isUnordered_of_convert (hlits l (Literal.mem_relisted.mp hl)) hl'
    simp only [Permits, projectsMember, Reaches, forall_true_left]
    refine (Predicate.succeeds_evaluate_ofSet hc hv hnan).trans
      ⟨fun h l hl => ?_, fun h l hl => ?_⟩
    · exact (Literal.succeeds_convert_iff (hlits l hl)).mp (h l (Literal.mem_relisted.mpr hl))
    · have hmem := Literal.mem_relisted.mp hl
      exact (Literal.succeeds_convert_iff (hlits l hmem)).mpr (h l hmem)

/-! ## Buckets -/

/-- Values are hashed if they are no numbers of more than 64 bits. -/
theorem succeeds_hash {form : HashForm} {w : Value}
    (hform : (DataType.primitive q).hashForm? = some form) (hw : q.hasKind w = true) :
    Succeeds (form.hash w) ↔ (form = .number → ∀ n, w.whole? = some n →
      HashForm.smallest ≤ n.toInt ∧ n.toInt ≤ HashForm.largest) := by
  rw [HashForm.hash, succeeds_map]
  -- Only numbers are hashed through a fixed width.
  cases form with
  | number =>
    obtain ⟨n, hn⟩ : ∃ n, w.whole? = some n := by
      cases q <;> simp only [DataType.hashForm?, Option.some.injEq, reduceCtorEq] at hform <;>
        exact Option.isSome_iff_exists.mp hw
    simp only [HashForm.toBytes, hn, HashForm.numberBytes, Option.some.injEq, forall_eq',
      forall_true_left]
    split
    · rename_i hrange
      exact ⟨fun _ => hrange, fun _ => ⟨_, rfl⟩⟩
    · rename_i hrange
      simp [hrange]
  | decimal | bytes | uuid =>
    refine ⟨fun _ => by simp, fun _ => ?_⟩
    cases q <;> simp only [DataType.hashForm?, Option.some.injEq, reduceCtorEq] at hform <;>
      cases w <;> simp only [Primitive.hasKind, Bool.false_eq_true] at hw <;> exact ⟨_, rfl⟩

/-- A literal is put into a bucket if it is hashed. -/
theorem transformed_bucket {count : Nat} {form : HashForm} {f : Value → Except Fault Value}
    (hform : (DataType.primitive q).hashForm? = some form)
    (hf : (bucket count).function (.primitive q) = .ok f) (l : Literal) :
    l.transformed f = (form.hash l.value).map fun h => .long (.number (bucketOfHash count h)) := by
  simp only [function, hform, Except.ok.injEq] at hf
  subst hf
  simp only [Literal.transformed, Value.unlessNull, l.isNull_value, Bool.false_eq_true, if_false]
  cases form.hash l.value with
  | error fault => rfl
  | ok h => rfl

theorem answers_bucket {count : Nat} {form : HashForm}
    (hform : (DataType.primitive q).hashForm? = some form) (hp : p.term.field.type = .primitive q)
    (hc : c.field.type = .primitive .int) (hv : Primitive.int.mayHold v)
    (hlits : ∀ l ∈ p.literals, Literal.IsConverted q l) :
    ((bucket count).projection side name p).Answers c v ↔ (bucket count).Permits side q p v := by
  obtain ⟨f, hf⟩ : ∃ f, (bucket count).function (.primitive q) = .ok f := by simp [function, hform]
  -- a bucket is an integer that the partition field takes
  have hbucket {l u : Literal} (hu : l.transformed f = .ok u) :
      u.convert (.primitive .int) = .ok u ∧ u.value.isHashable = true ∧
        u.value.isUnordered = false := by
    rw [transformed_bucket hform hf] at hu
    obtain ⟨h, _, rfl⟩ := map_eq_ok.mp hu
    exact ⟨Literal.convert_int (bucketOfHash_bits count h), rfl, rfl⟩
  have hreaches {l : Literal} (hl : l ∈ p.literals) :
      Succeeds (l.transformed f) ↔ (bucket count).Reaches (.primitive q) 0 l := by
    rw [transformed_bucket hform hf, succeeds_map,
      succeeds_hash hform (Literal.hasKind_of_isConverted (hlits l hl)), Reaches, hform,
      Option.some.injEq]
  have hsingle : side.membership.single.isBeginning = false := by cases side <;> rfl
  rw [projection_bucket, sourceOf, hp, hf, ok_bind]
  refine Projection.answers_shaped (fun _ => rfl) hc hv (fun l _ u hu => (hbucket hu).2.1)
    (fun l _ u u' hu hu' => ?_) (fun ts hts => Or.inr fun u hu => ?_) (fun l hl => ?_)
    (fun l hl op => ?_)
  · obtain ⟨hconvert, _, hnan⟩ := hbucket hu
    obtain rfl : u = u' := Except.ok.inj (hconvert.symm.trans hu')
    exact hnan
  · obtain ⟨l, _, hlu⟩ := exists_of_mem_result hts hu
    exact ⟨u, (hbucket hlu).1⟩
  · rw [← hreaches hl]
    refine exists_congr fun u => and_iff_left_of_imp fun hu => ?_
    exact ⟨u, (hbucket hu).1⟩
  · simp only [Projection.ofSingle, step?, AsksComparison, and_true]
    split
    · rename_i hop
      subst hop
      simp only [Option.some.injEq, forall_eq', ← hreaches hl]
      refine Projection.answers_compare.trans (exists_congr fun u => and_iff_left_of_imp fun hu => ?_)
      obtain ⟨hconvert, _, hnan⟩ := hbucket hu
      exact Predicate.succeeds_outcome_compare hc hv hconvert hnan hsingle
    · simp [Projection.answers_nothing]

/-! ## Boundaries that are moved -/

section Moved

variable {f : Value → Except Fault Value} {q' : Primitive}

/-- Boundaries are moved if they are counted. -/
theorem boundary_eq_ok {l l' : Literal} (h : Projection.boundary l = .ok l') : l' = l := by
  cases l <;> simp only [Projection.boundary, reduceCtorEq] at h <;> exact (Except.ok.inj h).symm

/-- **Moved boundaries** can be asked for if they exist and the partition field takes them. -/
theorem answers_ofMoved {op : Comparison} {l : Literal} (hc : c.field.type = .primitive q')
    (hv : q'.mayHold v)
    (hnan : ∀ l t t' : Literal, l.transformed f = .ok t → t.convert (.primitive q') = .ok t' →
      t'.value.isUnordered = false) :
    (Projection.ofMoved side name f op l).Answers c v ↔ Succeeds (Projection.boundary l) ∧
      ∀ step, (side.bound? op).map Prod.snd = some step → Projection.IsTaken f q' (l.moved step) := by
  unfold Projection.ofMoved
  cases hboundary : Projection.boundary l with
  | error fault => simp [Projection.answers_bind]
  | ok l' =>
    obtain rfl := boundary_eq_ok hboundary
    simp only [ok_bind, succeeds_ok, true_and]
    cases hbound : side.bound? op with
    | none => simp [Projection.answers_nothing]
    | some bound =>
      obtain ⟨op', step⟩ := bound
      simp only [Option.map_some, Option.some.injEq, forall_eq']
      -- a converted literal of the partition field can always be compared
      refine Projection.answers_compare.trans (exists_congr fun t => and_congr_right fun ht => ?_)
      obtain ⟨m, _, hmt⟩ := bind_eq_ok.mp ht
      constructor
      · rintro ⟨b, hb⟩
        obtain ⟨t', ht'⟩ := Predicate.outcome_compare_inv hb
        exact ⟨t', hc ▸ ht'⟩
      · rintro ⟨t', ht'⟩
        exact Predicate.succeeds_outcome_compare hc hv ht' (hnan m t t' hmt ht')
          (Side.bound_like hbound).2.1

end Moved

/-! ## Units of time -/

section Units

variable {u : TimeUnit} {form : TimeForm} {f : Value → Except Fault Value}

/-- A converted literal of a type that counts days or moments. -/
theorem literal_of_isConverted {l : Literal} (hform : (DataType.primitive q).timeForm? = some form)
    (hl : Literal.IsConverted q l) : ∃ w, l = form.literal w := by
  cases q <;> simp only [DataType.timeForm?, Option.some.injEq, reduceCtorEq] at hform <;>
    subst hform <;> exact hl

/-- The literal of a unit is one of the partition field. -/
theorem succeeds_convert_unit (u : TimeUnit) (k : Int) :
    Succeeds ((Literal.long (.number k)).convert u.resultType) := by
  cases u <;> exact ⟨_, rfl⟩

/-- A literal has a unit that the partition field takes, unless it is a truth value for a day. -/
theorem isTaken_unit {q' : Primitive} (hq' : u.resultType = .primitive q') (w : Whole) :
    Projection.IsTaken (u.function form) q' (.ok (form.literal w)) ↔
      u.hasUnit form w.toInt = true ∧ (u = .day → form = .day → ∃ n, w = .number n) := by
  rw [← TimeUnit.succeeds_ofForm, Projection.isTaken_ok, ← hq']
  constructor
  · rintro ⟨t, ht, hconvert⟩
    obtain ⟨k, hk, rfl | ⟨b, rfl, rfl, rfl, rfl⟩⟩ := TimeUnit.transformed_cases ht
    · refine ⟨⟨k, hk⟩, ?_⟩
      rintro rfl rfl
      cases w with
      | number n => exact ⟨n, rfl⟩
      | flag b =>
        -- a truth value would have become a literal of its own
        have hflag : Except.ok (Literal.boolean b) = Except.ok (Literal.long (.number k)) := ht
        simp at hflag
    · simp [TimeUnit.resultType, Literal.convert] at hconvert
  · rintro ⟨⟨k, hk⟩, hday⟩
    exact ⟨_, by rw [TimeUnit.transformed_number hday, hk]; rfl, succeeds_convert_unit u k⟩

theorem moved_number_iff (w : Whole) (step : Int) :
    (∃ n, w.moved step = .number n) ↔ (step = 0 → ∃ n, w = .number n) := by
  unfold Whole.moved
  split
  · rename_i hstep
    simp [hstep]
  · rename_i hstep
    simp [hstep]

/-- What is asked of a literal is that it is taken by the partition field. -/
theorem isTaken_moved_iff {q' : Primitive} (hform : u.form? (.primitive q) = some form)
    (hq' : u.resultType = .primitive q') {l : Literal} (hl : Literal.IsConverted q l) (step : Int) :
    Projection.IsTaken (u.function form) q' (l.moved step) ↔ (time u).Reaches (.primitive q) step l := by
  obtain ⟨w, rfl⟩ := literal_of_isConverted (TimeUnit.timeForm?_of_form? hform) hl
  rw [form.moved_literal, isTaken_unit hq']
  simp only [Reaches, hform, TimeForm.value_literal, Value.whole?_ofWhole, Option.some.injEq,
    Whole.toInt_moved, moved_number_iff]
  exact ⟨by rintro h _ _ rfl rfl; exact h, fun h => h form w rfl rfl⟩

/-- Integers can be ordered. -/
theorem isUnordered_of_whole {t : Literal} (h : t.value.whole?.isSome = true) :
    t.value.isUnordered = false := by
  cases ht : t.value <;> simp_all [Value.whole?, Value.isUnordered]

theorem answers_time {q' : Primitive} (hform : u.form? (.primitive q) = some form)
    (hp : p.term.field.type = .primitive q) (hq' : u.resultType = .primitive q')
    (hc : c.field.type = .primitive q') (hv : q'.mayHold v)
    (hlits : ∀ l ∈ p.literals, Literal.IsConverted q l) (hdistinct : Literal.Distinct p.literals) :
    ((time u).projection side name p).Answers c v ↔ (time u).Permits side q p v := by
  have htime := TimeUnit.timeForm?_of_form? hform
  have hnan : ∀ l t t' : Literal, l.transformed (u.function form) = .ok t →
      t.convert (.primitive q') = .ok t' → t'.value.isUnordered = false := by
    intro l t t' _ ht'
    have hkind := Literal.kind_of_convert ht'
    apply isUnordered_of_whole
    cases u <;> simp only [TimeUnit.resultType, DataType.primitive.injEq] at hq' <;> subst hq' <;>
      exact hkind
  rw [projection_time, sourceOf, hp, TimeUnit.function_time hform, ok_bind]
  refine Projection.answers_shaped (fun _ => rfl) hc hv (fun l hl t ht => ?_)
    (fun l _ t t' ht ht' => hnan l t t' ht ht') (fun ts hts => ?_)
    (fun l hl => isTaken_moved_iff hform hq' (hlits l hl) 0) (fun l hl op => ?_)
  · obtain ⟨w, rfl⟩ := literal_of_isConverted htime (hlits l hl)
    obtain ⟨k, _, rfl | ⟨b, _, rfl, _⟩⟩ := TimeUnit.transformed_cases ht <;> rfl
  · by_cases hday : u = .day ∧ form = .day
    · -- the day of a day is the day itself, so the days stay distinct
      left
      obtain ⟨rfl, rfl⟩ := hday
      refine hdistinct.of_keys (map_eq_of_mapM hts fun l t hlt => ?_)
      have hself : TimeUnit.function .day .day l.value = .ok l.value := by
        simp [TimeUnit.function, Value.unlessNull, l.isNull_value, TimeUnit.cut]
      rw [Literal.transformed, hself, ok_bind] at hlt
      rw [Literal.value_of_ofValue l.isScalar_value hlt]
    -- other units are counts, which the partition field takes whatever they are
    · right
      intro t ht
      obtain ⟨l, hl, hlt⟩ := exists_of_mem_result hts ht
      obtain ⟨w, rfl⟩ := literal_of_isConverted htime (hlits l hl)
      obtain ⟨k, _, rfl | ⟨b, _, _, hu, hf⟩⟩ := TimeUnit.transformed_cases hlt
      · rw [← hq']
        exact succeeds_convert_unit u k
      · exact absurd ⟨hu, hf⟩ hday
  · have hboundary : Succeeds (Projection.boundary l) := by
      obtain ⟨w, rfl⟩ := literal_of_isConverted htime (hlits l hl)
      exact ⟨_, form.boundary_literal w⟩
    simp only [answers_ofMoved hc hv hnan, step?, AsksComparison, hboundary, true_and, and_true]
    exact forall₂_congr fun step _ => isTaken_moved_iff hform hq' (hlits l hl) step

end Units

end Transform

end PartitionPruning
