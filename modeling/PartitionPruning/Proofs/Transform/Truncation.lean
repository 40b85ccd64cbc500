import PartitionPruning.Proofs.Transform.Definedness

/-!
# Truncations that answer

Numbers, decimals and sequences are truncated in ways of their own. Together with the other transforms
this gives the whole picture: a projection answers exactly if its transform permits the predicate.

* **`answers_truncate_number`**, **`answers_truncate_decimal`**, **`answers_beginning`** — one lemma for
  each form of truncation.
* **`answers_iff_permits`** — for every transform.
-/

namespace PartitionPruning

open Outcome

namespace Transform

variable {side : Side} {name : String} {p : Predicate Column} {c : Column} {v : Value} {q : Primitive}

/-! ## Truncated values -/

section Truncated

variable {width : Nat} {form : TruncateForm} {f : Value → Except Fault Value}

/-- A literal with an integer is transformed to an integer. -/
theorem transformed_integer {l : Literal} {w : Whole} (h : l.value.whole? = some w) :
    l.transformed (Value.unlessNull (TruncateForm.cutNumber width)) =
      .ok (.long (.number (Numeral.floorMultiple width w.toInt))) := by
  have hcut : TruncateForm.cutNumber width l.value =
      .ok (.int (Numeral.floorMultiple width w.toInt)) := by
    rw [Value.eq_ofWhole_of_whole? h]
    cases w <;> rfl
  rw [Literal.transformed, Value.unlessNull, l.isNull_value, if_neg (by simp), hcut]
  rfl

/-- A literal with a decimal is transformed if the decimal has a scale. -/
theorem transformed_decimal_eq_ok {l t : Literal}
    (h : l.transformed (Value.unlessNull (TruncateForm.cutDecimal width)) = .ok t) :
    ∃ d scale, l.value = .decimal d ∧ d.scale? = some scale ∧
      t = .decimal (d.truncate width scale) := by
  obtain ⟨v, hv, ht⟩ := bind_eq_ok.mp h
  rw [Value.unlessNull, l.isNull_value, if_neg (by simp)] at hv
  cases hl : l.value with
  | decimal d =>
    rw [hl] at hv
    simp only [TruncateForm.cutDecimal] at hv
    split at hv
    · rename_i scale hscale
      obtain rfl := Except.ok.inj hv
      exact ⟨d, scale, rfl, hscale, (Except.ok.inj ht).symm⟩
    · simp at hv
  | _ => simp [hl, TruncateForm.cutDecimal] at hv

/-- Integers are truncated to integers, which are marked at most. -/
theorem isTaken_integer (hq : q = .int ∨ q = .long) {l : Literal} {w : Whole}
    (h : l.value.whole? = some w) :
    Projection.IsTaken (Value.unlessNull (TruncateForm.cutNumber width)) q (.ok l) := by
  refine Projection.isTaken_ok.mpr ⟨_, transformed_integer h, ?_⟩
  rcases hq with rfl | rfl <;> exact ⟨_, rfl⟩

/-- A converted literal of a type of integers is an integer or a mark. -/
theorem long_or_mark (hq : q = .int ∨ q = .long) {l : Literal} (hl : Literal.IsConverted q l) :
    (∃ w, l = .long w) ∨ l.isMark = true := by
  rcases hq with rfl | rfl <;> obtain ⟨n, rfl⟩ := hl
  · rcases Literal.clamp_cases .int (-2147483648) 2147483647 n with ⟨h, _⟩ | h | h <;>
      simp [Literal.toInt, h, Literal.isMark]
  · rcases Literal.clamp_cases .long (-9223372036854775808) 9223372036854775807 n with
      ⟨h, _⟩ | h | h <;> simp [Literal.toLong, h, Literal.isMark]

theorem answers_truncate_number (hq : q = .int ∨ q = .long) (hp : p.term.field.type = .primitive q)
    (hc : c.field.type = .primitive q) (hv : q.mayHold v)
    (hlits : ∀ l ∈ p.literals, Literal.IsConverted q l) :
    ((truncate width).projection side name p).Answers c v ↔
      (truncate width).Permits side q p v := by
  have hform : (DataType.primitive q).truncateForm? = some .number := by
    rcases hq with rfl | rfl <;> rfl
  have hf : (truncate width).function (.primitive q) =
      .ok (Value.unlessNull (TruncateForm.cutNumber width)) := by
    simp only [function, hform]
    rfl
  have hwhole {l : Literal} (hl : q.hasKind l.value = true) : ∃ w, l.value.whole? = some w := by
    rcases hq with rfl | rfl <;> exact Option.isSome_iff_exists.mp hl
  have hnan : ∀ l t t' : Literal,
      l.transformed (Value.unlessNull (TruncateForm.cutNumber width)) = .ok t →
        t.convert (.primitive q) = .ok t' → t'.value.isUnordered = false := by
    intro l t t' _ ht'
    obtain ⟨w, hw⟩ := hwhole (Literal.kind_of_convert ht')
    exact isUnordered_of_whole (by rw [hw]; rfl)
  -- literals of integers are always taken, and only marks have no boundary
  have htaken {l : Literal} (hl : l ∈ p.literals) :
      Projection.IsTaken (Value.unlessNull (TruncateForm.cutNumber width)) q (.ok l) := by
    obtain ⟨w, hw⟩ := hwhole (Literal.hasKind_of_isConverted (hlits l hl))
    exact isTaken_integer hq hw
  rw [projection_truncate (by rw [sourceOf, hp]; exact hf) (by rw [sourceOf, hp]; exact hform)
    (by simp)]
  refine Projection.answers_shaped (fun _ => rfl) hc hv (fun l hl t ht => ?_)
    (fun l _ t t' ht ht' => hnan l t t' ht ht') (fun ts hts => Or.inr fun t ht => ?_)
    (fun l hl => ?_) (fun l hl op => ?_)
  · obtain ⟨w, hw⟩ := hwhole (Literal.hasKind_of_isConverted (hlits l hl))
    obtain rfl := Except.ok.inj ((transformed_integer hw).symm.trans ht)
    rfl
  · obtain ⟨l, hl, hlt⟩ := exists_of_mem_result hts ht
    obtain ⟨t', ht', hconvert⟩ := Projection.isTaken_ok.mp (htaken hl)
    obtain rfl : t' = t := Except.ok.inj (ht'.symm.trans hlt)
    exact hconvert
  · simp [htaken hl, Reaches, hform]
  · simp only [answers_ofMoved hc hv hnan, Reaches, AsksComparison, hform, Option.some.injEq,
      reduceCtorEq, false_implies, implies_true, true_and, forall_true_left]
    -- an integer stays one when it is moved, and a mark is no boundary
    rcases long_or_mark hq (hlits l hl) with ⟨w, rfl⟩ | hmark
    · refine ⟨fun _ => rfl, fun _ => ⟨⟨_, rfl⟩, fun step _ => ?_⟩⟩
      obtain ⟨w', hw'⟩ : ∃ w', (Literal.long w).moved step = .ok (.long w') := by
        unfold Literal.moved
        split <;> exact ⟨_, rfl⟩
      rw [hw']
      exact isTaken_integer hq (Value.whole?_ofWhole w')
    · rw [hmark]
      cases l <;> simp [Literal.isMark, Projection.boundary] at hmark ⊢

/-- Decimals of the scale of the type are truncated to such decimals. -/
theorem isTaken_decimal {precision scale : Nat} {d : Decimal}
    (hd : d.scale? = some scale ∨ d.scale? = none) (step : Int) :
    Projection.IsTaken (Value.unlessNull (TruncateForm.cutDecimal width)) (.decimal precision scale)
        ((Literal.decimal d).moved step) ↔ (Literal.decimal d).isStable = true := by
  have htaken {x : Decimal} (hx : x.scale? = some scale) :
      Projection.IsTaken (Value.unlessNull (TruncateForm.cutDecimal width)) (.decimal precision scale)
        (.ok (.decimal x)) := by
    refine Projection.isTaken_ok.mpr ⟨.decimal (x.truncate width scale), ?_, ?_⟩
    · simp [Literal.transformed, Value.unlessNull, Literal.value, Value.isNull,
        TruncateForm.cutDecimal, hx, Literal.ofValue]
    · exact ⟨_, Literal.decimalOfScale_eq_ok.mpr ⟨Decimal.scale?_ofUnscaled _ _, rfl⟩⟩
  -- a decimal of the scale is moved and cut to decimals of the scale, one without a scale is refused
  rcases hd with hscale | hnone
  · have hstable : (Literal.decimal d).isStable = true := by simp [Literal.isStable, hscale]
    refine ⟨fun _ => hstable, fun _ => ?_⟩
    unfold Literal.moved
    split
    · exact htaken hscale
    · simp only [Literal.advance, Literal.stepDecimal, hscale]
      exact htaken (Decimal.scale?_ofUnscaled _ _)
  · have hstable : (Literal.decimal d).isStable = false := by simp [Literal.isStable, hnone]
    rw [hstable]
    refine ⟨?_, by simp⟩
    rintro ⟨t, ht, _⟩
    obtain ⟨m, hm, hmt⟩ := bind_eq_ok.mp ht
    unfold Literal.moved at hm
    split at hm
    · obtain rfl := Except.ok.inj hm
      obtain ⟨d', scale', hd', hscale', _⟩ := transformed_decimal_eq_ok hmt
      obtain rfl : d = d' := by simpa [Literal.value] using hd'
      simp [hnone] at hscale'
    · simp [Literal.advance, Literal.stepDecimal, hnone] at hm

theorem answers_truncate_decimal {precision scale : Nat}
    (hp : p.term.field.type = .primitive (.decimal precision scale))
    (hc : c.field.type = .primitive (.decimal precision scale))
    (hv : (Primitive.decimal precision scale).mayHold v)
    (hlits : ∀ l ∈ p.literals, Literal.IsConverted (.decimal precision scale) l) :
    ((truncate width).projection side name p).Answers c v ↔
      (truncate width).Permits side (.decimal precision scale) p v := by
  have hf : (truncate width).function (.primitive (.decimal precision scale)) =
      .ok (Value.unlessNull (TruncateForm.cutDecimal width)) := rfl
  have hform : (sourceOf p).truncateForm? = some .decimal := by
    rw [sourceOf, hp]
    rfl
  -- What comes of a truncation is a number of the column's scale.
  have hnan : ∀ l t t' : Literal,
      l.transformed (Value.unlessNull (TruncateForm.cutDecimal width)) = .ok t →
        t.convert (.primitive (.decimal precision scale)) = .ok t' →
          t'.value.isUnordered = false := by
    intro l t t' ht ht'
    obtain ⟨d, s, _, _, rfl⟩ := transformed_decimal_eq_ok ht
    simp only [Literal.convert] at ht'
    obtain ⟨_, rfl⟩ := Literal.decimalOfScale_eq_ok.mp ht'
    rfl
  have htaken {l : Literal} (hl : l ∈ p.literals) (step : Int) :
      Projection.IsTaken (Value.unlessNull (TruncateForm.cutDecimal width))
          (.decimal precision scale) (l.moved step) ↔
        (truncate width).Reaches (.primitive (.decimal precision scale)) step l := by
    obtain ⟨x, rfl, hx⟩ := hlits l hl
    simp only [isTaken_decimal hx, Reaches, DataType.truncateForm?, forall_true_left]
  rw [projection_truncate (by rw [sourceOf, hp]; exact hf) hform (by simp)]
  refine Projection.answers_shaped (fun _ => rfl) hc hv (fun l _ t ht => ?_)
    (fun l _ t t' ht ht' => hnan l t t' ht ht') (fun ts hts => Or.inr fun t ht => ?_)
    (fun l hl => htaken hl 0) (fun l hl op => ?_)
  · obtain ⟨d, s, _, _, rfl⟩ := transformed_decimal_eq_ok ht
    rfl
  · obtain ⟨l, hl, hlt⟩ := exists_of_mem_result hts ht
    obtain ⟨d, s, hd, hs, rfl⟩ := transformed_decimal_eq_ok hlt
    obtain ⟨d', rfl, hscale⟩ := hlits l hl
    obtain rfl : d' = d := by simpa [Literal.value] using hd
    obtain rfl : s = scale := by simpa [hs] using hscale
    exact ⟨_, Literal.decimalOfScale_eq_ok.mpr ⟨Decimal.scale?_ofUnscaled _ _, rfl⟩⟩
  · have hboundary : Succeeds (Projection.boundary l) := by
      obtain ⟨x, rfl, _⟩ := hlits l hl
      exact ⟨_, rfl⟩
    simp only [answers_ofMoved hc hv hnan, step?, AsksComparison, DataType.truncateForm?, hboundary,
      Option.some.injEq, reduceCtorEq, false_implies, true_and, and_true]
    exact forall₂_congr fun step _ => htaken hl step

/-- Beginnings can always be asked for. -/
theorem answers_beginning (hp : p.term.field.type = .primitive q) (hq : q.isSequence = true)
    (hc : c.field.type = .primitive q) (hv : q.mayHold v)
    (hlits : ∀ l ∈ p.literals, Literal.IsConverted q l) :
    ((truncate width).projection side name p).Answers c v ↔
      (truncate width).Permits side q p v := by
  have hform := truncateForm?_of_isSequence hq
  -- Cutting a sequence never fails and keeps its type, so nothing is left to ask of the literals.
  have hbeginnings : q.hasBeginnings = true := by
    cases q <;> simp [Primitive.isSequence] at hq <;> rfl
  have hsequence {w : Value} (hw : q.hasKind w = true) :
      w.isUnordered = false ∧ w.isHashable = true := by
    rcases Primitive.sequence_cases hq hw hw with ⟨s, _, rfl, _⟩ | ⟨as, _, rfl, _⟩ <;>
      exact ⟨rfl, rfl⟩
  have hbeginning {l u : Literal} (hl : l ∈ p.literals)
      (hu : l.transformed (Value.unlessNull (TruncateForm.cutSequence width)) = .ok u) :
      u.convert (.primitive q) = .ok u ∧ q.hasKind u.value = true := by
    obtain ⟨u', hu', hconvert, _, hkind, _⟩ := transformed_beginning width hq (hlits l hl)
    obtain rfl : u' = u := Except.ok.inj (hu'.symm.trans hu)
    exact ⟨hconvert, hkind⟩
  rw [projection_beginning width hp hq hlits]
  refine Projection.answers_shaped (fun _ => rfl) hc hv (fun l hl u hu => ?_)
    (fun l _ u u' _ hu' => ?_) (fun ts hts => Or.inr fun u hu => ?_) (fun l hl => ?_)
    (fun l hl op => ?_)
  · exact (hsequence (hbeginning hl hu).2).2
  · exact (hsequence (Literal.kind_of_convert hu')).1
  · obtain ⟨l, hl, hlu⟩ := exists_of_mem_result hts hu
    exact ⟨u, (hbeginning hl hlu).1⟩
  · obtain ⟨u, hu, hconvert, _⟩ := transformed_beginning width hq (hlits l hl)
    have htaken := Projection.isTaken_ok.mpr ⟨u, hu, u, hconvert⟩
    simp [htaken, Reaches, hform]
  · obtain ⟨u, hu, hconvert, hmark, hkind, _⟩ := transformed_beginning width hq (hlits l hl)
    simp only [Reaches, AsksComparison, hform, Option.some.injEq, reduceCtorEq, false_implies,
      implies_true, and_self, iff_true]
    unfold ofPrefix
    split
    · refine Projection.answers_compare.mpr ⟨u, hu, ?_⟩
      exact (Predicate.succeeds_outcome_compare_iff hc hv hconvert (hsequence hkind).1 hmark).mpr
        fun _ => Or.inr hbeginnings
    · exact Projection.answers_nothing

end Truncated

/-! ## All transforms -/

/-- **Projections that can be asked** are those of the predicates that the transform permits. -/
theorem answers_iff_permits {t : Transform} {q' : Primitive}
    (hcan : t.canTransform (.primitive q) = true ∨ ∃ n, t = .unknown n)
    (hp : p.term.field.type = .primitive q) (hq' : t.resultType (.primitive q) = .primitive q')
    (hc : c.field.type = .primitive q') (hv : q'.mayHold v)
    (hlits : ∀ l ∈ p.literals, Literal.IsConverted q l) (hdistinct : Literal.Distinct p.literals) :
    (t.projection side name p).Answers c v ↔ t.Permits side q p v := by
  cases t with
  | identity =>
    obtain rfl : q = q' := by simpa [resultType] using hq'
    exact answers_identity hc hv hlits
  | void | unknown =>
    -- Neither projects anything, and neither asks for anything.
    have hnothing : (Projection.nothing).Answers c v := Projection.answers_nothing
    cases side <;> cases p <;>
      simp [projection, project, strictProject, hnothing, Permits, step?, projectsMember,
        AsksComparison]
  | bucket count =>
    obtain ⟨form, hform⟩ : ∃ form, (DataType.primitive q).hashForm? = some form :=
      Option.isSome_iff_exists.mp (by simpa [canTransform] using hcan)
    obtain rfl : Primitive.int = q' := by simpa [resultType] using hq'
    exact answers_bucket hform hp hc hv hlits
  | truncate width =>
    obtain rfl : q = q' := by simpa [resultType] using hq'
    cases q with
    | int => exact answers_truncate_number (Or.inl rfl) hp hc hv hlits
    | long => exact answers_truncate_number (Or.inr rfl) hp hc hv hlits
    | decimal precision scale => exact answers_truncate_decimal hp hc hv hlits
    | string | binary => exact answers_beginning hp rfl hc hv hlits
    | _ => simp [canTransform, DataType.truncateForm?] at hcan
  | time u =>
    obtain ⟨form, hform⟩ : ∃ form, u.form? (DataType.primitive q) = some form :=
      Option.isSome_iff_exists.mp (by simpa [canTransform] using hcan)
    rw [TimeUnit.resultType_time] at hq'
    exact answers_time hform hp hq' hc hv hlits hdistinct

end Transform

end PartitionPruning
