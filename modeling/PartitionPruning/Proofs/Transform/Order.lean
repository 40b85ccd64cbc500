import PartitionPruning.Proofs.Transform.Results

/-!
# Transforms that keep the order

The identity, truncation and units of time say of themselves that larger values never have smaller
results. Four orders are kept: that of the integers, that of decimals of one scale, which is that of their
counts, that of sequences by their first difference, and that of days and moments. Truncation rounds down:
the result is not above the value, and it is truncated to itself.

* **`order_take_le`**, **`order_of_prefix`** — beginnings of sequences.
* **`keepsOrder_number`**, **`keepsOrder_decimal`**, **`keepsOrder_beginning`**, **`keepsOrder_time`** — one
  lemma for each order.
* **`keepsOrder_of_preservesOrder`** — all transforms together.
-/

namespace PartitionPruning

open Outcome
open Numeral (floorMultiple floorMultiple_le floorMultiple_mono dvd_floorMultiple)

/-! ## Beginnings and multiples -/

namespace Codes

variable {xs ys : List Nat}

/-- A beginning is not above the whole. -/
theorem order_of_prefix (h : xs <+: ys) : order xs ys ≠ .gt := by
  induction xs generalizing ys with
  | nil => cases ys <;> simp [order]
  | cons x xs ih =>
    obtain ⟨rest, rfl⟩ := h
    rw [List.cons_append, order, if_neg (Nat.lt_irrefl x), if_neg (Nat.lt_irrefl x)]
    exact ih (List.prefix_append xs rest)

theorem order_take_le (width : Nat) (h : order xs ys ≠ .gt) :
    order (xs.take width) (ys.take width) ≠ .gt := by
  rcases order_take width xs ys with heq | horder
  · rw [order_eq_eq.mpr heq]
    simp
  · rwa [horder]

end Codes

/-- A multiple is its own multiple. -/
theorem Numeral.floorMultiple_self (width : Nat) (n : Int) :
    floorMultiple width (floorMultiple width n) = floorMultiple width n := by
  have hzero := Int.emod_eq_zero_of_dvd (dvd_floorMultiple width n)
  rw [floorMultiple, hzero, Int.sub_zero]

/-! ## Values that are ordered -/

namespace Value

theorem lessOrEqual_number (m n : Int) : lessOrEqual (.int m) (.int n) = .ok (decide (m ≤ n)) :=
  lessOrEqual_int m (.number n)

theorem lessOrEqual_count {scale : Nat} {x y : Decimal} {m n : Int} (hx : x.IsCount scale m)
    (hy : y.IsCount scale n) : lessOrEqual (.decimal x) (.decimal y) = .ok (decide (m ≤ n)) := by
  have hcompare : Predicate.testCompare .lessOrEqual (.decimal x) (.decimal y) =
      .ok (Comparison.holds .lessOrEqual m n) := Predicate.testCompare_count rfl hx hy
  exact hcompare

theorem lessOrEqual_codes {q : Primitive} {v w : Value} (hq : q.isSequence = true)
    (hv : q.hasKind v = true) (hw : q.hasKind w = true) :
    lessOrEqual v w = .ok (decide (Codes.order v.codes w.codes ≠ .gt)) := by
  have hcompare : Predicate.testCompare .lessOrEqual v w =
      .ok (Comparison.holdsCodes .lessOrEqual v.codes w.codes) :=
    Predicate.testCompare_codes .lessOrEqual hq hv hw
  rcases Primitive.sequence_cases hq hv hv with ⟨s, _, rfl, _⟩ | ⟨bs, _, rfl, _⟩ <;> exact hcompare

end Value

/-- Whether a value can be compared within a type: it is of the kind of the type, a day or a moment lies in
the calendar, and the exponent of a decimal is that of a scale. -/
def Primitive.ranks (p : Primitive) (v : Value) : Bool :=
  p.admits v && match (DataType.primitive p).timeForm?, v with
    | some form, .int n => form.inCalendar n
    | _, .decimal (.finite _ _ e) => e ≤ 0
    | _, _ => true

/-- Two values of a type, decimals of one scale, of which the first is not above the second. -/
structure Primitive.Ordered (p : Primitive) (v w : Value) : Prop where
  left : p.ranks v = true
  right : p.ranks w = true
  scale : ∀ x y, v = .decimal x → w = .decimal y → x.scale? = y.scale?
  le : v.lessOrEqual w = .ok true

namespace Primitive

variable {p : Primitive} {v w : Value} {precision scale : Nat}

theorem admits_of_ranks (h : p.ranks v = true) : p.admits v = true :=
  (Bool.and_eq_true_iff.mp h).1

/-- A value of the kind of integers. -/
theorem exists_int_of_limits {low high : Int} (hp : p.limits? = some (low, high))
    (hv : p.ranks v = true) : ∃ n, v = .int n := by
  have hadmits := admits_of_ranks hv
  cases p <;> simp [limits?] at hp <;> cases v <;> simp [admits] at hadmits <;> exact ⟨_, rfl⟩

/-- A decimal of the scale that its exponent says counts the units of its last place. -/
theorem exists_count_of_ranks (hv : (decimal precision scale).ranks v = true) :
    ∃ x places, v = .decimal x ∧ x.scale? = some places ∧ x.IsCount places x.unscaled := by
  cases v with
  | decimal x =>
    cases x with
    | finite negative c e =>
      have he : e ≤ 0 := by simpa [ranks, admits] using hv
      obtain ⟨places, rfl⟩ : ∃ places : Nat, e = -(places : Int) := ⟨e.natAbs, by omega⟩
      exact ⟨_, places, rfl, by simp [Decimal.scale?], Decimal.isCount_unscaled⟩
    | _ => simp [ranks, admits] at hv
  | _ => simp [ranks, admits] at hv

/-- A day or a moment of the calendar. -/
theorem exists_count_of_timeForm {form : TimeForm}
    (hform : (DataType.primitive p).timeForm? = some form) (hv : p.ranks v = true) :
    ∃ n, v = .int n ∧ form.inCalendar n = true := by
  cases v with
  | int n =>
    unfold ranks at hv
    rw [hform] at hv
    exact ⟨n, rfl, (Bool.and_eq_true_iff.mp hv).2⟩
  | _ =>
    have hadmits := admits_of_ranks hv
    cases p <;> simp [admits, DataType.timeForm?] at hadmits hform

end Primitive

/-! ## Transforms -/

namespace Transform

/-- Values of a type have partition values that are ordered as they are. -/
def KeepsOrder (t : Transform) (p : Primitive) : Prop :=
  ∀ v w, p.Ordered v w → ∃ a b, t.apply (.primitive p) v = .ok a ∧
    t.apply (.primitive p) w = .ok b ∧ a.lessOrEqual b = .ok true

/-- Values of a type have partition values that are not above them and that are their own partition
values. -/
def RoundsDown (t : Transform) (p : Primitive) : Prop :=
  ∀ v, p.ranks v = true → ∃ a, t.apply (.primitive p) v = .ok a ∧ a.lessOrEqual v = .ok true ∧
    t.apply (.primitive p) a = .ok a

variable {t : Transform} {p : Primitive} {width precision scale : Nat} {low high : Int}

/-- **Integers** are ordered as their multiples are. -/
theorem keepsOrder_number (hwidth : 0 < width) (hp : p.limits? = some (low, high)) :
    (truncate width).KeepsOrder p ∧ (truncate width).RoundsDown p := by
  have happly (n : Int) : (truncate width).apply (.primitive p) (.int n) =
      .ok (.int (floorMultiple width n)) := by
    rw [apply, (function_number width hp).1]
    rfl
  constructor
  · intro v w h
    obtain ⟨m, rfl⟩ := Primitive.exists_int_of_limits hp h.left
    obtain ⟨n, rfl⟩ := Primitive.exists_int_of_limits hp h.right
    -- Integers are ordered as values exactly as they are as numbers.
    have hle : m ≤ n := by simpa [Value.lessOrEqual_number] using h.le
    refine ⟨_, _, happly m, happly n, ?_⟩
    simpa [Value.lessOrEqual_number] using floorMultiple_mono hwidth hle
  · intro v hv
    obtain ⟨n, rfl⟩ := Primitive.exists_int_of_limits hp hv
    refine ⟨_, happly n, ?_, ?_⟩
    · simpa [Value.lessOrEqual_number] using floorMultiple_le hwidth n
    · rw [happly, Numeral.floorMultiple_self]

/-- **Decimals** of one scale are ordered as their counts are. -/
theorem keepsOrder_decimal (hwidth : 0 < width) :
    (truncate width).KeepsOrder (.decimal precision scale) ∧
      (truncate width).RoundsDown (.decimal precision scale) := by
  constructor
  · intro v w h
    obtain ⟨x, places, rfl, hx, hm⟩ := Primitive.exists_count_of_ranks h.left
    obtain ⟨y, places', rfl, hy, hn⟩ := Primitive.exists_count_of_ranks h.right
    -- Only decimals of one scale are compared by their unscaled numbers.
    obtain rfl : places = places' :=
      Option.some.inj (hx.symm.trans ((h.scale x y rfl rfl).trans hy))
    have hle : x.unscaled ≤ y.unscaled := by simpa [Value.lessOrEqual_count hm hn] using h.le
    refine ⟨_, _, apply_truncate_decimal width hx, apply_truncate_decimal width hy, ?_⟩
    rw [Value.lessOrEqual_count (Decimal.isCount_ofUnscaled _ _) (Decimal.isCount_ofUnscaled _ _)]
    simpa using floorMultiple_mono hwidth hle
  · intro v hv
    obtain ⟨x, places, rfl, hx, hn⟩ := Primitive.exists_count_of_ranks hv
    refine ⟨_, apply_truncate_decimal width hx, ?_, ?_⟩
    · rw [Value.lessOrEqual_count (Decimal.isCount_ofUnscaled _ _) hn]
      simpa using floorMultiple_le hwidth x.unscaled
    · rw [apply_truncate_decimal width (Decimal.scale?_ofUnscaled _ _), Decimal.unscaled_ofUnscaled,
        Numeral.floorMultiple_self]

/-- **Sequences** are ordered by the first difference, which may lie behind their beginnings. -/
theorem keepsOrder_beginning (width : Nat) (hp : p.isSequence = true) :
    (truncate width).KeepsOrder p ∧ (truncate width).RoundsDown p := by
  have hkind {v : Value} (hv : p.ranks v = true) : p.hasKind v = true := by
    have hadmits := Primitive.admits_of_ranks hv
    cases p <;> simp [Primitive.isSequence] at hp <;> cases v <;> simp [Primitive.admits] at hadmits <;>
      rfl
  have hbeginning {v : Value} (hv : p.hasKind v = true) :
      ∃ a, (truncate width).apply (.primitive p) v = .ok a ∧ p.hasKind a = true ∧
        a.codes = v.codes.take width := by
    obtain ⟨a, ha, _⟩ := succeeds_apply_beginning width hp (Or.inr hv)
    exact ⟨a, ha, apply_beginning_inv hp hv ha⟩
  -- values are ordered as their codes are, of which a beginning keeps the first ones
  constructor
  · intro v w h
    have hv := hkind h.left
    have hw := hkind h.right
    obtain ⟨a, ha, hakind, hacodes⟩ := hbeginning hv
    obtain ⟨b, hb, hbkind, hbcodes⟩ := hbeginning hw
    have hle : Codes.order v.codes w.codes ≠ .gt := by
      simpa [Value.lessOrEqual_codes hp hv hw] using h.le
    refine ⟨a, b, ha, hb, ?_⟩
    rw [Value.lessOrEqual_codes hp hakind hbkind, hacodes, hbcodes]
    simpa using Codes.order_take_le width hle
  · intro v hv
    have hv := hkind hv
    obtain ⟨a, ha, hakind, hacodes⟩ := hbeginning hv
    refine ⟨a, ha, ?_, ?_⟩
    · rw [Value.lessOrEqual_codes hp hakind hv, hacodes]
      simpa using Codes.order_of_prefix (List.take_prefix width v.codes)
    · -- a beginning and its own beginning have one row of codes
      obtain ⟨b, hb, hbkind, hbcodes⟩ := hbeginning hakind
      have hcodes : b.codes = a.codes := by rw [hbcodes, hacodes, List.take_take, Nat.min_self]
      rcases Primitive.sequence_cases hp hbkind hakind with ⟨s, s', rfl, rfl⟩ | ⟨bs, bs', rfl, rfl⟩
      · rw [hb, (Codes.text_inj s s').mp hcodes]
      · rw [hb, (Codes.bytes_inj bs bs').mp hcodes]

/-- **Days and moments** are ordered as their units are. -/
theorem keepsOrder_time {u : TimeUnit} {form : TimeForm} (hform : u.form? (.primitive p) = some form) :
    (time u).KeepsOrder p := by
  intro v w h
  have htime := TimeUnit.timeForm?_of_form? hform
  obtain ⟨m, rfl, hm⟩ := Primitive.exists_count_of_timeForm htime h.left
  obtain ⟨n, rfl, hn⟩ := Primitive.exists_count_of_timeForm htime h.right
  have hle : m ≤ n := by simpa [Value.lessOrEqual_number] using h.le
  obtain ⟨j, hj⟩ := TimeUnit.succeeds_ofForm.mpr (u.hasUnit_of_inCalendar hm)
  obtain ⟨k, hk⟩ := TimeUnit.succeeds_ofForm.mpr (u.hasUnit_of_inCalendar hn)
  refine ⟨_, _, (TimeUnit.apply_int_eq_ok hform).mpr ⟨j, hj, rfl⟩,
    (TimeUnit.apply_int_eq_ok hform).mpr ⟨k, hk, rfl⟩, ?_⟩
  simpa [Value.lessOrEqual_number] using TimeUnit.ofForm_mono hle hj hk

/-- **Order is kept** by every transform that says so. It accepts primitive types only, and two values of
the type that are ordered have partition values that are ordered alike. If it is truncation, then it rounds
down to values that it does not change. -/
theorem keepsOrder_of_preservesOrder {source : DataType} (hord : t.preservesOrder = true)
    (hpos : t.isPositive = true) (hcan : t.canTransform source = true) :
    ∃ p, source = .primitive p ∧ t.KeepsOrder p ∧ ∀ width, t = .truncate width → t.RoundsDown p := by
  obtain ⟨p, rfl⟩ := exists_primitive (by rintro rfl; simp [preservesOrder] at hord) hcan
  refine ⟨p, rfl, ?_⟩
  cases t with
  | void | bucket | unknown => simp [preservesOrder] at hord
  | identity => exact ⟨fun v w h => ⟨v, w, rfl, rfl, h.le⟩, by simp⟩
  | time u =>
    obtain ⟨form, hform⟩ := Option.isSome_iff_exists.mp hcan
    exact ⟨keepsOrder_time hform, by simp⟩
  | truncate width =>
    have hwidth : 0 < width := by simpa [isPositive] using hpos
    obtain ⟨hkeeps, hrounds⟩ : (truncate width).KeepsOrder p ∧ (truncate width).RoundsDown p := by
      -- Numbers, decimals and sequences are cut down in three ways, all of them downwards.
      rcases Primitive.truncate_cases hcan with ⟨low, high, hp⟩ | ⟨precision, scale, rfl⟩ | hp
      · exact keepsOrder_number hwidth hp
      · exact keepsOrder_decimal hwidth
      · exact keepsOrder_beginning width hp
    exact ⟨hkeeps, fun _ _ => hrounds⟩

/-- Five units below and above zero are truncated to ordered multiples of ten units, and the first one not
toward zero. -/
theorem keepsOrder_around_zero :
    let p : Primitive := .decimal 9 2
    let v : Value := .decimal (.finite true 5 (-2))
    let w : Value := .decimal (.finite false 5 (-2))
    (truncate 10).preservesOrder = true ∧ (truncate 10).isPositive = true ∧
      (truncate 10).canTransform (.primitive p) = true ∧ p.Ordered v w ∧
      ∃ a b, (truncate 10).apply (.primitive p) v = .ok a ∧
        (truncate 10).apply (.primitive p) w = .ok b ∧ a.lessOrEqual b = .ok true ∧
        a.lessOrEqual v = .ok true ∧ (truncate 10).apply (.primitive p) a = .ok a := by
  intro p v w
  have hord : (truncate 10).preservesOrder = true := rfl
  have hpos : (truncate 10).isPositive = true := rfl
  have hcan : (truncate 10).canTransform (.primitive p) = true := rfl
  have hordered : p.Ordered v w := by
    refine ⟨by decide, by decide, fun x y hx hy => ?_, ?_⟩
    · obtain rfl := Value.decimal.inj hx
      obtain rfl := Value.decimal.inj hy
      rfl
    · exact @Value.lessOrEqual_count 2 _ _ _ _ Decimal.isCount_unscaled Decimal.isCount_unscaled
  obtain ⟨q, hq, hkeeps, hrounds⟩ := keepsOrder_of_preservesOrder hord hpos hcan
  obtain rfl := DataType.primitive.inj hq
  obtain ⟨a, b, ha, hb, hle⟩ := hkeeps v w hordered
  -- Cutting goes down, also below zero, and not towards it.
  obtain ⟨a', ha', hdown, hself⟩ := hrounds 10 rfl v hordered.left
  obtain rfl : a = a' := Except.ok.inj (ha.symm.trans ha')
  exact ⟨hord, hpos, hcan, hordered, a, b, ha, hb, hle, hdown, hself⟩

end Transform

end PartitionPruning
