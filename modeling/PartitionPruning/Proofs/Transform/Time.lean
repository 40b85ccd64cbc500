import PartitionPruning.Proofs.Transform.Soundness
import PartitionPruning.Proofs.Transform.Units

/-!
# Projections to units of time

A comparison of a date or a moment is projected to a comparison of units. The lemmas of this module
say what the outcome of such a projection means for the units of the boundary, which the bounds of
`Side.bound?` then relate to the rows of a partition.

* **`transformed_inv`** — the unit that a literal is transformed to.
* **`ofMoved_inv`** — the outcomes of projected comparisons.
* **`soundFor_time`** — the projections to units are sound.
-/

namespace PartitionPruning

open Outcome (bind_eq_ok map_eq_ok)

/-! ## Literals of dates and moments -/

/-- The number some steps further. -/
def Whole.moved (step : Int) (w : Whole) : Whole := if step = 0 then w else .number (w.toInt + step)

theorem Whole.toInt_moved (step : Int) (w : Whole) : (w.moved step).toInt = w.toInt + step := by
  unfold moved
  split
  · simp [*]
  · rfl

namespace TimeForm

/-- The literal of a count. -/
def literal : TimeForm → Whole → Literal
  | .day, w => .date w
  | .moment, w => .timestamp w

theorem value_literal (form : TimeForm) (w : Whole) : (form.literal w).value = .ofWhole w := by
  cases form <;> rfl

theorem boundary_literal (form : TimeForm) (w : Whole) :
    Projection.boundary (form.literal w) = .ok (form.literal w) := by
  cases form <;> rfl

theorem moved_literal (form : TimeForm) (w : Whole) (step : Int) :
    (form.literal w).moved step = .ok (form.literal (w.moved step)) := by
  unfold Literal.moved Whole.moved
  split
  · rfl
  · cases form <;> rfl

/-- A literal that is converted to a date or a moment counts days or microseconds. -/
theorem literal_of_convert {form : TimeForm} {type : DataType} {l l' : Literal}
    (hform : type.timeForm? = some form) (h : l.convert type = .ok l') :
    ∃ w, l' = form.literal w := by
  have htype : (type = .primitive .date ∧ form = .day) ∨
      ((type = .primitive .timestamp ∨ type = .primitive .timestamptz) ∧ form = .moment) := by
    unfold DataType.timeForm? at hform
    split at hform <;> simp_all
  -- a timestamp is also converted to its day, but no date to a timestamp
  rcases htype with ⟨rfl, rfl⟩ | ⟨rfl | rfl, rfl⟩
  · cases l with
    | long w | date w =>
      obtain rfl := Except.ok.inj h
      exact ⟨w, rfl⟩
    | timestamp w =>
      obtain ⟨n, _, h⟩ := bind_eq_ok.mp h
      obtain rfl := Outcome.pure_eq_ok.mp h
      exact ⟨.number n, rfl⟩
    | string s =>
      simp only [Literal.convert, Literal.convertText] at h
      split at h
      · obtain rfl := Except.ok.inj h
        exact ⟨_, rfl⟩
      · simp at h
    | _ => simp [Literal.convert] at h
  all_goals
    cases l with
    | long w | timestamp w =>
      obtain rfl := Except.ok.inj h
      exact ⟨w, rfl⟩
    | string s =>
      obtain ⟨n, _, h⟩ := bind_eq_ok.mp h
      obtain rfl := Outcome.pure_eq_ok.mp h
      exact ⟨.number n, rfl⟩
    | _ => simp [Literal.convert] at h

end TimeForm

/-! ## Outcomes on units -/

namespace Comparison

/-- The outcome of a comparison of a partition value, which may be null, with a unit. -/
def holdsFor (op : Comparison) (v : Value) (k : Int) : Bool :=
  match v with
  | .int a => op.holds a k
  | _ => op.ofNull

@[simp] theorem holdsFor_null (op : Comparison) (k : Int) : op.holdsFor .null k = op.ofNull := rfl

@[simp] theorem holdsFor_int (op : Comparison) (a k : Int) :
    op.holdsFor (.int a) k = op.holds a k := rfl

end Comparison

/-- Whether a partition value is null or a number. -/
def Value.IsCount (v : Value) : Prop := v = .null ∨ ∃ a, v = .int a

theorem Predicate.testCompare_holdsFor {op : Comparison} (hop : op.isBeginning = false) {v : Value}
    (hv : v.IsCount) (k : Int) : testCompare op v (.int k) = .ok (op.holdsFor v k) := by
  rcases hv with rfl | ⟨a, rfl⟩
  · exact testCompare_null op rfl
  · exact testCompare_int hop a (.number k)

namespace TimeUnit

variable {u : TimeUnit} {form : TimeForm} {type : DataType}

/-- The type that a unit has as a partition value. -/
def resultType (u : TimeUnit) : DataType :=
  match u with
  | .day => .primitive .date
  | _ => .primitive .int

theorem resultType_time (u : TimeUnit) (type : DataType) :
    (Transform.time u).resultType type = u.resultType := by
  cases u <;> rfl

theorem timeForm?_of_form? (h : u.form? type = some form) : type.timeForm? = some form := by
  unfold form? at h
  split at h <;> simp_all

/-- A number is cut to its unit. -/
theorem cut_number (u : TimeUnit) (form : TimeForm) (n : Int) :
    u.cut form (.int n) = (u.ofForm form n).map .int := by
  cases form <;> cases u <;> rfl

/-- A truth value counts as a number, but for the days of days, which are the values themselves. -/
theorem cut_ofWhole (w : Whole) (h : u ≠ .day ∨ form ≠ .day) :
    u.cut form (.ofWhole w) = (u.ofForm form w.toInt).map .int := by
  cases w <;> cases form <;> cases u <;> first | rfl | simp at h

/-- How units are made of values. -/
def function (u : TimeUnit) (form : TimeForm) : Value → Except Fault Value :=
  Value.unlessNull (u.cut form)

theorem function_time (h : u.form? type = some form) :
    (Transform.time u).function type = .ok (u.function form) := by
  simp [Transform.function, h, function]

theorem function_ofWhole (w : Whole) : u.function form (.ofWhole w) = u.cut form (.ofWhole w) := by
  cases w <;> rfl

/-- The literal of a unit. -/
theorem convert_unit {k : Int} (hk : -2147483648 ≤ k ∧ k ≤ 2147483647) :
    ∃ t, (Literal.long (.number k)).convert u.resultType = .ok t ∧ t.isMark = false ∧
      t.value = .int k := by
  cases u with
  | day => exact ⟨.date (.number k), rfl, rfl, rfl⟩
  | year | month | hour =>
    exact ⟨.long (.number k), Literal.convert_int hk, rfl, rfl⟩

/-- A literal that is no truth value for a day is transformed to the literal of its unit. -/
theorem transformed_number {w : Whole} (h : u = .day → form = .day → ∃ n, w = .number n) :
    (form.literal w).transformed (u.function form) =
      (u.ofForm form w.toInt).map fun k => .long (.number k) := by
  by_cases hday : u = .day ∧ form = .day
  · obtain ⟨rfl, rfl⟩ := hday
    obtain ⟨n, rfl⟩ := h rfl rfl
    rfl
  · rw [Literal.transformed, TimeForm.value_literal, function_ofWhole,
      cut_ofWhole w (by rw [not_and_or] at hday; exact hday)]
    cases u.ofForm form w.toInt <;> rfl

/-- A literal is transformed to the literal of its unit, unless it is a truth value for a day. -/
theorem transformed_cases {w : Whole} {t : Literal}
    (h : (form.literal w).transformed (u.function form) = .ok t) :
    ∃ k, u.ofForm form w.toInt = .ok k ∧
      (t = .long (.number k) ∨ ∃ b, w = .flag b ∧ t = .boolean b ∧ u = .day ∧ form = .day) := by
  obtain ⟨v, hv, h⟩ := bind_eq_ok.mp h
  rw [TimeForm.value_literal, function_ofWhole] at hv
  -- only the day of a day is the value itself, be it a truth value or a number
  by_cases hday : u = .day ∧ form = .day
  · obtain ⟨rfl, rfl⟩ := hday
    obtain rfl := Except.ok.inj hv
    refine ⟨w.toInt, rfl, ?_⟩
    cases w with
    | number n => exact Or.inl (Except.ok.inj h).symm
    | flag b => exact Or.inr ⟨b, rfl, (Except.ok.inj h).symm, rfl, rfl⟩
  · rw [cut_ofWhole w (by rw [not_and_or] at hday; exact hday)] at hv
    obtain ⟨k, hk, rfl⟩ := map_eq_ok.mp hv
    exact ⟨k, hk, Or.inl (Except.ok.inj h).symm⟩

/-- **The unit of a literal.** A literal near the calendar whose transformed value the partition field
takes has a unit, and becomes the literal of that unit. -/
theorem transformed_inv {w : Whole} {n : Int} {t t' : Literal} (hn : form.inCalendar n = true)
    (hstep : -1 ≤ w.toInt - n ∧ w.toInt - n ≤ 1)
    (ht : (form.literal w).transformed (u.function form) = .ok t)
    (ht' : t.convert u.resultType = .ok t') :
    ∃ k, u.ofForm form w.toInt = .ok k ∧ t = .long (.number k) ∧ t'.isMark = false ∧
      t'.value = .int k := by
  obtain ⟨k, hk, rfl | ⟨b, _, rfl, rfl, _⟩⟩ := transformed_cases ht
  · obtain ⟨t'', hconvert, hmark, hvalue⟩ := convert_unit (u := u) (ofForm_fits hn hstep hk)
    obtain rfl : t' = t'' := by simpa using ht'.symm.trans hconvert
    exact ⟨k, hk, rfl, hmark, hvalue⟩
  · -- a truth value is no date
    simp [resultType, Literal.convert] at ht'

/-! ## Outcomes of projections -/

variable {c d : Column} {op : Comparison} {name : String} {v : Value} {w : Whole}
variable {e : Expr (Predicate String)} {t : Bool} {side : Side}

/-- The outcome of a comparison with the unit of a moved boundary. -/
theorem outcome_compare_unit {op : Comparison} (hop : op.isBeginning = false) {step : Int}
    (hw : form.inCalendar w.toInt = true) (hstep : -1 ≤ step ∧ step ≤ 1)
    (hd : d.field.type = u.resultType) (hv : v.IsCount)
    (he : Projection.compare op name
      ((form.literal w).moved step >>= Literal.transformed (u.function form)) = .ok (some e))
    (ht : Expr.evaluate (Predicate.outcome d v) e = .ok t) :
    ∃ k, u.ofForm form (w.toInt + step) = .ok k ∧ t = op.holdsFor v k := by
  obtain ⟨l, hl, he⟩ := map_eq_ok.mp he
  obtain rfl : Expr.leaf (.compare op name l) = e := by simpa using he
  rw [TimeForm.moved_literal, Outcome.ok_bind] at hl
  simp only [Expr.evaluate] at ht
  obtain ⟨l', hl'⟩ := Predicate.outcome_compare_inv ht
  -- One step from a moment of the calendar may leave it, so the step is kept apart from the moment.
  have hnear : -1 ≤ (w.moved step).toInt - w.toInt ∧ (w.moved step).toInt - w.toInt ≤ 1 := by
    rw [Whole.toInt_moved]
    omega
  obtain ⟨k, hk, _, hmark, hvalue⟩ := transformed_inv hw hnear hl (hd ▸ hl')
  rw [Whole.toInt_moved] at hk
  rw [Predicate.outcome_compare hl' hmark, hvalue, Predicate.testCompare_holdsFor hop hv] at ht
  exact ⟨k, hk, (Except.ok.inj ht).symm⟩

/-- **Projections of comparisons.** The outcome is that of the bound for the unit of the boundary. -/
theorem ofMoved_inv (hw : form.inCalendar w.toInt = true) (hd : d.field.type = u.resultType)
    (hv : v.IsCount)
    (he : Projection.ofMoved side name (u.function form) op (form.literal w) = .ok (some e))
    (ht : Expr.evaluate (Predicate.outcome d v) e = .ok t) :
    ∃ op' step k, side.bound? op = some (op', step) ∧
      u.ofForm form (w.toInt + step) = .ok k ∧ t = op'.holdsFor v k := by
  rw [Projection.ofMoved, form.boundary_literal, Outcome.ok_bind] at he
  cases hbound : side.bound? op with
  | none => simp [hbound, Projection.nothing] at he
  | some bound =>
    obtain ⟨op', step⟩ := bound
    rw [hbound] at he
    obtain ⟨k, hk, rfl⟩ := outcome_compare_unit (Side.bound_like hbound).2.1 hw
      (Side.step_bound hbound) hd hv he ht
    exact ⟨op', step, k, rfl, hk, rfl⟩

/-- An ordering has a projection of either kind. -/
theorem ofMoved_ordering_ne_none (f : Value → Except Fault Value) (hop : op.isOrdering = true) :
    Projection.ofMoved side name f op (form.literal w) ≠ .ok none := by
  obtain ⟨op', step, hbound⟩ := side.exists_bound hop
  rw [Projection.ofMoved, form.boundary_literal, Outcome.ok_bind, hbound]
  simp [Projection.compare, map_eq_ok]

/-! ## The values in a unit -/

/-- A number is transformed to its unit. -/
theorem apply_int_eq_ok (hform : u.form? type = some form) {n : Int} {x : Value} :
    (Transform.time u).apply type (.int n) = .ok x ↔
      ∃ k, u.ofForm form n = .ok k ∧ x = .int k := by
  have hcut : u.function form (.int n) = (u.ofForm form n).map .int :=
    (function_ofWhole (.number n)).trans (cut_number u form n)
  simp only [Transform.apply, function_time hform, Outcome.ok_bind, hcut, map_eq_ok]
  simp only [eq_comm]

/-- Only primitive types count days or moments. -/
theorem primitive_of_timeForm? (hform : type.timeForm? = some form) : ∃ q, type = .primitive q := by
  cases type with
  | primitive q => exact ⟨q, rfl⟩
  | _ => simp [DataType.timeForm?] at hform

/-- The values of a type that counts days or moments. -/
theorem holds_of_timeForm? {v : Value} (hform : type.timeForm? = some form) :
    type.holds v = true ↔ ∃ n, v = .int n ∧ form.inCalendar n = true := by
  unfold DataType.timeForm? at hform
  split at hform <;> simp only [Option.some.injEq, reduceCtorEq] at hform <;> subst hform <;>
    cases v <;> simp [DataType.holds, Primitive.holds, Primitive.admits, Primitive.inRange]

end TimeUnit

/-! ## Soundness -/

namespace Transform

variable {u : TimeUnit} {form : TimeForm} {type : DataType} {name : String} {p : Predicate Column}
variable {d : Column} {v a : Value}

/-- The unit of a null or of a number. -/
theorem apply_time_inv (hform : u.form? type = some form)
    (hv : v.isNull = true ∨ ∃ n, v = .int n ∧ form.inCalendar n = true)
    (ha : (time u).apply type v = .ok a) :
    (v = .null ∧ a = .null) ∨
      ∃ n k, v = .int n ∧ form.inCalendar n = true ∧ a = .int k ∧ u.ofForm form n = .ok k := by
  rcases hv with hnull | ⟨n, rfl, hn⟩
  · rw [Value.eq_null_of_isNull hnull] at ha ⊢
    exact Or.inl ⟨rfl, apply_null ha⟩
  · obtain ⟨k, hk, rfl⟩ := (TimeUnit.apply_int_eq_ok hform).mp ha
    exact Or.inr ⟨n, k, rfl, hn, rfl, hk⟩

/-- **Units** keep keys. -/
theorem keepsKey_time {w : Whole} (hform : u.form? type = some form)
    (hd : d.field.type = u.resultType)
    (hv : v.isNull = true ∨ ∃ n, v = .int n ∧ form.inCalendar n = true)
    (hw : form.inCalendar w.toInt = true) (ha : (time u).apply type v = .ok a) :
    Projection.KeepsKey (u.function form) d v a (form.literal w) := by
  have hnear : -1 ≤ w.toInt - w.toInt ∧ w.toInt - w.toInt ≤ 1 := by omega
  constructor
  · intro t t' ht ht'
    obtain ⟨k, _, rfl, hmark, hvalue⟩ := TimeUnit.transformed_inv hw hnear ht (hd ▸ ht')
    exact ⟨hmark, by rw [hvalue]; rfl⟩
  · intro t ht hsame
    rw [TimeForm.value_literal] at hsame
    rcases apply_time_inv hform hv ha with ⟨rfl, _⟩ | ⟨n, k, rfl, _, rfl, hk⟩
    · exact absurd hsame (Value.not_sameKey_null _)
    · have hn : n = w.toInt := Value.sameKey_ofWhole (m := .number n).mp hsame
      obtain ⟨k', hk', ht⟩ := TimeUnit.transformed_cases ht
      obtain rfl : k' = k := Except.ok.inj (hk'.symm.trans (hn ▸ hk))
      rcases ht with rfl | ⟨b, rfl, rfl, rfl, rfl⟩
      · exact Value.sameKey_ofWhole (m := .number _) (n := .number _).mpr rfl
      · -- the day of a truth value is the value itself
        obtain rfl := Except.ok.inj hk'
        exact Value.sameKey_ofWhole (m := .number _) (n := .flag b).mpr rfl

/-- **Units are sound.** -/
theorem soundFor_time (hform : u.form? type = some form) (hp : p.term.field.type = type)
    (hd : d.field.type = u.resultType) (hreq : d.field.required = false)
    (hv : v.isNull = true ∨ ∃ n, v = .int n ∧ form.inCalendar n = true)
    (hlits : ∀ l ∈ p.literals, ∃ w, l = form.literal w ∧ form.inCalendar w.toInt = true)
    (ha : (time u).apply type v = .ok a) : (time u).SoundFor name p d v a := by
  have hkeys : ∀ l ∈ p.literals, Projection.KeepsKey (u.function form) d v a l := by
    intro l hl
    obtain ⟨w, rfl, hw⟩ := hlits l hl
    exact keepsKey_time hform hd hv hw ha
  have hcases := apply_time_inv hform hv ha
  have hunary : a.isNull = v.isNull ∧ a.isNaN = .ok false ∧ v.isNaN = .ok false := by
    rcases hcases with ⟨rfl, rfl⟩ | ⟨_, _, rfl, _, rfl, _⟩ <;> exact ⟨rfl, rfl, rfl⟩
  have hcount : a.IsCount := by
    rcases hcases with ⟨_, rfl⟩ | ⟨_, k, _, _, rfl, _⟩
    · exact Or.inl rfl
    · exact Or.inr ⟨k, rfl⟩
  have hshape (side : Side) : (time u).projection side name p =
      Projection.shaped side name (u.function form)
        (Projection.ofMoved side name (u.function form)) p := by
    rw [projection_time, sourceOf, hp, TimeUnit.function_time hform, Outcome.ok_bind]
  refine Projection.soundFor_shaped hshape hreq hunary hkeys fun side op l e b hl he ht hb => ?_
  obtain ⟨w, rfl, hw⟩ := hlits l hl
  obtain ⟨op', step, k, hbound, hk, hdecides⟩ := TimeUnit.ofMoved_inv hw hd hcount he ht
  obtain ⟨hop, _, hnull⟩ := Side.bound_like hbound
  rw [TimeForm.value_literal] at hb
  rcases hcases with ⟨rfl, rfl⟩ | ⟨n, x, rfl, _, rfl, hx⟩
  · -- a null has the outcome that the comparison has for nulls, before and after
    rw [Predicate.testCompare_null op (Value.isNull_ofWhole w)] at hb
    rw [← Except.ok.inj hb, ← hnull]
    exact hdecides.symm
  · rw [Predicate.testCompare_int hop] at hb
    rw [← Except.ok.inj hb]
    exact Side.bound_sound (TimeUnit.coarsens u form) hbound hx hk hdecides.symm

end Transform

end PartitionPruning
