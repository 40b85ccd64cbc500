import PartitionPruning.Proofs.Calendar.Dates
import PartitionPruning.Proofs.Transform.Beginnings
import PartitionPruning.Proofs.Transform.Decimals
import PartitionPruning.Proofs.Transform.Definedness

/-!
# Partition values and their types

A transform has a type of results for every type of columns that it accepts. Each value of the column has
a partition value, a null only if it is one itself, and the partition value is of that type. There is one
exception: a number is truncated to a multiple that is not above it, and the range of the type need not
begin at a multiple.

* **`contains_apply_bucket`**, **`contains_apply_time`**, **`contains_apply_beginning`** — results that are
  always within the range.
* **`contains_apply_number`**, **`contains_apply_decimal`** — multiples are, unless they overshoot.
* **`contains_resultType_iff`** — all transforms together.
-/

namespace PartitionPruning

open Outcome
open Numeral (floorMultiple floorMultiple_le)

/-! ## The values of a type -/

namespace Primitive

/-- Whether a value belongs to a type; a decimal has no more digits than the precision says. -/
def contains (p : Primitive) (v : Value) : Bool :=
  p.holds v && match p, v with
    | .decimal precision _, .decimal (.finite _ c _) => c < 10 ^ precision
    | _, _ => true

/-- The smallest number of a type that can be truncated, a decimal in units of its scale. -/
def least? : Primitive → Option Int
  | .decimal precision _ => some (1 - 10 ^ precision)
  | p => p.limits?.map Prod.fst

variable {p : Primitive} {v : Value}

theorem holds_of_contains (h : p.contains v = true) : p.holds v = true :=
  (Bool.and_eq_true_iff.mp h).1

theorem admits_of_contains (h : p.contains v = true) : p.admits v = true :=
  (Bool.and_eq_true_iff.mp (holds_of_contains h)).1

theorem isNull_of_admits (h : p.admits v = true) : v.isNull = false := by
  cases v with
  | null => cases p <;> simp [admits] at h
  | _ => rfl

theorem isNull_of_holds (h : p.holds v = true) : v.isNull = false :=
  isNull_of_admits (Bool.and_eq_true_iff.mp h).1

theorem admits_of_limits {low high : Int} (hp : p.limits? = some (low, high)) (n : Int) :
    p.admits (.int n) = true := by
  cases p <;> simp [limits?] at hp <;> rfl

theorem least?_of_limits {low high : Int} (hp : p.limits? = some (low, high)) :
    p.least? = some low := by
  cases p <;> simp [limits?] at hp <;> simp [least?, limits?, hp.1]

theorem contains_int (n : Int) :
    Primitive.int.contains (.int n) = true ↔ -2147483648 ≤ n ∧ n ≤ 2147483647 := by
  simp [contains, holds, admits, inRange]

theorem contains_ofUnscaled (precision scale : Nat) (n : Int) :
    (Primitive.decimal precision scale).contains (.decimal (.ofUnscaled n scale)) = true ↔
      n.natAbs < 10 ^ precision := by
  simp [contains, holds, admits, inRange, Decimal.ofUnscaled]

/-- The types that can be truncated. -/
theorem truncate_cases (h : (DataType.primitive p).truncateForm?.isSome = true) :
    (∃ low high, p.limits? = some (low, high)) ∨ (∃ precision scale, p = .decimal precision scale) ∨
      p.isSequence = true := by
  cases p with
  | int | long => exact Or.inl ⟨_, _, rfl⟩
  | decimal precision scale => exact Or.inr (Or.inl ⟨precision, scale, rfl⟩)
  | string | binary => exact Or.inr (Or.inr rfl)
  | _ => simp [DataType.truncateForm?] at h

end Primitive

/-- The number that a value stands for, a decimal in units of its last place. -/
def Value.units? : Value → Option Int
  | .int n => some n
  | .decimal d => some d.unscaled
  | _ => none

namespace TimeUnit

variable {u : TimeUnit} {form : TimeForm} {k n : Int}

/-- The days of the calendar lie in it. -/
theorem inCalendar_ofForm_day (hn : form.inCalendar n = true)
    (h : TimeUnit.day.ofForm form n = .ok k) : TimeForm.day.inCalendar k = true := by
  cases form with
  | day =>
    obtain rfl := Except.ok.inj h
    exact hn
  | moment =>
    obtain ⟨_, rfl⟩ := Epoch.dayOfMicros_eq_ok.mp h
    exact hn

end TimeUnit

namespace Transform

/-- Whether a value is truncated to a multiple below the range of its type. -/
def overshoots (p : Primitive) (v : Value) : Transform → Bool
  | .truncate width => p.least?.any fun low => v.units?.any fun n => floorMultiple width n < low
  | _ => false

/-- Whether the count of buckets or the width is positive, as it has to be in metadata. -/
def isPositive : Transform → Bool
  | .bucket n | .truncate n => 0 < n
  | _ => true

variable {p q : Primitive} {t : Transform} {v a : Value} {width : Nat} {low high : Int}

/-- Each type that is accepted is primitive, but for those of `void`. -/
theorem exists_primitive {source : DataType} (ht : t ≠ .void) (hcan : t.canTransform source = true) :
    ∃ p, source = .primitive p := by
  cases source with
  | primitive p => exact ⟨p, rfl⟩
  | _ =>
    cases t with
    | void => exact absurd rfl ht
    | _ => simp [canTransform, DataType.isPrimitive, DataType.hashForm?, DataType.truncateForm?,
        TimeUnit.form?, DataType.timeForm?] at hcan

/-- Nulls have partition values. -/
theorem succeeds_null {source : DataType} (hcan : t.canTransform source = true) :
    t.apply source .null = .ok .null := by
  cases t with
  | identity | void => rfl
  | bucket | truncate | time =>
    obtain ⟨form, hform⟩ := Option.isSome_iff_exists.mp hcan
    simp [apply, function, hform, Value.unlessNull, Value.isNull]
  | unknown name => simp [canTransform] at hcan

/-! ## Results within the range -/

/-- Values that are hashed as numbers have 64 bits. -/
theorem number_of_holds (hform : (DataType.primitive p).hashForm? = some .number)
    (hv : p.holds v = true) : ∃ n, v = .int n ∧ HashForm.smallest ≤ n ∧ n ≤ HashForm.largest := by
  -- Moments of the calendar are far within 64 bits.
  have hcalendar {form : TimeForm} {n : Int} (hn : form.inCalendar n = true) :
      HashForm.smallest ≤ n ∧ n ≤ HashForm.largest := by
    simp only [HashForm.smallest, HashForm.largest]
    cases form with
    | day => have := TimeForm.inCalendar_day.mp hn; omega
    | moment => have := TimeForm.inCalendar_moment.mp hn; omega
  cases v with
  | int n =>
    obtain ⟨_, hrange⟩ := Bool.and_eq_true_iff.mp hv
    refine ⟨n, rfl, ?_⟩
    cases p with
    | date => exact @hcalendar .day n hrange
    | timestamp | timestamptz => exact @hcalendar .moment n hrange
    | int | long | time =>
      simp only [Primitive.inRange, Bool.and_eq_true, decide_eq_true_eq] at hrange
      simp only [HashForm.smallest, HashForm.largest]
      omega
    | _ => simp [DataType.hashForm?] at hform
  | _ => cases p <;> simp [DataType.hashForm?, Primitive.holds, Primitive.admits] at hform hv

/-- **Buckets** are integers of 32 bits. -/
theorem contains_apply_bucket (count : Nat)
    (hform : (DataType.primitive p).hashForm?.isSome = true) (hv : p.holds v = true) :
    ∃ a, (bucket count).apply (.primitive p) v = .ok a ∧ Primitive.int.contains a = true := by
  obtain ⟨form, hform⟩ := Option.isSome_iff_exists.mp hform
  have hnumber : form = .number → ∀ n, v.whole? = some n →
      HashForm.smallest ≤ n.toInt ∧ n.toInt ≤ HashForm.largest := by
    rintro rfl n hn
    obtain ⟨k, rfl, hk⟩ := number_of_holds hform hv
    obtain rfl := Option.some.inj hn
    exact hk
  obtain ⟨h, hhash⟩ := (succeeds_hash hform (Primitive.hasKind_of_holds hv)).mpr hnumber
  refine ⟨.int (bucketOfHash count h), ?_, (Primitive.contains_int _).mpr (bucketOfHash_bits count h)⟩
  simp [apply, function, hform, Value.unlessNull, Primitive.isNull_of_holds hv, hhash]

/-- **Units of time** are integers of 32 bits, or days of the calendar. -/
theorem contains_apply_time {u : TimeUnit} {form : TimeForm}
    (hform : u.form? (.primitive p) = some form) (hv : p.holds v = true) :
    ∃ a q, (time u).apply (.primitive p) v = .ok a ∧ u.resultType = .primitive q ∧
      q.contains a = true := by
  obtain ⟨n, rfl, hn⟩ :=
    (TimeUnit.holds_of_timeForm? (TimeUnit.timeForm?_of_form? hform)).mp hv
  obtain ⟨k, hk⟩ := TimeUnit.succeeds_ofForm.mpr (u.hasUnit_of_inCalendar hn)
  have happly := (TimeUnit.apply_int_eq_ok hform).mpr ⟨k, hk, rfl⟩
  have hint : Primitive.int.contains (.int k) = true :=
    (Primitive.contains_int k).mpr (TimeUnit.ofForm_fits hn (by omega) hk)
  cases u with
  | day =>
    have hday := TimeUnit.inCalendar_ofForm_day hn hk
    exact ⟨_, .date, happly, rfl, by simp [Primitive.contains, Primitive.holds, Primitive.admits,
      Primitive.inRange, hday]⟩
  | year | month | hour => exact ⟨_, .int, happly, rfl, hint⟩

/-- **Beginnings** of texts and bytes. -/
theorem contains_apply_beginning (width : Nat) (hp : p.isSequence = true) (hv : p.holds v = true) :
    ∃ a, (truncate width).apply (.primitive p) v = .ok a ∧ p.contains a = true := by
  have hkind := Primitive.hasKind_of_holds hv
  obtain ⟨a, ha, _, htext, hbytes⟩ := succeeds_apply_beginning width hp (Or.inr hkind)
  refine ⟨a, ha, ?_⟩
  rcases Primitive.sequence_cases hp hkind hkind with ⟨s, _, rfl, _⟩ | ⟨bs, _, rfl, _⟩
  · rw [htext s rfl]
    cases p <;> simp [Primitive.isSequence, Primitive.holds, Primitive.admits] at hp hv
    rfl
  · rw [hbytes bs rfl]
    cases p <;> simp [Primitive.isSequence, Primitive.holds, Primitive.admits] at hp hv
    rfl

/-! ## Multiples -/

/-- **Multiples of integers** are of the type if they do not lie below its smallest integer. -/
theorem contains_apply_number (hwidth : 0 < width) (hp : p.limits? = some (low, high))
    (hv : p.holds v = true) :
    ∃ n : Int, v = .int n ∧
      (truncate width).apply (.primitive p) v = .ok (.int (floorMultiple width n)) ∧
      (p.contains (.int (floorMultiple width n)) = true ↔ low ≤ floorMultiple width n) := by
  obtain ⟨n, rfl, _, hhigh⟩ := Primitive.int_of_holds hp hv
  refine ⟨n, rfl, ?_, ?_⟩
  · rw [apply, (function_number width hp).1]
    rfl
  · have hle := (floorMultiple_le hwidth n).trans hhigh
    cases p <;> simp only [Primitive.limits?, Option.some.injEq, Prod.mk.injEq, reduceCtorEq] at hp
    all_goals
      obtain ⟨rfl, rfl⟩ := hp
      simp [Primitive.contains, Primitive.holds, Primitive.admits, Primitive.inRange, hle]

/-- **Multiples of decimals** have no more digits than the precision says if they do not lie below the
smallest decimal. -/
theorem contains_apply_decimal {precision scale : Nat} (hwidth : 0 < width)
    (hv : (Primitive.decimal precision scale).contains v = true) :
    ∃ x : Decimal, v = .decimal x ∧
      (truncate width).apply (.primitive (.decimal precision scale)) v =
        .ok (.decimal (.ofUnscaled (floorMultiple width x.unscaled) scale)) ∧
      ((Primitive.decimal precision scale).contains
          (.decimal (.ofUnscaled (floorMultiple width x.unscaled) scale)) = true ↔
        1 - 10 ^ precision ≤ floorMultiple width x.unscaled) := by
  obtain ⟨x, rfl, hx, _⟩ := Primitive.decimal_of_holds (Primitive.holds_of_contains hv)
  refine ⟨x, rfl, apply_truncate_decimal width hx, ?_⟩
  -- The precision bounds the coefficient, so the unscaled number is bounded on both sides.
  have hdigits : x.unscaled.natAbs < 10 ^ precision := by
    cases x with
    | finite negative c e =>
      have hc : c < 10 ^ precision := by simpa [Primitive.contains] using (Bool.and_eq_true_iff.mp hv).2
      cases negative <;> simpa [Decimal.unscaled, Numeral.signed] using hc
    | _ => simp [Primitive.contains, Primitive.holds, Primitive.admits] at hv
  have hle := floorMultiple_le hwidth x.unscaled
  rw [Primitive.contains_ofUnscaled]
  have hcast : ((10 ^ precision : Nat) : Int) = 10 ^ precision := by push_cast; rfl
  rw [← hcast]
  generalize 10 ^ precision = m at *
  omega

/-! ## All transforms -/

/-- A value has a partition value of the kind of a type, which belongs to the type unless the value
overshoots. -/
def Yields (t : Transform) (p q : Primitive) (v : Value) : Prop :=
  ∃ a, t.apply (.primitive p) v = .ok a ∧ q.admits a = true ∧
    (q.contains a = true ↔ t.overshoots p v = false)

theorem yields_of_contains (ha : t.apply (.primitive p) v = .ok a) (hq : q.contains a = true)
    (hshoot : t.overshoots p v = false) : t.Yields p q v :=
  ⟨a, ha, Primitive.admits_of_contains hq, by rw [hq, hshoot]; simp⟩

/-- Numbers may overshoot when they are truncated, sequences never do. -/
theorem yields_truncate (hwidth : 0 < width) (hcan : (truncate width).canTransform (.primitive p) = true)
    (hv : p.contains v = true) : (truncate width).Yields p p v := by
  have hholds := Primitive.holds_of_contains hv
  rcases Primitive.truncate_cases hcan with ⟨low, high, hp⟩ | ⟨precision, scale, rfl⟩ | hp
  · obtain ⟨n, rfl, ha, hiff⟩ := contains_apply_number hwidth hp hholds
    refine ⟨_, ha, Primitive.admits_of_limits hp _, hiff.trans ?_⟩
    simp [overshoots, Primitive.least?_of_limits hp, Value.units?]
  · obtain ⟨x, rfl, ha, hiff⟩ := contains_apply_decimal hwidth hv
    refine ⟨_, ha, rfl, hiff.trans ?_⟩
    simp [overshoots, Primitive.least?, Value.units?]
  · obtain ⟨a, ha, hsequence⟩ := contains_apply_beginning width hp hholds
    refine yields_of_contains ha hsequence ?_
    cases p <;> simp [Primitive.isSequence] at hp <;> rfl

/-- Each type that is accepted has a type of results for its values. -/
theorem exists_yields (ht : t ≠ .void) (hpos : t.isPositive = true)
    (hcan : t.canTransform (.primitive p) = true) :
    ∃ q, t.resultType (.primitive p) = .primitive q ∧ ∀ v, p.contains v = true → t.Yields p q v := by
  -- Only truncation may leave the type; the other transforms never do.
  cases t with
  | void => exact absurd rfl ht
  | unknown name => simp [canTransform] at hcan
  | identity => exact ⟨p, rfl, fun v hv => yields_of_contains (apply_identity _ v) hv rfl⟩
  | truncate width =>
    have hwidth : 0 < width := by simpa [isPositive] using hpos
    exact ⟨p, rfl, fun v hv => yields_truncate hwidth hcan hv⟩
  | bucket count =>
    refine ⟨.int, rfl, fun v hv => ?_⟩
    obtain ⟨a, ha, hint⟩ := contains_apply_bucket count hcan (Primitive.holds_of_contains hv)
    exact yields_of_contains ha hint rfl
  | time u =>
    obtain ⟨form, hform⟩ := Option.isSome_iff_exists.mp hcan
    obtain ⟨q, hq⟩ : ∃ q, u.resultType = .primitive q := by cases u <;> exact ⟨_, rfl⟩
    refine ⟨q, (TimeUnit.resultType_time u _).trans hq, fun v hv => ?_⟩
    obtain ⟨a, q', ha, hq', hunit⟩ := contains_apply_time hform (Primitive.holds_of_contains hv)
    obtain rfl : q = q' := DataType.primitive.inj (hq.symm.trans hq')
    exact yields_of_contains ha hunit rfl

/-- **Partition values belong to their type.** A transform other than `void`, with a positive number if it
has one, accepts primitive types only and has a primitive type of results for each of them. Every value of
the type has a partition value, which is null only for a null. It is of the kind of the results, and it
belongs to their type exactly if it does not overshoot: only a number that is truncated to a multiple
below the smallest one of its type does. -/
theorem contains_resultType_iff {source : DataType} (ht : t ≠ .void) (hpos : t.isPositive = true)
    (hcan : t.canTransform source = true) :
    ∃ p q, source = .primitive p ∧ t.resultType source = .primitive q ∧
      ∀ v, v = .null ∨ p.contains v = true → ∃ a, t.apply source v = .ok a ∧
        (a.isNull = true ↔ v = .null) ∧
        (v ≠ .null → q.admits a = true ∧ (q.contains a = true ↔ t.overshoots p v = false)) := by
  obtain ⟨p, rfl⟩ := exists_primitive ht hcan
  obtain ⟨q, hq, hyields⟩ := exists_yields ht hpos hcan
  refine ⟨p, q, rfl, hq, fun v hv => ?_⟩
  -- Null goes to null, whatever the transform.
  rcases hv with rfl | hv
  · exact ⟨.null, succeeds_null hcan, by simp [Value.isNull], fun h => absurd rfl h⟩
  · obtain ⟨a, ha, hadmits, hiff⟩ := hyields v hv
    have hnull : v ≠ .null := by
      rintro rfl
      exact absurd (Primitive.isNull_of_admits (Primitive.admits_of_contains hv)) (by simp [Value.isNull])
    refine ⟨a, ha, ?_, fun _ => ⟨hadmits, hiff⟩⟩
    rw [Primitive.isNull_of_admits hadmits]
    exact iff_of_false (by simp) hnull

/-- The smallest multiple of three that is an integer of 32 bits is its own partition value under
`truncate[3]`. -/
theorem contains_resultType_multiple :
    (Transform.truncate 3).isPositive = true ∧
      (Transform.truncate 3).canTransform (.primitive .int) = true ∧
      Primitive.int.contains (.int (-2147483646)) = true ∧
      ∃ q a, (Transform.truncate 3).resultType (.primitive .int) = .primitive q ∧
        (Transform.truncate 3).apply (.primitive .int) (.int (-2147483646)) = .ok a ∧
        q.contains a = true := by
  have hpos : (Transform.truncate 3).isPositive = true := rfl
  have hcan : (Transform.truncate 3).canTransform (.primitive .int) = true := rfl
  have hv : Primitive.int.contains (.int (-2147483646)) = true := by decide
  obtain ⟨p, q, hp, hq, hvalues⟩ := contains_resultType_iff (by simp) hpos hcan
  obtain rfl := DataType.primitive.inj hp
  obtain ⟨a, ha, _, hiff⟩ := hvalues _ (Or.inr hv)
  obtain ⟨_, hiff⟩ := hiff (by simp)
  exact ⟨hpos, hcan, hv, q, a, hq, ha, hiff.mpr (by decide)⟩

/-- **Numbers that overshoot.** The smallest integer of 32 bits and the smallest decimal of three digits
are truncated to numbers that do not belong to their types, which are the types of the results. -/
theorem not_contains_overshoot :
    Primitive.int.contains (.int (-2147483648)) = true ∧
      (Transform.truncate 3).canTransform (.primitive .int) = true ∧
      (Transform.truncate 3).resultType (.primitive .int) = .primitive .int ∧
      (Transform.truncate 3).apply (.primitive .int) (.int (-2147483648)) =
        .ok (.int (-2147483649)) ∧
      Primitive.int.contains (.int (-2147483649)) = false ∧
      (Primitive.decimal 3 2).contains (.decimal (.finite true 999 (-2))) = true ∧
      (Transform.truncate 10).canTransform (.primitive (.decimal 3 2)) = true ∧
      (Transform.truncate 10).resultType (.primitive (.decimal 3 2)) = .primitive (.decimal 3 2) ∧
      (Transform.truncate 10).apply (.primitive (.decimal 3 2)) (.decimal (.finite true 999 (-2))) =
        .ok (.decimal (.finite true 1000 (-2))) ∧
      (Primitive.decimal 3 2).contains (.decimal (.finite true 1000 (-2))) = false :=
  ⟨by decide, rfl, rfl, rfl, by decide, by decide, rfl, rfl, rfl, by decide⟩

end Transform

end PartitionPruning
