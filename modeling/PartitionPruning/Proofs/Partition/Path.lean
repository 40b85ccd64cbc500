import PartitionPruning.Partition.Path
import PartitionPruning.Proofs.Numeral.Digits
import PartitionPruning.Proofs.Residual.Decision
import PartitionPruning.Proofs.Schema.Rows
import PartitionPruning.Proofs.Value.Domain

/-!
# Partitions that have a path

The path of a partition shows its values to a reader. Days, moments and times of day are shown by the
calendar and the clock, which do not go as far as the counts do: a value outside of them has no text, and
its partition no path. All other values have a text, unless a number in it is too long to be written.

* **`succeeds_human`** — which partition values have a text.
* **`succeeds_path`** — which partitions have a path.
* **`hasTexts_of_holds`** — those of the partition type do, if it has no hours.
-/

namespace PartitionPruning

open Outcome

/-! ## Days, moments and times of day -/

namespace Epoch

theorem succeeds_inCalendar {α : Type} {x : Option α} :
    Succeeds (inCalendar x) ↔ x.isSome = true := by
  cases x <;> simp [inCalendar]

theorem succeeds_dateOfDay {n : Int} :
    Succeeds (dateOfDay n) ↔ TimeForm.day.inCalendar n = true := by
  rw [dateOfDay, succeeds_inCalendar, Date.ofNumber?, TimeForm.inCalendar]
  split <;> simp_all

theorem succeeds_timestampOfMicros {n : Int} :
    Succeeds (timestampOfMicros n) ↔ TimeForm.moment.inCalendar n = true := by
  rw [timestampOfMicros, Timestamp.ofMicros?, succeeds_inCalendar, Option.isSome_map,
    ← succeeds_inCalendar]
  exact succeeds_dateOfDay

theorem succeeds_timeOfMicros {n : Int} :
    Succeeds (timeOfMicros n) ↔ 0 ≤ n ∧ n < TimeOfDay.microsPerDay := by
  rw [timeOfMicros, TimeOfDay.ofMicros?]
  by_cases hclock : 0 ≤ n ∧ n < TimeOfDay.microsPerDay
  · simp [hclock]
  · rw [if_neg hclock]
    dsimp only
    split <;> simp [hclock]

end Epoch

/-! ## Partition values -/

/-- Whether an integer of a type can be shown: days and moments lie in the calendar, times on one
day, and other numbers are not too long. -/
def DataType.showsCount : DataType → Int → Bool
  | .primitive .date, n => TimeForm.day.inCalendar n
  | .primitive .time, n => 0 ≤ n && n < TimeOfDay.microsPerDay
  | .primitive .timestamp, n | .primitive .timestamptz, n => TimeForm.moment.inCalendar n
  | _, n => decide (Numeral.Readable n.natAbs)

/-- Whether no integer in the text of a value is too long to be written. -/
def Value.isWritable (v : Value) : Bool := decide (∀ n ∈ v.numbers, Numeral.Readable n)

theorem Value.succeeds_write {v : Value} : Succeeds v.write ↔ v.isWritable = true := by
  rw [Value.write, Numeral.write, Value.isWritable]
  split <;> simp_all

/-- Bytes are shown in base 64 and other values by their texts, so that the same ones can be shown. -/
theorem Value.succeeds_humanText {v : Value} : Succeeds v.humanText ↔ v.isWritable = true := by
  cases v with
  | bytes bs => exact ⟨fun _ => rfl, fun _ => succeeds_ok _⟩
  | _ => exact Value.succeeds_write

/-- A truth value or an integer is written as one number. -/
theorem Value.isWritable_ofWhole (w : Whole) :
    (Value.ofWhole w).isWritable = decide (Numeral.Readable w.toInt.natAbs) := by
  cases w with
  | flag b => cases b <;> decide
  | number n => exact decide_eq_decide.mpr List.forall_mem_singleton

/-! ## Values of a type -/

/-- Days and moments of the calendar are counted by few digits. -/
theorem TimeForm.natAbs_lt_of_inCalendar (form : TimeForm) {n : Int} (h : form.inCalendar n = true) :
    n.natAbs < 10 ^ 19 := by
  cases form with
  | day | moment =>
    obtain ⟨hlow, hhigh⟩ := Bool.and_eq_true_iff.mp h
    have hlow := of_decide_eq_true hlow
    have hhigh := of_decide_eq_true hhigh
    simp only [Date.firstNumber, Date.lastNumber, Timestamp.dayOfMicros,
      TimeOfDay.microsPerDay] at hlow hhigh
    omega

namespace Primitive

variable {p : Primitive}

/-- An integer of a type fits into eight bytes. -/
theorem natAbs_lt_of_holds {w : Whole} (h : p.holds (Value.ofWhole w) = true) :
    w.toInt.natAbs < 10 ^ 19 := by
  cases w with
  | flag b => cases b <;> decide
  | number n =>
    obtain ⟨hadmits, hrange⟩ := Bool.and_eq_true_iff.mp h
    rw [Whole.toInt_number]
    cases p with
    | int | long | time =>
      obtain ⟨hlow, hhigh⟩ := Bool.and_eq_true_iff.mp hrange
      have hlow := of_decide_eq_true hlow
      have hhigh := of_decide_eq_true hhigh
      omega
    | date => exact TimeForm.natAbs_lt_of_inCalendar .day hrange
    | timestamp | timestamptz => exact TimeForm.natAbs_lt_of_inCalendar .moment hrange
    | _ => simp [Value.ofWhole, admits] at hadmits

/-- **Values of a type** can be written. -/
theorem isWritable_of_holds {v : Value} (h : p.holds v = true) : v.isWritable = true := by
  cases hwhole : v.whole? with
  | some w =>
    obtain rfl := Value.eq_ofWhole_of_whole? hwhole
    rw [Value.isWritable_ofWhole, decide_eq_true_eq]
    have hsmall := natAbs_lt_of_holds h
    exact Numeral.readable_of_lt (by omega)
  | none =>
    cases v <;> cases p <;>
      simp_all [holds, admits, Value.whole?, Value.isWritable, Value.numbers]

/-- **Integers of a type** can be shown as what they count. -/
theorem showsCount_of_holds {w : Whole} (h : p.holds (Value.ofWhole w) = true) :
    (DataType.primitive p).showsCount w.toInt = true := by
  have hsmall := natAbs_lt_of_holds h
  have hreadable : Numeral.Readable w.toInt.natAbs := Numeral.readable_of_lt (by omega)
  cases w with
  | flag b => cases p <;> simp_all [holds, Value.ofWhole, admits, DataType.showsCount]
  | number n =>
    cases p <;>
      simp_all [holds, Value.ofWhole, admits, inRange, DataType.showsCount, Whole.toInt_number,
        TimeOfDay.microsPerDay]

end Primitive

/-! ## Texts of values -/

namespace Transform

/-- Whether an integer can be shown as a result of the transform: identity shows it as a value of the
type, days and hours are moments, and a year is a number of its own. -/
def showsNumber (type : DataType) (n : Int) : Transform → Bool
  | .identity => type.showsCount n
  | .time .year => decide (Numeral.Readable (1970 + n).natAbs)
  | .time .month => decide (Numeral.Readable (1970 + n / 12).natAbs)
  | .time .day => TimeForm.day.inCalendar n
  | .time .hour => TimeForm.moment.inCalendar (n * 3600000000)
  | .void => true
  | .bucket _ | .truncate _ | .unknown _ => decide (Numeral.Readable n.natAbs)

/-- Whether a value that is no integer can be shown. Void and units of time do not look at it. -/
def showsOther (v : Value) : Transform → Bool
  | .void | .time _ => true
  | .identity | .bucket _ | .truncate _ | .unknown _ => v.isWritable

theorem showsOther_null (t : Transform) : t.showsOther .null = true := by
  cases t <;> simp [showsOther, Value.isWritable, Value.numbers]

/-- Whether a partition value has a text. -/
def hasText (t : Transform) (type : DataType) (v : Value) : Bool :=
  match v.whole? with
  | some w => t.showsNumber type w.toInt
  | none => t.showsOther v

theorem succeeds_humanIdentity {type : DataType} {v : Value} {w : Whole} (hv : v.whole? = some w) :
    Succeeds (humanIdentity type v) ↔ type.showsCount w.toInt = true := by
  -- Counts of time have texts within the calendar only; every other number has one within the limit.
  cases hcount : type.humanCount? with
  | none =>
    have hshows : type.showsCount w.toInt = decide (Numeral.Readable w.toInt.natAbs) := by
      unfold DataType.humanCount? at hcount
      unfold DataType.showsCount
      split <;> simp_all
    rw [hshows, ← Value.isWritable_ofWhole, ← Value.eq_ofWhole_of_whole? hv,
      ← Value.succeeds_humanText]
    simp only [humanIdentity, hv, hcount]
  | some text =>
    simp only [humanIdentity, hv, hcount]
    unfold DataType.humanCount? at hcount
    split at hcount
    · obtain rfl := Option.some.inj hcount
      exact succeeds_map.trans Epoch.succeeds_dateOfDay
    · obtain rfl := Option.some.inj hcount
      simp [DataType.showsCount, Epoch.renderTime, Epoch.succeeds_timeOfMicros]
    · obtain rfl := Option.some.inj hcount
      exact succeeds_map.trans Epoch.succeeds_timestampOfMicros
    · obtain rfl := Option.some.inj hcount
      exact succeeds_map.trans Epoch.succeeds_timestampOfMicros
    · simp at hcount

/-- A unit of time can be shown where the calendar or the length of the number allows it. -/
theorem succeeds_humanUnit {u : TimeUnit} {type : DataType} {n : Int} :
    Succeeds (u.human n) ↔ (time u).showsNumber type n = true := by
  have hwrite (m : Nat) (text : String) :
      Succeeds (Numeral.write [m] text) ↔ decide (Numeral.Readable m) = true := by
    rw [Numeral.write]
    split <;> simp_all
  cases u with
  | year | month => exact hwrite _ _
  | day => exact succeeds_map.trans Epoch.succeeds_dateOfDay
  | hour => exact succeeds_map.trans Epoch.succeeds_timestampOfMicros

/-- **Texts of partition values.** An integer has a text if the calendar and the clock can show it where
they are asked to, and the number is not too long where they are not; any other value has one if no
integer in it is too long. -/
theorem succeeds_human {t : Transform} {type : DataType} {v : Value} :
    Succeeds (t.human type v) ↔ t.hasText type v = true := by
  -- Only a whole number is looked at by the transform; any other value has the text it has.
  cases hwhole : v.whole? with
  | none =>
    rw [hasText, hwhole, human]
    split
    · rename_i hnull
      rw [Value.eq_null_of_isNull hnull, showsOther_null]
      exact iff_of_true (succeeds_ok _) rfl
    · cases t with
      | identity => simp only [humanOfValue, humanIdentity, hwhole, showsOther, Value.succeeds_humanText]
      | truncate width => exact Value.succeeds_humanText
      | bucket count | unknown name => exact Value.succeeds_write
      | void | time u => simp [humanOfValue, hwhole, showsOther]
  | some w =>
    have hvalue := Value.eq_ofWhole_of_whole? hwhole
    have hnull : v.isNull = false := by
      rw [hvalue]
      exact Value.isNull_ofWhole w
    rw [hasText, hwhole, human, hnull]
    simp only [Bool.false_eq_true, if_false]
    cases t with
    | identity => exact succeeds_humanIdentity hwhole
    | time u =>
      simp only [humanOfValue, hwhole]
      exact succeeds_humanUnit
    | void => simp [humanOfValue, showsNumber]
    | truncate width =>
      rw [showsNumber, ← Value.isWritable_ofWhole, ← hvalue]
      exact Value.succeeds_humanText
    | bucket count | unknown name =>
      rw [showsNumber, ← Value.isWritable_ofWhole, ← hvalue]
      exact Value.succeeds_write

/-- **Values of the result type** have a text, whatever the transform, but for hours: these are counted
beyond the calendar. -/
theorem hasText_of_holds {t : Transform} {source : DataType} {p : Primitive} {v : Value}
    (htype : t.resultType source = .primitive p) (ht : t ≠ .time .hour) (hv : p.holds v = true) :
    t.hasText (t.resultType source) v = true := by
  rw [htype, hasText]
  cases hwhole : v.whole? with
  | none =>
    have hwritable : v.isWritable = true := Primitive.isWritable_of_holds hv
    cases t <;> simp [showsOther, hwritable]
  | some w =>
    obtain rfl := Value.eq_ofWhole_of_whole? hwhole
    obtain ⟨hadmits, hrange⟩ := Bool.and_eq_true_iff.mp hv
    have hsmall := Primitive.natAbs_lt_of_holds hv
    -- Every number of a column is far below the limit.
    have hreadable {n : Int} (h : n.natAbs < 10 ^ 20) : decide (Numeral.Readable n.natAbs) = true :=
      decide_eq_true (Numeral.readable_of_lt h)
    cases t with
    | identity => exact Primitive.showsCount_of_holds hv
    | time u =>
      cases u with
      -- Hours are the exception: a column of them holds more than the calendar has.
      | hour => exact absurd rfl ht
      | day =>
        obtain rfl : Primitive.date = p := by simpa [resultType] using htype
        cases w with
        | flag b => simp [Value.ofWhole, Primitive.admits] at hadmits
        | number n => exact hrange
      | year => exact hreadable (by omega)
      | month => exact hreadable (by omega)
    | void => rfl
    | bucket _ | truncate _ | unknown _ => exact hreadable (by omega)

/-- The result of a transform is a struct only if it is void. -/
theorem eq_void_of_resultType {t : Transform} {source : DataType} {fields : List Field}
    (hresult : t.resultType source = .struct fields)
    (haccepts : t.canTransform source = true ∨ ∃ name, t = .unknown name) : t = .void := by
  cases t with
  | void => rfl
  | identity =>
    obtain rfl : source = .struct fields := hresult
    simp [canTransform, DataType.isPrimitive] at haccepts
  | truncate width =>
    obtain rfl : source = .struct fields := hresult
    simp [canTransform, DataType.truncateForm?] at haccepts
  | time u => cases u <;> cases hresult
  | bucket _ | unknown _ => cases hresult

end Transform

/-! ## Partitions -/

namespace PartitionSpec

/-- Whether all values of a partition are there and have a text. -/
def HasTexts (s : PartitionSpec) (schema : Schema) (partition : Value) : Prop :=
  ∀ i f, s.fields[i]? = some f → ∃ g v, resultField schema f = .ok g ∧ partition.at i = .ok v ∧
    f.transform.hasText g.type v = true

theorem succeeds_segment {f : PartitionField} {type : DataType} {v : Value} :
    Succeeds (f.segment type v) ↔ f.transform.hasText type v = true := by
  rw [PartitionField.segment, succeeds_bind, ← Transform.succeeds_human]
  exact exists_congr fun text => and_iff_left ⟨_, rfl⟩

/-- The segments from a position on show the values there. Induction on the partition fields. -/
theorem succeeds_segmentsFrom {partition : Value} {position : Nat}
    {pairs : List (PartitionField × Field)} :
    Succeeds (segmentsFrom partition position pairs) ↔
      ∀ i f g, pairs[i]? = some (f, g) →
        ∃ v, partition.at (position + i) = .ok v ∧ f.transform.hasText g.type v = true := by
  -- The position moves along with the fields, so the induction is for every first position.
  induction pairs generalizing position with
  | nil => simp [segmentsFrom]
  | cons pair rest ih =>
    obtain ⟨f, g⟩ := pair
    simp only [segmentsFrom, succeeds_bind]
    constructor
    · rintro ⟨v, hv, segment, hsegment, segments, hsegments, _⟩ i f' g' hi
      cases i with
      | zero =>
        obtain ⟨rfl, rfl⟩ : f = f' ∧ g = g' := by simpa using hi
        exact ⟨v, hv, succeeds_segment.mp ⟨segment, hsegment⟩⟩
      | succ i =>
        obtain ⟨v', hv', htext⟩ := ih.mp ⟨segments, hsegments⟩ i f' g' hi
        exact ⟨v', by rwa [Nat.add_right_comm] at hv', htext⟩
    · intro h
      obtain ⟨v, hv, htext⟩ := h 0 f g rfl
      obtain ⟨segment, hsegment⟩ := succeeds_segment.mpr htext
      obtain ⟨segments, hsegments⟩ : Succeeds (segmentsFrom partition (position + 1) rest) := by
        refine ih.mpr fun i f' g' hi => ?_
        rw [Nat.add_right_comm]
        exact h (i + 1) f' g' hi
      exact ⟨v, hv, segment, hsegment, segments, hsegments, ⟨_, rfl⟩⟩

/-- **Paths of partitions.** A partition has a path exactly if all of its values are there and have a
text. -/
theorem succeeds_path {s : PartitionSpec} {schema : Schema} {partition : Value} :
    Succeeds (s.path schema partition) ↔ s.HasTexts schema partition := by
  simp only [path, succeeds_bind]
  constructor
  · rintro ⟨results, hresults, segments, hsegments, _⟩ i f hi
    obtain ⟨g, hg, hresult⟩ := getElem?_of_mapM hresults hi
    have hpair : (s.fields.zip results)[i]? = some (f, g) := List.getElem?_zip_eq_some.mpr ⟨hi, hg⟩
    obtain ⟨v, hv, htext⟩ := succeeds_segmentsFrom.mp ⟨segments, hsegments⟩ i f g hpair
    exact ⟨g, v, hresult, by rwa [Nat.zero_add] at hv, htext⟩
  · intro h
    obtain ⟨results, hresults⟩ : Succeeds (s.resultFields schema) := by
      refine succeeds_mapM.mpr fun f hf => ?_
      obtain ⟨i, hi⟩ := List.mem_iff_getElem?.mp hf
      obtain ⟨g, _, hresult, _⟩ := h i f hi
      exact ⟨g, hresult⟩
    obtain ⟨segments, hsegments⟩ : Succeeds (segmentsFrom partition 0 (s.fields.zip results)) := by
      refine succeeds_segmentsFrom.mpr fun i f g hpair => ?_
      obtain ⟨hi, hg⟩ := List.getElem?_zip_eq_some.mp hpair
      obtain ⟨g', v, hresult, hv, htext⟩ := h i f hi
      obtain ⟨g'', hg'', hresult'⟩ := getElem?_of_mapM hresults hi
      -- The result field at a position is the one of the partition field there.
      obtain rfl : g = g'' := Option.some.inj (hg.symm.trans hg'')
      obtain rfl : g = g' := Except.ok.inj (hresult'.symm.trans hresult)
      exact ⟨v, by rwa [Nat.zero_add], htext⟩
    exact ⟨results, hresults, segments, hsegments, ⟨_, rfl⟩⟩

/-- **Values of the partition type** are shown in a path, if none of them is an hour. -/
theorem hasTexts_of_holds {s : PartitionSpec} {schema : Schema} {results : List Field}
    {partition : Value} (hresults : s.resultFields schema = .ok results)
    (hholds : (DataType.struct results).holds partition = true)
    (hhour : ∀ f ∈ s.fields, f.transform ≠ .time .hour) : s.HasTexts schema partition := by
  intro i f hi
  obtain ⟨g, hg, hresult⟩ := getElem?_of_mapM hresults hi
  cases partition with
  | record values =>
    have hfits := (Field.fitsAll_holds results values).trans hholds
    obtain ⟨v, hv, hfield⟩ := Field.fits_of_fitsAll hfits hg
    rw [Field.fits_holds] at hfield
    refine ⟨g, v, hresult, by simp [Value.at, Value.element, hv], ?_⟩
    obtain ⟨source, _, rfl, haccepts⟩ := resultField_inv hresult
    simp only [Field.holds, Bool.or_eq_true, Bool.and_eq_true] at hfield
    -- a null has its own text, whatever the type is
    rcases hfield with ⟨hnull, _⟩ | htype
    · rw [Value.eq_null_of_isNull hnull]
      exact f.transform.showsOther_null
    · cases hprimitive : f.transform.resultType source.type with
      | primitive p =>
        rw [← hprimitive]
        rw [hprimitive] at htype
        exact Transform.hasText_of_holds hprimitive (hhour f (List.mem_of_getElem? hi)) htype
      | struct fields =>
        rw [hprimitive] at htype
        cases v <;> simp [DataType.holds] at htype
        rw [Transform.eq_void_of_resultType hprimitive haccepts]
        rfl
      | other => simp [hprimitive, DataType.holds] at htype
  | _ => simp [DataType.holds] at hholds

end PartitionSpec

end PartitionPruning
