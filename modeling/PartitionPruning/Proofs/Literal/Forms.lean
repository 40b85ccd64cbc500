import PartitionPruning.Proofs.Filter.Safety
import PartitionPruning.Proofs.Numeral.Binary

/-!
# Literals that are converted alike

Literals are equal if their values are, but the class of a literal decides what it can be converted
to: the truth value true and the integer one are equal, and only the integer becomes an integer
literal. The form of a literal is what conversions ask for besides its value: its class, where
sequences of bytes have one form and so have singles and doubles of one number, and for a decimal the
number of its places.

* **`Alike.convert`** — equal literals of one form are converted to equal literals of one form.
* **`agree_convert_iff`** — equal literals are converted alike to every type only if they have one form.
-/

namespace PartitionPruning

open Outcome (Agree Succeeds bind_eq_ok map_eq_ok)

namespace Value

/-- Whether a value has a key. -/
theorem sameKey_self {v : Value} : v.SameKey v ↔ v.key?.isSome = true := by
  rw [Option.isSome_iff_exists]
  exact ⟨fun ⟨k, hk, _⟩ => ⟨k, hk⟩, fun ⟨k, hk⟩ => ⟨k, hk, hk⟩⟩

/-- Having the same key is transitive. -/
theorem SameKey.trans {u v w : Value} (h : u.SameKey v) (h' : v.SameKey w) : u.SameKey w := by
  obtain ⟨k, hu, hv⟩ := h
  obtain ⟨k', hv', hw⟩ := h'
  exact ⟨k, hu, Option.some.inj (hv.symm.trans hv') ▸ hw⟩

/-- What has the same key as another value has a key. -/
theorem SameKey.left {v w : Value} (h : v.SameKey w) : v.SameKey v := h.trans h.symm

/-- Doubles with one key are the same, or both are zero. -/
theorem eq_or_isZero_of_sameKey {x y : Binary64} (h : (Value.float x).SameKey (.float y)) :
    x = y ∨ x.isZero = true ∧ y.isZero = true := by
  obtain ⟨k, hx, hy⟩ := h
  rw [key?_eq_number rfl, Option.map_eq_some_iff] at hx hy
  obtain ⟨a, hx, rfl⟩ := hx
  obtain ⟨b, hy, hb⟩ := hy
  obtain rfl := Key.number.inj hb
  exact Binary64.eq_or_isZero hx hy

/-- A float with a key is a number. -/
theorem isNaN_of_sameKey {x : Binary64} (h : (Value.float x).SameKey (.float x)) :
    x.isNaN = false := by
  rw [Bool.eq_false_iff]
  intro hnan
  rw [sameKey_self, key?_eq_number rfl, Binary64.toDecimal, hnan] at h
  simp [Decimal.exactValue?] at h

end Value

namespace Literal

/-- What the conversions of a literal depend on besides its value. -/
inductive Form where
  | boolean
  | long
  | floating (single : Bool)
  | date
  | time
  | timestamp
  | decimal (scale : Option Nat)
  | string
  | uuid
  | bytes
  | mark
  deriving DecidableEq

/-- Whether a double is a finite number of single precision. -/
def isSingle (x : Binary64) : Bool :=
  match toFloat x with
  | .ok (.float y) => x = y
  | _ => false

/-- The form of a literal. A single has that of the double that it is, if it is finite. -/
def form : Literal → Form
  | .boolean _ => .boolean
  | .long _ => .long
  | .float x => .floating (isSingle x)
  | .double _ => .floating true
  | .date _ => .date
  | .time _ => .time
  | .timestamp _ => .timestamp
  | .decimal d => .decimal d.scale?
  | .string _ => .string
  | .uuid _ => .uuid
  | .fixed _ | .binary _ => .bytes
  | .aboveMax _ | .belowMin _ => .mark

/-- Whether two literals are equal and have one form. -/
def Alike (l m : Literal) : Prop := l.value.SameKey m.value ∧ l.form = m.form

/-- Being alike is symmetric. -/
theorem Alike.symm {l m : Literal} (h : l.Alike m) : m.Alike l := ⟨h.1.symm, h.2.symm⟩

/-- Being alike is transitive. -/
theorem Alike.trans {l m k : Literal} (h : l.Alike m) (h' : m.Alike k) : l.Alike k :=
  ⟨h.1.trans h'.1, h.2.trans h'.2⟩

/-- Literals are equal if they have the same key. -/
theorem eq_eq_ok_true_iff {l m : Literal} : l.eq m = .ok true ↔ l.value.SameKey m.value := by
  rw [← Value.same_iff_key m.isScalar_value, Value.same, eq]
  cases Value.eq l.value m.value <;> simp

/-- A value of single precision is converted to itself. -/
theorem toFloat_of_isSingle {x : Binary64} (h : isSingle x = true) : toFloat x = .ok (.float x) := by
  unfold isSingle at h
  split at h
  · rename_i y hy
    rw [hy, decide_eq_true_eq.mp h]
  · simp at h

/-- Both zeros are of single precision. -/
theorem isSingle_of_isZero {x : Binary64} (h : x.isZero = true) : isSingle x = true := by
  obtain ⟨negative, rfl⟩ := Binary64.eq_zero_of_isZero h
  cases negative <;> decide +kernel

/-! ## Conversions of one literal -/

/-- A float has a key unless it is no number. -/
theorem isSome_key?_float (x : Binary64) : (Value.float x).key?.isSome = !x.isNaN := by
  rw [Value.key?_eq_number rfl, Option.isSome_map]
  cases hnan : x.isNaN with
  | true => simp [Binary64.toDecimal, hnan, Decimal.exactValue?]
  | false =>
    cases hinfinite : x.isInfinite with
    | true => simp [Binary64.toDecimal, hnan, hinfinite, Decimal.exactValue?]
    | false => simp [Binary64.exactValue?_toDecimal hnan hinfinite]

/-- A whole number has a key. -/
theorem isSome_key?_ofWhole (w : Whole) : (Value.ofWhole w).key?.isSome = true := by
  rw [Value.key?_ofWhole]
  rfl

/-- The literals that have a key are those that can be compared with all others of their kind. -/
theorem sameKey_self_iff (l : Literal) :
    l.value.SameKey l.value ↔ l.isOrdered = true ∧ l.value.isUnordered = false := by
  rw [Value.sameKey_self]
  -- Only floats and decimals have values without a key.
  cases l with
  | float x | double x => simp [value, isOrdered, Value.isUnordered, isSome_key?_float]
  | decimal d => cases d <;> simp [value, Value.key?, Value.number?, Decimal.exactValue?, isOrdered,
      Value.isUnordered, Decimal.isNaN]
  | long w | date w | time w | timestamp w =>
    have hw : (Value.ofWhole w).isUnordered = false := by cases w <;> rfl
    simp [value, isOrdered, isSome_key?_ofWhole, hw]
  | aboveMax t =>
    cases t with
    | float => exact iff_of_true ((isSome_key?_float _).trans (by decide)) ⟨rfl, rfl⟩
    | int | long => exact iff_of_true (isSome_key?_ofWhole (.number _)) ⟨rfl, rfl⟩
  | belowMin t =>
    cases t with
    | float => exact iff_of_true ((isSome_key?_float _).trans (by decide)) ⟨rfl, rfl⟩
    | int | long => exact iff_of_true (isSome_key?_ofWhole (.number _)) ⟨rfl, rfl⟩
  | boolean b => exact iff_of_true (isSome_key?_ofWhole (.flag b)) ⟨rfl, rfl⟩
  | _ => exact iff_of_true rfl ⟨rfl, rfl⟩

/-- A literal that has a key is converted to literals that have one. -/
theorem sameKey_of_convert {l l' : Literal} {t : DataType} (hl : l.value.SameKey l.value)
    (h : l.convert t = .ok l') : l'.value.SameKey l'.value := by
  obtain ⟨p, rfl⟩ := primitive_of_convert h
  have hordered := ((sameKey_self_iff l).mp hl).1
  exact (sameKey_self_iff l').mpr ⟨isOrdered_of_convert hordered h, isUnordered_of_isOrdered hordered h⟩

/-- A literal with a key converts like itself: the outcome is alike, not only equal. -/
theorem agree_convert_self {l : Literal} (hl : l.value.SameKey l.value) (t : DataType) :
    Agree Alike (l.convert t) (l.convert t) := by
  cases h : l.convert t with
  | error => trivial
  | ok l' => exact ⟨sameKey_of_convert hl h, rfl⟩

/-! ## Conversions of two literals -/

/-- Only conversions to primitive types can differ. -/
theorem agree_of_primitive {l m : Literal}
    (h : ∀ p, Agree Alike (l.convert (.primitive p)) (m.convert (.primitive p))) (t : DataType) :
    Agree Alike (l.convert t) (m.convert t) := by
  by_cases ht : ∃ p, t = .primitive p
  · obtain ⟨p, rfl⟩ := ht
    exact h p
  · have hfails (k : Literal) : ∃ fault, k.convert t = .error fault := by
      cases hk : k.convert t with
      | error fault => exact ⟨fault, rfl⟩
      | ok k' => exact absurd (primitive_of_convert hk) ht
    obtain ⟨_, hl⟩ := hfails l
    obtain ⟨_, hm⟩ := hfails m
    rw [hl, hm]
    trivial

/-- Equal whole numbers are marked on the same side, or kept. -/
theorem alike_clamp {m n : Whole} (h : m.toInt = n.toInt) (t : Bounded) (low high : Int) :
    Alike (clamp t low high m) (clamp t low high n) := by
  unfold clamp
  rw [h]
  split
  · exact ⟨(sameKey_self_iff _).mpr ⟨rfl, by cases t <;> rfl⟩, rfl⟩
  · split
    · exact ⟨(sameKey_self_iff _).mpr ⟨rfl, by cases t <;> rfl⟩, rfl⟩
    · exact ⟨Value.sameKey_ofWhole.mpr h, rfl⟩

/-- Integers of one value. -/
theorem agree_convert_long {m n : Whole} (h : m.toInt = n.toInt) (t : DataType) :
    Agree Alike ((Literal.long m).convert t) ((Literal.long n).convert t) := by
  refine agree_of_primitive (fun p => ?_) t
  have hself : (Literal.long n).value.SameKey (Literal.long n).value :=
    (sameKey_self_iff _).mpr ⟨rfl, by cases n <;> rfl⟩
  -- Whole numbers of equal value differ as flags and numbers, which only the types of moments keep.
  cases p with
  | int | long => exact alike_clamp h _ _ _
  | date | time | timestamp | timestamptz => exact ⟨Value.sameKey_ofWhole.mpr h, rfl⟩
  | float =>
    have hsame : (Literal.long m).convert (.primitive .float) =
        (Literal.long n).convert (.primitive .float) := by simp only [convert, convertLong, h]
    exact hsame ▸ agree_convert_self hself _
  | double =>
    have hsame : (Literal.long m).convert (.primitive .double) =
        (Literal.long n).convert (.primitive .double) := by simp only [convert, convertLong, h]
    exact hsame ▸ agree_convert_self hself _
  | decimal precision scale =>
    have hsame : (Literal.long m).convert (.primitive (.decimal precision scale)) =
        (Literal.long n).convert (.primitive (.decimal precision scale)) := by
      simp only [convert, convertLong, h]
    exact hsame ▸ agree_convert_self hself _
  | _ => trivial

/-- A zero keeps its sign and takes the column's scale, unless that is out of reach. -/
theorem decimalOfDouble_zero (negative : Bool) (scale : Nat) :
    decimalOfDouble (Binary64.zero negative) scale =
      if -(scale : Int) < Decimal.lowestPlace then .error .undefinedDecimal
      else .ok (.decimal (.finite negative 0 (-scale))) := by
  have hzero : (Binary64.zero negative).toDecimal = .finite negative 0 0 := by
    cases negative <;> decide +kernel
  have hhigh : ¬ Decimal.highestPlace < -(scale : Int) := by
    unfold Decimal.highestPlace
    omega
  rw [decimalOfDouble, hzero, Decimal.quantize?]
  by_cases hlow : -(scale : Int) < Decimal.lowestPlace
  · simp [hlow]
  · simp [hlow, hhigh]

/-- Doubles of one value. -/
theorem agree_convert_double {x y : Binary64} (h : (Value.float x).SameKey (.float y)) (t : DataType) :
    Agree Alike ((Literal.double x).convert t) ((Literal.double y).convert t) := by
  rcases Value.eq_or_isZero_of_sameKey h with rfl | ⟨hx, hy⟩
  · exact agree_convert_self (l := .double x) h t
  · -- there are two zeros, which differ in their sign only
    refine agree_of_primitive (fun p => ?_) t
    cases p with
    | float =>
      have hsx := isSingle_of_isZero hx
      have hsy := isSingle_of_isZero hy
      change Agree Alike (toFloat x) (toFloat y)
      rw [toFloat_of_isSingle hsx, toFloat_of_isSingle hsy]
      exact ⟨h, by rw [form, form, hsx, hsy]⟩
    | double => exact ⟨h, rfl⟩
    | decimal precision scale =>
      obtain ⟨a, rfl⟩ := Binary64.eq_zero_of_isZero hx
      obtain ⟨b, rfl⟩ := Binary64.eq_zero_of_isZero hy
      change Agree Alike (decimalOfDouble _ scale) (decimalOfDouble _ scale)
      rw [decimalOfDouble_zero, decimalOfDouble_zero]
      split
      · trivial
      · refine ⟨⟨.number (0 : ℚ), ?_, ?_⟩, rfl⟩ <;>
          simp [value, Value.key?, Value.number?, Decimal.exactValue?, Binary64.signed_cast]
    | _ => trivial

/-- A finite single and the double that it is. -/
theorem agree_convert_single {x : Binary64} (hx : (Value.float x).SameKey (.float x))
    (hsingle : isSingle x = true) (t : DataType) :
    Agree Alike ((Literal.float x).convert t) ((Literal.double x).convert t) := by
  refine agree_of_primitive (fun p => ?_) t
  cases p with
  | float =>
    change Agree Alike (.ok (.float x)) (toFloat x)
    rw [toFloat_of_isSingle hsingle]
    exact ⟨hx, rfl⟩
  | double =>
    change Agree Alike (ofDouble .double x) (.ok (.double x))
    rw [ofDouble_eq_ok.mpr ⟨Value.isNaN_of_sameKey hx, rfl⟩]
    exact ⟨hx, rfl⟩
  | decimal precision scale =>
    exact agree_convert_self (l := .double x) hx (.primitive (.decimal precision scale))
  | _ => trivial

/-- Singles of one value. -/
theorem agree_convert_float {x y : Binary64} (h : (Value.float x).SameKey (.float y))
    (hsingle : isSingle x = isSingle y) (t : DataType) :
    Agree Alike ((Literal.float x).convert t) ((Literal.float y).convert t) := by
  rcases Value.eq_or_isZero_of_sameKey h with rfl | ⟨hx, hy⟩
  · exact agree_convert_self (l := .float x) h t
  · have hxy := (agree_convert_single h.left (isSingle_of_isZero hx) t).trans
      (agree_convert_double h t) fun _ _ _ => Alike.trans
    exact hxy.trans ((agree_convert_single h.symm.left (isSingle_of_isZero hy) t).symm
      fun _ _ => Alike.symm) fun _ _ _ => Alike.trans

/-- Equal decimals of the same scale convert alike. -/
theorem agree_convert_decimal {d d' : Decimal} (h : (Value.decimal d).SameKey (.decimal d'))
    (hscale : d.scale? = d'.scale?) (t : DataType) :
    Agree Alike ((Literal.decimal d).convert t) ((Literal.decimal d').convert t) := by
  refine agree_of_primitive (fun p => ?_) t
  cases p with
  | decimal precision scale =>
    change Agree Alike (decimalOfScale d d.render precision scale)
      (decimalOfScale d' d'.render precision scale)
    -- The scale is all that the conversion looks at.
    unfold decimalOfScale
    rw [hscale]
    cases hs : d'.scale? with
    | none => trivial
    | some s =>
      dsimp only
      split
      · exact ⟨h, congrArg Form.decimal hscale⟩
      · trivial
  | _ => trivial

/-- Sequences of bytes are converted alike whether they have to have a length or not. -/
theorem agree_convert_fixed (bs : List UInt8) (t : DataType) :
    Agree Alike ((Literal.fixed bs).convert t) ((Literal.binary bs).convert t) := by
  refine agree_of_primitive (fun p => ?_) t
  have hself (l : Literal) (hl : l.value = .bytes bs) : l.value.SameKey l.value :=
    ⟨.bytes bs, by rw [hl]; rfl, by rw [hl]; rfl⟩
  cases p with
  | fixed length =>
    by_cases hlength : bs.length = length
    · simp only [convert, hlength, if_true]
      exact ⟨hself (.fixed bs) rfl, rfl⟩
    · simp only [convert, hlength, Ne.symm hlength, if_false]
      trivial
  | binary => exact ⟨hself (.binary bs) rfl, rfl⟩
  | _ => trivial

/-- **Equal literals of one form** are converted to equal literals of one form. -/
theorem Alike.convert {l m : Literal} (h : l.Alike m) (t : DataType) :
    Agree Alike (l.convert t) (m.convert t) := by
  obtain ⟨hkey, hform⟩ := h
  cases l with
  | boolean b =>
    cases m <;> simp only [form, reduceCtorEq] at hform
    rename_i c
    have hbc : (Whole.flag b).toInt = (Whole.flag c).toInt := Value.sameKey_ofWhole.mp hkey
    obtain rfl : b = c := by cases b <;> cases c <;> simp_all [Whole.toInt]
    exact agree_convert_self hkey t
  | long w =>
    cases m <;> simp only [form, reduceCtorEq] at hform
    exact agree_convert_long (Value.sameKey_ofWhole.mp hkey) t
  | float x =>
    cases m <;> simp only [form, reduceCtorEq, Form.floating.injEq] at hform
    · exact agree_convert_float hkey hform t
    · exact (agree_convert_single hkey.left hform t).trans (agree_convert_double hkey t)
        fun _ _ _ => Alike.trans
  | double x =>
    cases m <;> simp only [form, reduceCtorEq, Form.floating.injEq] at hform
    · exact ((agree_convert_single hkey.symm.left hform.symm t).trans
        (agree_convert_double hkey.symm t) fun _ _ _ => Alike.trans).symm fun _ _ => Alike.symm
    · exact agree_convert_double hkey t
  | date w | time w =>
    cases m <;> simp only [form, reduceCtorEq] at hform
    refine agree_of_primitive (fun p => ?_) t
    cases p <;> first | exact ⟨hkey, rfl⟩ | trivial
  | timestamp w =>
    cases m <;> simp only [form, reduceCtorEq] at hform
    refine agree_of_primitive (fun p => ?_) t
    cases p with
    | timestamp | timestamptz => exact ⟨hkey, rfl⟩
    | date =>
      -- the day depends on the number alone
      simp only [Literal.convert, Value.sameKey_ofWhole.mp hkey]
      exact agree_convert_self (l := .timestamp _) hkey.symm.left (.primitive .date)
    | _ => trivial
  | decimal d =>
    cases m <;> simp only [form, reduceCtorEq, Form.decimal.injEq] at hform
    exact agree_convert_decimal hkey hform t
  | string s =>
    cases m <;> simp only [form, reduceCtorEq] at hform
    obtain rfl := Value.text.inj (hkey.eq rfl rfl)
    exact agree_convert_self hkey t
  | uuid u =>
    cases m <;> simp only [form, reduceCtorEq] at hform
    obtain rfl := Value.uuid.inj (hkey.eq rfl rfl)
    exact agree_convert_self hkey t
  | fixed bs =>
    cases m <;> simp only [form, reduceCtorEq] at hform <;>
      obtain rfl := Value.bytes.inj (hkey.eq rfl rfl)
    · exact agree_convert_self hkey t
    · exact agree_convert_fixed bs t
  | binary bs =>
    cases m <;> simp only [form, reduceCtorEq] at hform <;>
      obtain rfl := Value.bytes.inj (hkey.eq rfl rfl)
    · exact (agree_convert_fixed bs t).symm fun _ _ => Alike.symm
    · exact agree_convert_self hkey t
  | aboveMax a | belowMin a =>
    cases m <;> simp only [form, reduceCtorEq] at hform <;>
      exact agree_of_primitive (fun p => by cases p <;> trivial) t

/-! ## Literals of different forms -/

/-- What the key of a literal says about its form. -/
theorem form_of_key? {l : Literal} {k : Value.Key} (h : l.value.key? = some k) :
    match k with
    | .text _ => l.form = .string
    | .bytes _ => l.form = .bytes
    | .uuid _ => l.form = .uuid
    | .number _ => l.form ≠ .string ∧ l.form ≠ .bytes ∧ l.form ≠ .uuid := by
  -- Whatever is a number has the key of a number.
  have hnumber (d : Decimal) (v : Value) (hv : v.number? = some d) (hk : v.key? = some k) :
      ∃ x, k = .number x := by
    rw [Value.key?_eq_number hv, Option.map_eq_some_iff] at hk
    obtain ⟨x, _, rfl⟩ := hk
    exact ⟨x, rfl⟩
  cases l with
  | string | uuid | fixed | binary =>
    obtain rfl := Option.some.inj h
    rfl
  | long w | date w | time w | timestamp w =>
    obtain ⟨x, rfl⟩ : ∃ x, k = .number x := by cases w <;> exact hnumber _ _ rfl h
    simp [form]
  | aboveMax t | belowMin t =>
    obtain ⟨x, rfl⟩ : ∃ x, k = .number x := by cases t <;> exact hnumber _ _ rfl h
    simp [form]
  | boolean | float | double | decimal =>
    obtain ⟨x, rfl⟩ := hnumber _ _ rfl h
    simp [form]

/-- Which literals are converted to a type, of those that stand for numbers. -/
theorem succeeds_convert_of_number {l : Literal} {x : WithBotTop ℚ}
    (h : l.value.key? = some (.number x)) :
    (Succeeds (l.convert (.primitive .int)) ↔ l.form = .long) ∧
      (Succeeds (l.convert (.primitive .boolean)) ↔ l.form = .boolean) ∧
      (Succeeds (l.convert (.primitive .time)) ↔ l.form = .long ∨ l.form = .time) ∧
      (Succeeds (l.convert (.primitive .timestamp)) ↔ l.form = .long ∨ l.form = .timestamp) := by
  obtain ⟨hstring, -, -⟩ := form_of_key? h
  cases l <;> simp_all [form, convert, convertLong]

/-- Which literals besides are, if neither an integer nor a moment is. -/
theorem succeeds_convert_of_number_ne {l : Literal} {x : WithBotTop ℚ}
    (h : l.value.key? = some (.number x)) (hlong : l.form ≠ .long) (hmoment : l.form ≠ .timestamp) :
    (Succeeds (l.convert (.primitive .date)) ↔ l.form = .date) ∧
      (Succeeds (l.convert (.primitive .double)) ↔ ∃ single, l.form = .floating single) ∧
      ((¬ ∃ single, l.form = .floating single) → ∀ scale,
        (Succeeds (l.convert (.primitive (.decimal 0 scale))) ↔ l.form = .decimal (some scale))) := by
  obtain ⟨hstring, -, -⟩ := form_of_key? h
  -- Each remaining class is told apart by one of the three targets.
  cases l with
  | float y =>
    have hnan := Value.isNaN_of_sameKey (x := y) ⟨_, h, h⟩
    simp [form, convert, ofDouble, hnan]
  | decimal d =>
    have hconvert (scale : Nat) : Succeeds (decimalOfScale d d.render 0 scale) ↔
        d.scale? = some scale := by
      constructor
      · rintro ⟨_, hl⟩
        exact (decimalOfScale_eq_ok.mp hl).1
      · exact fun hscale => ⟨_, decimalOfScale_eq_ok.mpr ⟨hscale, rfl⟩⟩
    simp [form, hconvert, convert]
  | _ => simp_all [form, convert]

/-- Infinite numbers are no marks. -/
theorem form_ne_mark {l m : Literal} (h : l.value.SameKey m.value) (hl : l.form = .decimal none) :
    m.form ≠ .mark := by
  obtain ⟨k, hk, hk'⟩ := h
  have hfinite (x : Binary64) (hnan : x.isNaN = false) (hinfinite : x.isInfinite = false) :
      (Value.float x).key? = some (.number (x.rational : WithBotTop ℚ)) := by
    rw [Value.key?_eq_number rfl, Binary64.exactValue?_toDecimal hnan hinfinite]
    rfl
  -- A mark stands for a bound of its type, and those are finite.
  have hmark {t : Bounded} (v : Value) (hv : v = t.max ∨ v = t.min) :
      ∃ q : ℚ, v.key? = some (.number (q : WithBotTop ℚ)) := by
    cases t with
    | float =>
      rcases hv with rfl | rfl
      · exact ⟨_, hfinite _ (by decide) (by decide)⟩
      · exact ⟨_, hfinite _ (by decide) (by decide)⟩
    | int | long =>
      rcases hv with rfl | rfl
      · exact ⟨_, Value.key?_ofWhole (.number _)⟩
      · exact ⟨_, Value.key?_ofWhole (.number _)⟩
  cases l <;> simp only [form, reduceCtorEq, Form.decimal.injEq] at hl
  rename_i d
  obtain ⟨negative, rfl⟩ : ∃ negative, d = .infinite negative := by
    cases d with
    | finite => simp [Decimal.scale?] at hl
    | infinite negative => exact ⟨negative, rfl⟩
    | nan => simp [value, Value.key?, Value.number?, Decimal.exactValue?] at hk
  obtain rfl := Option.some.inj hk
  cases m with
  | aboveMax t =>
    obtain ⟨q, hq⟩ := hmark (t := t) t.max (Or.inl rfl)
    have := Option.some.inj (hk'.symm.trans hq)
    cases negative <;> cases this
  | belowMin t =>
    obtain ⟨q, hq⟩ := hmark (t := t) t.min (Or.inr rfl)
    have := Option.some.inj (hk'.symm.trans hq)
    cases negative <;> cases this
  | _ => simp [form]

/-- A single that is not finite differs from the double that it is when both are made singles. -/
theorem not_agree_convert_float {l m : Literal} (h : l.value.SameKey m.value)
    (hl : l.form = .floating false) (hm : m.form = .floating true) :
    ¬ Agree (fun l' m' : Literal => l'.value.SameKey m'.value)
      (l.convert (.primitive .float)) (m.convert (.primitive .float)) := by
  cases l <;> simp only [form, reduceCtorEq, Form.floating.injEq] at hl
  rename_i x
  have hnot {y : Binary64} (hy : (Value.float x).SameKey (.float y)) : x = y := by
    refine (Value.eq_or_isZero_of_sameKey hy).resolve_right fun hzero => ?_
    simp [isSingle_of_isZero hzero.1] at hl
  cases m <;> simp only [form, reduceCtorEq, Form.floating.injEq] at hm
  · obtain rfl := hnot h
    simp [hl] at hm
  · obtain rfl := hnot h
    change ¬ Agree _ (.ok (Literal.float x)) (toFloat x)
    cases hx : toFloat x with
    | error => exact id
    | ok z =>
      intro hz
      rcases toFloat_eq_ok hx with ⟨y, rfl⟩ | rfl | rfl
      · obtain rfl := hnot hz
        simp [isSingle, hx] at hl
      · -- the ends of the range are not beyond it
        obtain rfl := hnot hz
        revert hx
        decide +kernel
      · obtain rfl := hnot hz
        revert hx
        decide +kernel

/-- Doubles and singles of one value that become equal singles are of one form. -/
theorem form_eq_of_floating {l m : Literal} {single single' : Bool} (h : l.value.SameKey m.value)
    (hl : l.form = .floating single) (hm : m.form = .floating single')
    (hagree : Agree (fun l' m' : Literal => l'.value.SameKey m'.value)
      (l.convert (.primitive .float)) (m.convert (.primitive .float))) : l.form = m.form := by
  cases single <;> cases single'
  · exact hl.trans hm.symm
  · exact absurd hagree (not_agree_convert_float h hl hm)
  · exact absurd (hagree.symm fun _ _ => Value.SameKey.symm)
      (not_agree_convert_float h.symm hm hl)
  · exact hl.trans hm.symm

/-- **Equal literals** are converted alike to every type exactly if they have one form. -/
theorem agree_convert_iff {l m : Literal} (h : l.value.SameKey m.value) :
    (∀ t, Agree (fun l' m' : Literal => l'.value.SameKey m'.value) (l.convert t) (m.convert t)) ↔
      l.form = m.form := by
  refine ⟨fun hagree => ?_, fun hform t => (Alike.convert ⟨h, hform⟩ t).mono fun _ _ => And.left⟩
  obtain ⟨k, hl, hm⟩ := h
  have hkeyl := form_of_key? hl
  have hkeym := form_of_key? hm
  cases k with
  | text | bytes | uuid => exact hkeyl.trans hkeym.symm
  | number x =>
    have hsucceeds p := (hagree (.primitive p)).succeeds_iff
    obtain ⟨hint, hboolean, htime, hmoment⟩ := succeeds_convert_of_number hl
    obtain ⟨hint', hboolean', htime', hmoment'⟩ := succeeds_convert_of_number hm
    rw [hsucceeds, hint'] at hint
    rw [hsucceeds, hboolean'] at hboolean
    rw [hsucceeds, htime'] at htime
    rw [hsucceeds, hmoment'] at hmoment
    by_cases hlong : l.form = .long
    · exact hlong.trans (hint.mpr hlong).symm
    by_cases hstamp : l.form = .timestamp
    · have := hmoment.mpr (Or.inr hstamp)
      simp_all
    have hlong' : m.form ≠ .long := fun hm => hlong (hint.mp hm)
    have hstamp' : m.form ≠ .timestamp := fun hm => by simp_all
    obtain ⟨hdate, hdouble, hdecimal⟩ := succeeds_convert_of_number_ne hl hlong hstamp
    obtain ⟨hdate', hdouble', hdecimal'⟩ := succeeds_convert_of_number_ne hm hlong' hstamp'
    rw [hsucceeds, hdate'] at hdate
    rw [hsucceeds, hdouble'] at hdouble
    by_cases hfloating : ∃ single, l.form = .floating single
    · obtain ⟨single', hform'⟩ := hdouble.mpr hfloating
      obtain ⟨single, hform⟩ := hfloating
      exact form_eq_of_floating ⟨_, hl, hm⟩ hform hform' (hagree (.primitive .float))
    · have hscale scale := hdecimal hfloating scale
      simp only [hsucceeds, hdecimal' (fun hm => hfloating (hdouble.mp hm))] at hscale
      have hmark := form_ne_mark ⟨_, hl, hm⟩
      have hmark' := form_ne_mark ⟨_, hm, hl⟩
      -- infinite numbers and marks are converted to nothing
      cases hforml : l.form with
      | decimal scale =>
        cases hformm : m.form with
        | decimal scale' =>
          simp only [hforml, hformm, Form.decimal.injEq] at hscale
          exact congrArg Form.decimal (Option.ext fun s => (hscale s).symm)
        | mark => cases scale <;> simp_all
        | _ => simp_all
      | mark =>
        cases hformm : m.form with
        | decimal scale => cases scale <;> simp_all
        | _ => simp_all
      | _ => simp_all

end Literal

end PartitionPruning
