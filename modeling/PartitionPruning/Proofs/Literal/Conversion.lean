import PartitionPruning.Proofs.Outcome
import PartitionPruning.Proofs.Transform.Projection
import PartitionPruning.Proofs.Value.Domain

/-!
# Converted literals

A literal that was converted to the type of a column is of the kind of the type, and converting it to
the same type once more gives it back. Only marks and decimals that are no finite numbers cannot be
converted again.

* **`kind_of_convert`** — the value of a converted literal is of the kind of the type.
* **`convert_convert`** — converting a literal twice is converting it once, if it can be done.
-/

namespace PartitionPruning

open Outcome (bind_eq_ok map_eq_ok)

/-- Whether a value is of the kind that the literals of a type have. Truth values count as integers. -/
def Primitive.hasKind : Primitive → Value → Bool
  | .boolean, .bool _ => true
  | .int, v | .long, v | .date, v | .time, v | .timestamp, v | .timestamptz, v => v.whole?.isSome
  | .float, .float _ | .double, .float _ => true
  | .string, .text _ => true
  | .uuid, .uuid _ => true
  | .binary, .bytes _ | .fixed _, .bytes _ => true
  | .decimal _ _, .decimal _ => true
  | _, _ => false

/-- What a type holds is of its kind. -/
theorem Primitive.hasKind_of_holds {p : Primitive} {v : Value} (h : p.holds v = true) :
    p.hasKind v = true := by
  cases p <;> cases v <;> simp_all [Primitive.holds, Primitive.admits, hasKind, Value.whole?]

/-- The exact decimal of a float is no number exactly when the float is none. -/
theorem Binary64.isNaN_toDecimal (x : Binary64) : x.toDecimal.isNaN = x.isNaN := by
  cases hnan : x.isNaN with
  | true => simp [toDecimal, hnan, Decimal.isNaN]
  | false =>
    simp only [toDecimal, hnan]
    split
    · contradiction
    · split
      · rfl
      · split <;> rfl

namespace Literal

/-- Whether a converted literal can be converted again. -/
def isStable : Literal → Bool
  | .aboveMax _ | .belowMin _ => false
  | .decimal d => d.scale?.isSome
  | _ => true

/-- A whole number is one as a value too. -/
theorem whole?_ofWhole_isSome (w : Whole) : (Value.ofWhole w).whole?.isSome = true := by
  cases w <;> rfl

/-- A number that is put into a range stays what it is, or becomes a mark of the range. -/
theorem clamp_cases (t : Bounded) (low high : Int) (n : Whole) :
    (clamp t low high n = .long n ∧ low ≤ n.toInt ∧ n.toInt ≤ high) ∨
      clamp t low high n = .aboveMax t ∨ clamp t low high n = .belowMin t := by
  unfold clamp
  split
  · exact Or.inr (Or.inl rfl)
  · split
    · exact Or.inr (Or.inr rfl)
    · exact Or.inl ⟨rfl, by omega, by omega⟩

/-- What literals become when they are converted to a type. -/
def IsConverted : Primitive → Literal → Prop
  | .boolean, l => ∃ b, l = .boolean b
  | .int, l => ∃ n, l = toInt n
  | .long, l => ∃ n, l = toLong n
  | .float, l => (∃ x, l = .float x) ∨ l = .aboveMax .float ∨ l = .belowMin .float
  | .double, l => ∃ x, l = .double x
  | .date, l => ∃ n, l = .date n
  | .time, l => ∃ n, l = .time n
  | .timestamp, l | .timestamptz, l => ∃ n, l = .timestamp n
  | .decimal _ scale, l => ∃ d, l = .decimal d ∧ (d.scale? = some scale ∨ d.scale? = none)
  | .string, l => ∃ s, l = .string s
  | .uuid, l => ∃ u, l = .uuid u
  | .fixed length, l => ∃ bs, l = .fixed bs ∧ bs.length = length
  | .binary, l => ∃ bs, l = .binary bs

/-- A float literal is made of every float but those that are no number. -/
theorem ofDouble_eq_ok {make : Binary64 → Literal} {x : Binary64} {l : Literal} :
    ofDouble make x = .ok l ↔ x.isNaN = false ∧ l = make x := by
  cases hx : x.isNaN with
  | true => simp [ofDouble, hx]
  | false =>
    simp only [ofDouble, hx, Bool.false_eq_true, if_false, Except.ok.injEq, true_and]
    exact eq_comm

/-- The literal of a number is a float. -/
theorem ofNumber_eq_ok {v : Value} {l : Literal} (h : ofNumber v = .ok l) : ∃ x, l = .float x := by
  unfold ofNumber at h
  split at h
  · simp at h
  · split at h
    · simp at h
    · exact ⟨_, (ofDouble_eq_ok.mp h).2⟩

/-- Conversion to `float` keeps the value or marks the side it is off. -/
theorem toFloat_eq_ok {x : Binary64} {l : Literal} (h : toFloat x = .ok l) :
    (∃ x, l = .float x) ∨ l = .aboveMax .float ∨ l = .belowMin .float := by
  unfold toFloat at h
  split at h
  · exact Or.inr (Or.inl (Except.ok.inj h).symm)
  · exact Or.inr (Or.inr (Except.ok.inj h).symm)
  · exact Or.inl (ofNumber_eq_ok h)

/-- A decimal is taken over as it is, when its scale is the column's. -/
theorem decimalOfScale_eq_ok {d : Decimal} {shown : String} {precision scale : Nat} {l : Literal} :
    decimalOfScale d shown precision scale = .ok l ↔ d.scale? = some scale ∧ l = .decimal d := by
  unfold decimalOfScale
  cases hd : d.scale? with
  | none => simp
  | some s =>
    by_cases hs : scale = s
    · simp only [hs, if_true, Except.ok.injEq, true_and]
      exact eq_comm
    · simp only [hs, if_false, reduceCtorEq, Option.some.injEq, false_iff, not_and]
      exact fun heq => absurd heq.symm hs

/-- A double that becomes a decimal is rounded to the scale, unless it is not a number. -/
theorem decimalOfDouble_eq_ok {x : Binary64} {scale : Nat} {l : Literal}
    (h : decimalOfDouble x scale = .ok l) :
    ∃ d, l = .decimal d ∧ (d.scale? = some scale ∨ x.isNaN = true ∧ d.scale? = none) := by
  unfold decimalOfDouble at h
  split at h
  · rename_i d hd
    refine ⟨d, (Except.ok.inj h).symm, ?_⟩
    cases hx : x.toDecimal with
    | finite negative c e =>
      rw [hx] at hd
      obtain ⟨c', rfl⟩ := Decimal.exponent_quantize? hd
      exact Or.inl (by simp [Decimal.scale?])
    | infinite negative => simp [hx, Decimal.quantize?] at hd
    -- A quiet missing number passes unchanged; one that signals does not get through.
    | nan negative signaling payload =>
      have hnan : x.isNaN = true := by rw [← Binary64.isNaN_toDecimal, hx, Decimal.isNaN]
      rw [hx] at hd
      cases signaling with
      | true => simp [Decimal.quantize?] at hd
      | false =>
        obtain rfl : Decimal.nan negative false payload = d := by simpa [Decimal.quantize?] using hd
        exact Or.inr ⟨hnan, rfl⟩
  · simp at h

/-- An integer becomes a literal of the type. -/
theorem isConverted_long {n : Whole} {p : Primitive} {l' : Literal}
    (h : (Literal.long n).convert (.primitive p) = .ok l') : IsConverted p l' := by
  cases p with
  | float =>
    obtain ⟨x, _, h⟩ := bind_eq_ok.mp h
    exact Or.inl (ofNumber_eq_ok h)
  | double =>
    obtain ⟨x, _, h⟩ := bind_eq_ok.mp h
    exact ⟨x, (ofDouble_eq_ok.mp h).2⟩
  | decimal precision scale =>
    obtain rfl := Except.ok.inj h
    exact ⟨_, rfl, Or.inl (by simp [Decimal.scale?])⟩
  | int | long | date | time | timestamp | timestamptz =>
    obtain rfl := Except.ok.inj h
    exact ⟨n, rfl⟩
  | _ => simp [convert, convertLong] at h

/-- A text becomes a literal of the type. -/
theorem isConverted_string {s : String} {p : Primitive} {l' : Literal}
    (h : (Literal.string s).convert (.primitive p) = .ok l') : IsConverted p l' := by
  -- Each type reads a text in its own way, and all of them give a literal of their own class.
  cases p with
  | string =>
    obtain rfl := Except.ok.inj h
    exact ⟨s, rfl⟩
  | int | long =>
    obtain ⟨n, _, h⟩ := bind_eq_ok.mp h
    exact ⟨.number n, (Outcome.pure_eq_ok.mp h).symm⟩
  | timestamp | timestamptz =>
    obtain ⟨n, _, h⟩ := bind_eq_ok.mp h
    exact ⟨.number n, (Outcome.pure_eq_ok.mp h).symm⟩
  | date | time =>
    simp only [convert, convertText] at h
    split at h
    · exact ⟨_, (Except.ok.inj h).symm⟩
    · simp at h
  | uuid =>
    simp only [convert, convertText] at h
    split at h
    · exact ⟨_, (Except.ok.inj h).symm⟩
    · simp at h
  | decimal precision scale =>
    simp only [convert, convertText] at h
    split at h
    · obtain ⟨hscale, rfl⟩ := decimalOfScale_eq_ok.mp h
      exact ⟨_, rfl, Or.inl hscale⟩
    · simp at h
  | boolean =>
    simp only [convert, convertText] at h
    split at h
    · exact ⟨true, (Except.ok.inj h).symm⟩
    · split at h
      · exact ⟨false, (Except.ok.inj h).symm⟩
      · simp at h
  | _ => simp [convert, convertText] at h

/-- **Converted literals.** Each type has its own class of them. -/
theorem isConverted_of_convert {l l' : Literal} {p : Primitive}
    (h : l.convert (.primitive p) = .ok l') : IsConverted p l' := by
  -- The classes with one target have one line; the others are split by the target.
  cases l with
  | long n => exact isConverted_long h
  | string s => exact isConverted_string h
  | boolean b =>
    cases p <;> simp [convert] at h
    exact ⟨b, h.symm⟩
  | float x =>
    cases p <;> simp only [convert, reduceCtorEq, Except.ok.injEq] at h
    · exact Or.inl ⟨x, h.symm⟩
    · exact ⟨x, (ofDouble_eq_ok.mp h).2⟩
    · obtain ⟨d, rfl, hscale⟩ := decimalOfDouble_eq_ok h
      exact ⟨d, rfl, hscale.imp_right And.right⟩
  | double x =>
    cases p <;> simp only [convert, reduceCtorEq, Except.ok.injEq] at h
    · exact toFloat_eq_ok h
    · exact ⟨x, h.symm⟩
    · obtain ⟨d, rfl, hscale⟩ := decimalOfDouble_eq_ok h
      exact ⟨d, rfl, hscale.imp_right And.right⟩
  | date n | time n =>
    cases p <;> simp [convert] at h
    exact ⟨n, h.symm⟩
  | timestamp n =>
    cases p <;> simp only [convert, reduceCtorEq, Except.ok.injEq] at h
    · obtain ⟨m, _, h⟩ := bind_eq_ok.mp h
      exact ⟨.number m, (Outcome.pure_eq_ok.mp h).symm⟩
    · exact ⟨n, h.symm⟩
    · exact ⟨n, h.symm⟩
  | decimal d =>
    cases p <;> simp only [convert, reduceCtorEq] at h
    obtain ⟨hscale, rfl⟩ := decimalOfScale_eq_ok.mp h
    exact ⟨d, rfl, Or.inl hscale⟩
  | uuid u =>
    cases p <;> simp [convert] at h
    exact ⟨u, h.symm⟩
  | fixed bs =>
    cases p with
    | fixed length =>
      simp only [convert] at h
      split at h
      · rename_i hlength
        exact ⟨bs, (Except.ok.inj h).symm, hlength⟩
      · simp at h
    | binary => exact ⟨bs, (Except.ok.inj h).symm⟩
    | _ => simp [convert] at h
  | binary bs =>
    cases p with
    | fixed length =>
      simp only [convert] at h
      split at h
      · rename_i hlength
        exact ⟨bs, (Except.ok.inj h).symm, hlength.symm⟩
      · simp at h
    | binary => exact ⟨bs, (Except.ok.inj h).symm⟩
    | _ => simp [convert] at h
  | aboveMax t | belowMin t => cases p <;> simp [convert] at h

/-! ## What converted literals have in common -/

/-- **Kinds.** The value of a converted literal is of the kind of the type. -/
theorem hasKind_of_isConverted {p : Primitive} {l : Literal} (h : IsConverted p l) :
    p.hasKind l.value = true := by
  -- a mark stands for the end of the range that it lies behind
  have hclamp {t : Bounded} {low high : Int} {n : Whole} (ht : t ≠ .float) :
      (clamp t low high n).value.whole?.isSome = true := by
    rcases clamp_cases t low high n with ⟨h, _⟩ | h | h
    · rw [h]
      exact whole?_ofWhole_isSome n
    · cases t <;> simp_all [value, Bounded.max, Value.whole?]
    · cases t <;> simp_all [value, Bounded.min, Value.whole?]
  cases p with
  | int | long =>
    obtain ⟨n, rfl⟩ := h
    exact hclamp (by simp)
  | float => rcases h with ⟨x, rfl⟩ | rfl | rfl <;> rfl
  | date | time | timestamp | timestamptz =>
    obtain ⟨n, rfl⟩ := h
    exact whole?_ofWhole_isSome n
  | decimal precision scale =>
    obtain ⟨d, rfl, _⟩ := h
    rfl
  | fixed length =>
    obtain ⟨bs, rfl, _⟩ := h
    rfl
  | boolean | double | string | uuid | binary =>
    obtain ⟨_, rfl⟩ := h
    rfl

/-- A converted literal is of the column's kind. -/
theorem kind_of_convert {l l' : Literal} {p : Primitive}
    (h : l.convert (.primitive p) = .ok l') : p.hasKind l'.value = true :=
  hasKind_of_isConverted (isConverted_of_convert h)

/-- A converted literal that can be converted again stays what it is. -/
theorem convert_of_isStable {p : Primitive} {l : Literal} (h : IsConverted p l)
    (hstable : l.isStable = true) : l.convert (.primitive p) = .ok l := by
  cases p with
  | int =>
    obtain ⟨n, rfl⟩ := h
    -- What is in the range is kept, and a mark is not stable.
    rcases clamp_cases .int (-2147483648) 2147483647 n with ⟨h, _⟩ | h | h <;>
      simp_all [toInt, isStable, convert, convertLong]
  | long =>
    obtain ⟨n, rfl⟩ := h
    rcases clamp_cases .long (-9223372036854775808) 9223372036854775807 n with ⟨h, _⟩ | h | h <;>
      simp_all [toLong, isStable, convert, convertLong]
  | float =>
    rcases h with ⟨x, rfl⟩ | rfl | rfl
    · rfl
    · simp [isStable] at hstable
    · simp [isStable] at hstable
  | decimal precision scale =>
    obtain ⟨d, rfl, hscale | hnone⟩ := h
    · exact decimalOfScale_eq_ok.mpr ⟨hscale, rfl⟩
    · simp [isStable, hnone] at hstable
  | fixed length =>
    obtain ⟨bs, rfl, hlength⟩ := h
    simp [convert, hlength]
  | boolean | double | string | uuid | binary | date | time | timestamp | timestamptz =>
    obtain ⟨_, rfl⟩ := h
    rfl

/-- Marks and decimals that are no finite numbers are not converted. -/
theorem isStable_of_convert {p : Primitive} {l l' : Literal} (h : IsConverted p l)
    (h' : l.convert (.primitive p) = .ok l') : l.isStable = true := by
  cases l with
  | aboveMax t | belowMin t => cases p <;> simp [convert] at h'
  | decimal d =>
    cases p <;> simp only [convert, reduceCtorEq] at h'
    rw [isStable, (decimalOfScale_eq_ok.mp h').1]
    rfl
  | _ => rfl

/-- **Converting twice** is converting once. -/
theorem convert_convert {p : Primitive} {l l' l'' : Literal}
    (h : l.convert (.primitive p) = .ok l') (h' : l'.convert (.primitive p) = .ok l'') :
    l'' = l' := by
  have hconverted := isConverted_of_convert h
  have := convert_of_isStable hconverted (isStable_of_convert hconverted h')
  simpa using h'.symm.trans this

/-- The literal of a value gives the value back. -/
theorem value_of_ofValue {v : Value} {l : Literal} (hv : v.isScalar = true)
    (h : ofValue v = .ok l) : l.value = v := by
  cases v with
  | float x =>
    obtain ⟨_, rfl⟩ := ofDouble_eq_ok.mp h
    rfl
  | bool | int | text | decimal | bytes | uuid =>
    obtain rfl := Except.ok.inj h
    rfl
  | _ => simp [Value.isScalar] at hv

/-- An integer of 32 bits stays what it is. -/
theorem convert_int {n : Int} (h : -2147483648 ≤ n ∧ n ≤ 2147483647) :
    (Literal.long (.number n)).convert (.primitive .int) = .ok (.long (.number n)) := by
  have hclamp := clamp_inRange (t := .int) (n := .number n) h.1 h.2
  simp [convert, convertLong, toInt, hclamp]

/-- What converts to itself is no mark. -/
theorem isMark_of_isStable {l : Literal} (h : l.isStable = true) : l.isMark = false := by
  cases l <;> simp_all [isStable, isMark]

end Literal

end PartitionPruning
