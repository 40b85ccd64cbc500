import PartitionPruning.Filter.Evaluate
import PartitionPruning.Proofs.Numeral.Exact
import PartitionPruning.Proofs.Outcome

/-!
# Comparisons of values

What the tests of predicates come to on integers and on nulls, and when two values are the same member
of a set. The values that literals stand for have keys: exact numbers, texts, bytes or identifiers.
Two of them are the same exactly if they have the same key; what is not a number has none.

* **`testCompare_int`** — a comparison of integers is that of the numbers.
* **`testCompare_null`** — a null satisfies the negated comparisons only.
* **`same_iff_key`** — being the same member of a set is having the same key.
* **`testMember_eq_ok`** — a test of membership looks for a member with the key of the value.
-/

namespace PartitionPruning

/-! ## Outcomes on numbers and nulls -/

namespace Comparison

/-- The truth of a comparison of integers; they have no beginnings. -/
def holds : Comparison → Int → Int → Bool
  | .equal, x, y => x = y
  | .notEqual, x, y => x ≠ y
  | .less, x, y => x < y
  | .lessOrEqual, x, y => x ≤ y
  | .greater, x, y => y < x
  | .greaterOrEqual, x, y => y ≤ x
  | .startsWith, _, _ | .notStartsWith, _, _ => false

/-- The outcome of a comparison of a null. -/
def ofNull : Comparison → Bool
  | .notEqual | .notStartsWith => true
  | _ => false

/-- Whether a comparison tests the beginning of a value. -/
def isBeginning : Comparison → Bool
  | .startsWith | .notStartsWith => true
  | _ => false

/-- Whether a comparison asks for an order. -/
def isOrdering : Comparison → Bool
  | .less | .lessOrEqual | .greater | .greaterOrEqual => true
  | _ => false

theorem isBeginning_of_isOrdering {op : Comparison} (h : op.isOrdering = true) :
    op.isBeginning = false := by
  cases op <;> simp_all [isOrdering, isBeginning]

theorem ofNull_of_isOrdering {op : Comparison} (h : op.isOrdering = true) : op.ofNull = false := by
  cases op <;> simp [isOrdering] at h <;> rfl

end Comparison

/-- The outcome of a test of membership, given whether the value is a member. -/
def Membership.outcome : Membership → Bool → Bool
  | .isIn, b => b
  | .notIn, b => !b

namespace Value

/-- What a value is compared by: its exact number, or the text, bytes or identifier that it is. -/
inductive Key where
  | number (x : WithBotTop ℚ)
  | text (s : String)
  | bytes (bs : List UInt8)
  | uuid (u : Uuid)

/-- The key of a value; what is not a number has none, and neither has a value of another kind. -/
def key? : Value → Option Key
  | .text s => some (.text s)
  | .bytes bs => some (.bytes bs)
  | .uuid u => some (.uuid u)
  | v => (v.number?.bind Decimal.exactValue?).map .number

/-- Whether two values have one key. -/
def SameKey (v w : Value) : Prop := ∃ k, v.key? = some k ∧ w.key? = some k

/-- Whether a value is of a kind that literals have. -/
def isScalar : Value → Bool
  | .bool _ | .int _ | .float _ | .text _ | .decimal _ | .bytes _ | .uuid _ => true
  | _ => false

/-- Values that are told apart by their keys: integers, texts, bytes and identifiers. -/
def isPlain : Value → Bool
  | .int _ | .text _ | .bytes _ | .uuid _ => true
  | _ => false

theorem isNull_ofWhole (w : Whole) : (ofWhole w).isNull = false := by cases w <;> rfl

theorem eq_int_ofWhole (n : Int) (w : Whole) : eq (.int n) (ofWhole w) = .ok (n == w.toInt) := by
  cases w with
  | number m => exact eq_int n m
  | flag b => cases b <;> simpa [eq, number?, ofWhole, Whole.toInt] using eq_int n _

theorem order_int_ofWhole (n : Int) (w : Whole) :
    order (.int n) (ofWhole w) = .ok (some (compare n w.toInt)) := by
  cases w with
  | number m => exact order_int n m
  | flag b => cases b <;> simpa [order, number?, ofWhole, Whole.toInt, isDecimal] using order_int n _

theorem less_int (n : Int) (w : Whole) : less (.int n) (ofWhole w) = .ok (n < w.toInt) := by
  simp only [less, order_int_ofWhole, Outcome.map_ok, Except.ok.injEq]
  rw [Bool.eq_iff_iff]
  simp [Int.compare_eq_lt]

theorem greater_int (n : Int) (w : Whole) : greater (.int n) (ofWhole w) = .ok (w.toInt < n) := by
  simp only [greater, order_int_ofWhole, Outcome.map_ok, Except.ok.injEq]
  rw [Bool.eq_iff_iff]
  simp [Int.compare_eq_gt]

theorem lessOrEqual_int (n : Int) (w : Whole) :
    lessOrEqual (.int n) (ofWhole w) = .ok (n ≤ w.toInt) := by
  simp only [lessOrEqual, order_int_ofWhole, Outcome.map_ok, Except.ok.injEq]
  rw [Bool.eq_iff_iff]
  simp [Int.compare_eq_lt]
  omega

theorem greaterOrEqual_int (n : Int) (w : Whole) :
    greaterOrEqual (.int n) (ofWhole w) = .ok (w.toInt ≤ n) := by
  simp only [greaterOrEqual, order_int_ofWhole, Outcome.map_ok, Except.ok.injEq]
  rw [Bool.eq_iff_iff]
  simp [Int.compare_eq_gt]
  omega

theorem eq_null {w : Value} (h : w.isNull = false) : eq .null w = .ok false := by
  cases w <;> simp_all [eq, number?, isNull]

theorem SameKey.symm {v w : Value} (h : v.SameKey w) : w.SameKey v := by
  obtain ⟨k, hv, hw⟩ := h
  exact ⟨k, hw, hv⟩

/-- Only the key matters. -/
theorem SameKey.congr {u v w : Value} (h : u.key? = v.key?) : u.SameKey w ↔ v.SameKey w := by
  rw [SameKey, SameKey, h]

theorem not_sameKey_null (w : Value) : ¬ Value.null.SameKey w := by
  rintro ⟨k, hk, _⟩
  simp [key?, number?] at hk

theorem key?_ofWhole (w : Whole) :
    key? (ofWhole w) = some (.number (w.toInt : ℚ)) := by
  cases w with
  | number n => simp [key?, ofWhole, number?, Decimal.exactValue?_ofInt, Whole.toInt]
  | flag b => cases b <;> simp [key?, ofWhole, number?, Decimal.exactValue?_ofInt, Whole.toInt]

theorem eq_number {v w : Value} {x y : Decimal} (hv : v.number? = some x)
    (hw : w.number? = some y) : eq v w = eqNumber x y := by
  cases v <;> cases w <;> simp_all [eq, number?]

theorem exactValue?_of_isSignaling {x : Decimal} (h : x.isSignaling = true) : x.exactValue? = none := by
  cases x <;> simp_all [Decimal.isSignaling, Decimal.exactValue?]

theorem key?_eq_number {v : Value} {x : Decimal} (h : v.number? = some x) :
    v.key? = x.exactValue?.map .number := by
  cases v <;> simp_all [key?, number?]

/-- Numbers are the same if they have the same exact value. -/
theorem same_number {v w : Value} {x y : Decimal} (hv : v.number? = some x)
    (hw : w.number? = some y) : same v w = true ↔ SameKey v w := by
  rw [SameKey, key?_eq_number hv, key?_eq_number hw, same, eq_number hv hw, eqNumber]
  by_cases hsignaling : (x.isSignaling || y.isSignaling) = true
  · -- a signaling value cannot be compared and has no key
    rw [if_pos hsignaling]
    rcases Bool.or_eq_true_iff.mp hsignaling with h | h
    · simp [exactValue?_of_isSignaling h]
    · simp [exactValue?_of_isSignaling h]
  · rw [if_neg hsignaling]
    simp only [beq_iff_eq, Decimal.order?_eq_some_eq]
    constructor
    · rintro ⟨a, hx, hy⟩
      exact ⟨.number a, by simp [hx], by simp [hy]⟩
    · rintro ⟨k, hk, hk'⟩
      obtain ⟨a, hx, rfl⟩ := Option.map_eq_some_iff.mp hk
      obtain ⟨b, hy, hb⟩ := Option.map_eq_some_iff.mp hk'
      obtain rfl : b = a := by simpa using hb
      exact ⟨b, hx, hy⟩

/-- **Members of sets.** A value is the same as one of a kind that literals have if both have one
key. -/
theorem same_iff_key {v w : Value} (hw : w.isScalar = true) :
    same v w = true ↔ SameKey v w := by
  cases hx : v.number? with
  | none =>
    cases v <;> cases w <;> simp_all [number?, isScalar, same, eq, SameKey, key?, eq_comm]
  | some x =>
    cases hy : w.number? with
    | some y => exact same_number hx hy
    | none =>
      cases v <;> cases w <;> simp_all [number?, isScalar, same, eq, SameKey, key?]

theorem isScalar_ofWhole (w : Whole) : (ofWhole w).isScalar = true := by cases w <;> rfl

/-- Equality with a value that literals may have can be tested unless the value refuses it. -/
theorem exists_eq {v w : Value} (hv : v.isHashable = true) (hw : w.isScalar = true)
    (hw' : w.isHashable = true) : ∃ b, eq v w = .ok b := by
  cases hx : v.number? with
  | none => cases v <;> cases w <;> simp_all [number?, isScalar, isHashable, eq]
  | some x =>
    cases hy : w.number? with
    | none => cases v <;> cases w <;> simp_all [number?, isScalar, isHashable, eq]
    | some y =>
      -- only decimals can refuse to be compared, and those that do are not hashable
      have hquiet {u : Value} {z : Decimal} (hu : u.number? = some z) (h : u.isHashable = true) :
          z.isSignaling = false := by
        cases u <;> simp_all [number?, isHashable]
        all_goals subst hu
        · rfl
        · rfl
        · rename_i f
          unfold Binary64.toDecimal
          split
          · rfl
          · split
            · rfl
            · simp only []
              split <;> rfl
      exact ⟨_, by rw [eq_number hx hy, eqNumber, hquiet hx hv, hquiet hy hw']; rfl⟩

theorem eq_null_of_isNull {v : Value} (h : v.isNull = true) : v = .null := by
  cases v <;> simp_all [isNull]

/-- **Plain values** are told apart by their keys. -/
theorem eq_of_key? {v w : Value} (hv : v.isPlain = true) (hw : w.isPlain = true)
    (h : v.key? = w.key?) : v = w := by
  have hint (m : Int) : key? (.int m) = some (.number (m : ℚ)) :=
    key?_ofWhole (.number m)
  cases v with
  | int m =>
    cases w with
    | int n =>
      rw [hint, hint] at h
      have hcast : (m : ℚ) = n := WithBotTop.coe_injective (by simpa using h)
      exact congrArg Value.int (by exact_mod_cast hcast)
    | _ => simp_all [isPlain, key?]
  | text s => cases w <;> simp_all [isPlain, key?]
  | bytes as => cases w <;> simp_all [isPlain, key?]
  | uuid u => cases w <;> simp_all [isPlain, key?]
  | _ => simp [isPlain] at hv

theorem SameKey.eq {v w : Value} (hv : v.isPlain = true) (hw : w.isPlain = true)
    (h : v.SameKey w) : v = w := by
  obtain ⟨k, hk, hk'⟩ := h
  exact eq_of_key? hv hw (hk.trans hk'.symm)

/-- Integers and truth values have the keys of their numbers. -/
theorem sameKey_ofWhole {m n : Whole} : (ofWhole m).SameKey (ofWhole n) ↔ m.toInt = n.toInt := by
  simp only [SameKey, key?_ofWhole, Option.some.injEq]
  constructor
  · rintro ⟨_, rfl, h⟩
    have hcast : (n.toInt : ℚ) = m.toInt := WithBotTop.coe_injective (by simpa using h)
    exact_mod_cast hcast.symm
  · intro h
    exact ⟨_, rfl, by rw [h]⟩

theorem eq_ofWhole_of_whole? {v : Value} {w : Whole} (h : v.whole? = some w) : v = ofWhole w := by
  cases v <;> simp [whole?] at h <;> subst h <;> rfl

end Value

/-! ## Tests of predicates -/

namespace Literal

/-- A literal stands for something. -/
theorem isNull_value (l : Literal) : l.value.isNull = false := by
  cases l with
  | long w | date w | time w | timestamp w => exact Value.isNull_ofWhole w
  | aboveMax t | belowMin t => cases t <;> rfl
  | _ => rfl

theorem isScalar_value (l : Literal) : l.value.isScalar = true := by
  cases l with
  | long w | date w | time w | timestamp w => exact Value.isScalar_ofWhole w
  | aboveMax t | belowMin t => cases t <;> rfl
  | _ => rfl

end Literal

namespace Predicate

/-- **Comparisons of integers.** -/
theorem testCompare_int {op : Comparison} (hop : op.isBeginning = false) (n : Int) (w : Whole) :
    testCompare op (.int n) (.ofWhole w) = .ok (op.holds n w.toInt) := by
  have hbeq (a b : Int) : (a == b) = decide (a = b) := by
    rw [Bool.eq_iff_iff]
    simp
  have hnull (outcome : Except Fault Bool) : unlessNull (.int n) outcome = outcome := rfl
  cases op with
  | equal => simp [testCompare, Value.eq_int_ofWhole, Comparison.holds, hbeq]
  | notEqual => simp [testCompare, Value.eq_int_ofWhole, Comparison.holds, hbeq]
  | less => rw [testCompare, hnull, Value.less_int]; rfl
  | lessOrEqual => rw [testCompare, hnull, Value.lessOrEqual_int]; rfl
  | greater => rw [testCompare, hnull, Value.greater_int]; rfl
  | greaterOrEqual => rw [testCompare, hnull, Value.greaterOrEqual_int]; rfl
  | startsWith | notStartsWith => simp [Comparison.isBeginning] at hop

/-- **Comparisons of a null.** -/
theorem testCompare_null (op : Comparison) {w : Value} (h : w.isNull = false) :
    testCompare op .null w = .ok op.ofNull := by
  cases op <;> simp [testCompare, unlessNull, Value.eq_null h, Comparison.ofNull, Value.isNull]

/-- Equality and its negation are those of the values. -/
theorem testCompare_single (op : Membership) (v w : Value) :
    testCompare op.single v w = (v.eq w).map op.outcome := by
  cases op with
  | isIn =>
    simp only [Membership.single, testCompare]
    cases v.eq w <;> rfl
  | notIn => rfl

/-- **Equality** with a literal is that of the keys. -/
theorem testCompare_single_eq_ok {op : Membership} {v : Value} {l : Literal} {t : Bool}
    (h : testCompare op.single v l.value = .ok t) :
    ∃ b, t = op.outcome b ∧ (b = true ↔ v.SameKey l.value) := by
  rw [testCompare_single] at h
  obtain ⟨b, hb, rfl⟩ := Outcome.map_eq_ok.mp h
  refine ⟨b, rfl, ?_⟩
  rw [← Value.same_iff_key l.isScalar_value, Value.same, hb]

/-- **Membership** is that of the key of the value. -/
theorem testMember_eq_ok {op : Membership} {v : Value} {ls : List Literal} {t : Bool}
    (h : testMember op v (ls.map Literal.value) = .ok t) :
    ∃ b, t = op.outcome b ∧ (b = true ↔ ∃ l ∈ ls, v.SameKey l.value) := by
  -- Both kinds of membership are one search, with its outcome or the opposite.
  have hin : ∃ b, v.isIn (ls.map Literal.value) = .ok b ∧ t = op.outcome b := by
    cases op with
    | isIn => exact ⟨t, h, rfl⟩
    | notIn =>
      obtain ⟨b, hb, rfl⟩ := Outcome.map_eq_ok.mp h
      exact ⟨b, hb, rfl⟩
  obtain ⟨b, hb, rfl⟩ := hin
  refine ⟨b, rfl, ?_⟩
  unfold Value.isIn at hb
  split at hb
  · obtain rfl := Except.ok.inj hb
    rw [List.any_map, List.any_eq_true]
    exact exists_congr fun l => and_congr_right fun _ => Value.same_iff_key l.isScalar_value
  · simp at hb

end Predicate

end PartitionPruning
