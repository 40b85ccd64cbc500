import PartitionPruning.Proofs.Filter.Nulls
import PartitionPruning.Proofs.Transform.Contract
import PartitionPruning.Proofs.Transform.Truncation

/-!
# The contract of projections to multiples

An integer is truncated to the largest multiple of a width that is not above it. The range of the column
need not begin at a multiple. Then the smallest integers of the column lie above a multiple that is below
the range, and a projection whose literal is this multiple is bound as if it was below all partition values:
it misjudges the partition of the smallest integers. A literal beyond the range also decides for nulls.

* **`missesFirst`**, **`missesNull`** — the predicates whose projections misjudge the smallest integers and
  the nulls.
* **`outcome_compare_long`** — the outcome of a projected comparison, with a literal that may be beyond the
  range.
* **`honours_truncate_number_iff`** — the contract is honoured for all other predicates and values, and for
  none of these.
-/

namespace PartitionPruning

open Outcome

/-! ## Multiples -/

namespace Numeral

variable {width : Nat} {m n : Int}

/-- A number that is not below a multiple has one that is not below it either. -/
theorem floorMultiple_le_of_le (h : 0 < width) (hle : floorMultiple width n ≤ m) :
    floorMultiple width n ≤ floorMultiple width m := by
  obtain ⟨a, ha⟩ := dvd_floorMultiple width n
  obtain ⟨b, hb⟩ := dvd_floorMultiple width m
  have hlt := lt_floorMultiple_add h m
  rw [ha] at hle ⊢
  rw [hb] at hlt ⊢
  have hab : a < b + 1 := by
    refine Int.lt_of_mul_lt_mul_left (a := (width : Int)) ?_ (by omega)
    rw [Int.mul_add, Int.mul_one]
    omega
  exact Int.mul_le_mul_of_nonneg_left (by omega) (by omega)

theorem floorMultiple_mono (h : 0 < width) (hle : m ≤ n) :
    floorMultiple width m ≤ floorMultiple width n :=
  floorMultiple_le_of_le h ((floorMultiple_le h m).trans hle)

/-- Multiples of a width are coarser numbers. -/
theorem coarsens_floorMultiple (h : 0 < width) :
    Coarsens (fun n => .ok (floorMultiple width n)) fun _ => true where
  mono hle ha hb := by
    obtain rfl := Except.ok.inj ha
    obtain rfl := Except.ok.inj hb
    exact floorMultiple_mono h hle
  apart _ _ hne := absurd rfl hne

end Numeral

open Numeral (floorMultiple floorMultiple_le)

/-! ## What is misjudged -/

namespace Comparison

/-- Whether the projections of a comparison with an integer misjudge the one that is given first, if it
lies above a multiple below the smallest integer. -/
def missesFirst (width : Nat) (low : Int) : Comparison → Int → Int → Prop
  | .greater, n, w | .lessOrEqual, n, w => n ≤ w ∧ floorMultiple width w < low
  | .less, n, w | .greaterOrEqual, n, w => n < w ∧ floorMultiple width (w - 1) < low
  | .equal, n, w | .notEqual, n, w => n = w
  | .startsWith, _, _ | .notStartsWith, _, _ => False

/-- Whether a projection of a comparison with an integer is bound to a constant that is true. -/
def missesNull (width : Nat) (low high : Int) : Comparison → Int → Prop
  | .lessOrEqual, w => high < floorMultiple width (w + 1)
  | .greater, w => floorMultiple width w < low
  | .greaterOrEqual, w => floorMultiple width (w - 1) < low
  | _, _ => False

end Comparison

namespace Predicate

/-- Whether the projections of a predicate misjudge an integer that lies above a multiple below the
smallest integer. -/
def missesFirst (width : Nat) (low n : Int) : Predicate Column → Prop
  | .unary _ _ => False
  | .compare op _ l => ∃ w, l = .long w ∧ op.missesFirst width low n w.toInt
  | .member _ _ ls => ∃ l ∈ ls, (Value.int n).SameKey l.value

/-- Whether the projections of a predicate misjudge a null. -/
def missesNull (width : Nat) (low high : Int) : Predicate Column → Prop
  | .compare op _ l => ∃ w, l = .long w ∧ op.missesNull width low high w.toInt
  | _ => False

end Predicate

/-! ## Bounds within a range -/

namespace Side

variable {side : Side} {op op' : Comparison} {step low n w : Int} {width : Nat}

/-- **Bounds at the first multiple.** If a multiple below the range counts as one below all partition
values, then the bounds of a comparison are sound for an integer of the range exactly if it is not
misjudged. -/
theorem bound_first_iff (hwidth : 0 < width) :
    (∀ side op' step, bound? side op = some (op', step) →
      op'.holds (if floorMultiple width (w + step) < low then low else floorMultiple width n)
          (floorMultiple width (w + step)) = side.decides → op.holds n w = side.decides) ↔
      (floorMultiple width n < low → ¬ op.missesFirst width low n w) := by
  constructor
  · intro h hfirst hmiss
    -- the bound that is decided as soon as the multiple of its boundary is below the range
    cases op with
    | less | lessOrEqual | equal =>
      have hside := h .inclusive _ _ rfl
      simp only [Comparison.missesFirst, Comparison.holds, decides, Int.add_zero, decide_eq_false_iff_not,
        ← Int.sub_eq_add_neg] at hmiss hside
      split at hside <;> grind
    | greater | greaterOrEqual | notEqual =>
      have hside := h .strict _ _ rfl
      simp only [Comparison.missesFirst, Comparison.holds, decides, Int.add_zero, decide_eq_true_eq,
        ← Int.sub_eq_add_neg] at hmiss hside
      split at hside <;> grind
    | startsWith | notStartsWith => exact hmiss
  · intro h side op' step hop ht
    have hmono : n ≤ w + step → floorMultiple width n ≤ floorMultiple width (w + step) :=
      Numeral.floorMultiple_mono hwidth
    split at ht
    · -- below the range, only a literal that is not below the integer can be misjudged
      rename_i hbeyond
      cases side <;> cases op <;> simp [bound?] at hop <;> obtain ⟨rfl, rfl⟩ := hop <;>
        simp only [Comparison.holds, decides, decide_eq_true_eq, decide_eq_false_iff_not,
          Comparison.missesFirst, Int.add_zero, ← Int.sub_eq_add_neg] at ht h hbeyond hmono ⊢ <;>
        omega
    · exact bound_sound (Numeral.coarsens_floorMultiple hwidth) hop rfl rfl ht

end Side

/-! ## Comparisons -/

section Integers

variable {q : Primitive} {low high : Int} {width : Nat} {c d : Column} {name : String}

theorem Primitive.isInteger_of_limits (hq : q.limits? = some (low, high)) :
    q = .int ∨ q = .long := by
  cases q <;> simp [limits?] at hq <;> simp

theorem Primitive.mayHold_int (hq : q.limits? = some (low, high)) (n : Int) :
    q.mayHold (.int n) := by
  rcases isInteger_of_limits hq with rfl | rfl <;> exact Or.inr rfl

theorem Primitive.limits_lt (hq : q.limits? = some (low, high)) : low < high := by
  cases q <;> simp [limits?] at hq <;> omega

/-- A mark decides a comparison. -/
theorem Predicate.outcome_compare_decided {op : Comparison} {v : Value} {l l' : Literal} {b : Bool}
    (hl : l.convert d.field.type = .ok l') (hdecided : decided? op l' = some b) :
    outcome d v (.compare op name l) = .ok b := by
  simp only [outcome, bindTo, hl, map_ok, ok_bind, bindCompare, hdecided]
  rfl

/-- **A comparison with an integer** that may be beyond the range of the column. A value that is not above
the range is compared as if it was in the range, if the literal is below it. -/
theorem Predicate.outcome_compare_long {op : Comparison} {m k : Int}
    (hq : q.limits? = some (low, high)) (hd : d.field.type = .primitive q) (hm : m ≤ high)
    (hop : op.isBeginning = false) :
    outcome d (.int m) (.compare op name (.long (.number k))) =
      .ok (op.holds (if k < low then low else m) k) := by
  obtain ⟨t, hconvert, _, _⟩ := Literal.convert_long hq k
  rw [← hd] at hconvert
  have hrange := Primitive.limits_lt hq
  by_cases habove : high < k
  · -- the mark decides as the integers do, which are all below the literal
    rw [if_neg (by omega : ¬ k < low)]
    rw [Literal.clamp, Whole.toInt, if_pos habove] at hconvert
    refine outcome_compare_decided hconvert ?_
    cases op <;> simp [Comparison.isBeginning] at hop <;>
      simp [decided?, aboveAll?, Comparison.holds] <;> omega
  · by_cases hbelow : k < low
    · rw [if_pos hbelow]
      rw [Literal.clamp, Whole.toInt, if_neg habove, if_pos hbelow] at hconvert
      refine outcome_compare_decided hconvert ?_
      cases op <;> simp [Comparison.isBeginning] at hop <;>
        simp [decided?, belowAll?, Comparison.holds] <;> omega
    · rw [if_neg hbelow]
      rw [Literal.clamp, Whole.toInt, if_neg habove, if_neg hbelow] at hconvert
      rw [outcome_compare hconvert rfl]
      exact testCompare_int hop m (.number k)

namespace Transform

/-- Truncated integers. -/
theorem function_number (width : Nat) (hq : q.limits? = some (low, high)) :
    (truncate width).function (.primitive q) =
        .ok (Value.unlessNull (TruncateForm.cutNumber width)) ∧
      (DataType.primitive q).truncateForm? = some .number := by
  cases q <;> simp [Primitive.limits?] at hq <;> exact ⟨rfl, rfl⟩

theorem projection_number {p : Predicate Column} (width : Nat) (hq : q.limits? = some (low, high))
    (hp : p.term.field.type = .primitive q) (side : Side) (name : String) :
    (truncate width).projection side name p =
      Projection.shaped side name (Value.unlessNull (TruncateForm.cutNumber width))
        (Projection.ofMoved side name (Value.unlessNull (TruncateForm.cutNumber width))) p := by
  obtain ⟨hf, hform⟩ := function_number width hq
  exact projection_truncate (by rw [sourceOf, hp]; exact hf) (by rw [sourceOf, hp]; exact hform)
    (by simp) side name

end Transform

namespace ResidualEvaluator

variable {r : ResidualEvaluator} {partition a v : Value} {op : Comparison} {w : Whole} {n : Int}

/-- The contract for a comparison with an integer, bound by bound. -/
theorem honours_compare_iff (hq : q.limits? = some (low, high)) (hc : c.field.type = .primitive q)
    (hreads : r.Reads name d partition a) :
    r.Honours (.truncate width) name (.compare op c (.long w)) partition v ↔
      ∀ side op' step, Side.bound? side op = some (op', step) →
        Predicate.outcome d a (.compare op' name
            (.long (.number (floorMultiple width (w.toInt + step))))) = .ok side.decides →
          Predicate.testCompare op v (.ofWhole w) = .ok side.decides := by
  have hmoved (step : Int) : ((Literal.long w).moved step >>=
      Literal.transformed (Value.unlessNull (TruncateForm.cutNumber width))) =
        .ok (.long (.number (floorMultiple width (w.toInt + step)))) := by
    -- A step of zero leaves the literal as it is; any other one makes a number of it.
    obtain ⟨w', hw', hint⟩ : ∃ w', (Literal.long w).moved step = .ok (.long w') ∧
        w'.toInt = w.toInt + step := by
      unfold Literal.moved
      split
      · exact ⟨w, rfl, by omega⟩
      · exact ⟨_, rfl, rfl⟩
    rw [hw', ok_bind, ← hint]
    exact Transform.transformed_integer (Value.whole?_ofWhole w')
  exact honours_ofMoved_iff hreads
    (fun side => Transform.projection_number (p := .compare op c (.long w)) width hq hc side name) rfl
    hmoved

/-- **The contract for an integer**, for comparisons. -/
theorem honours_compare_int (hwidth : 0 < width) (hq : q.limits? = some (low, high))
    (hc : c.field.type = .primitive q) (hd : d.field.type = .primitive q)
    (hreads : r.Reads name d partition (.int (floorMultiple width n))) (hn : n ≤ high) :
    r.Honours (.truncate width) name (.compare op c (.long w)) partition (.int n) ↔
      (floorMultiple width n < low → ¬ op.missesFirst width low n w.toInt) := by
  have hm : floorMultiple width n ≤ high := (floorMultiple_le hwidth n).trans hn
  rw [honours_compare_iff hq hc hreads, ← Side.bound_first_iff hwidth]
  refine forall₄_congr fun side op' step hop => ?_
  obtain ⟨hop, hop', _⟩ := Side.bound_like hop
  rw [Predicate.outcome_compare_long hq hd hm hop', Predicate.testCompare_int hop, Except.ok.injEq,
    Except.ok.injEq]

/-- **The contract for a null**, for comparisons. -/
theorem honours_compare_null (hwidth : 0 < width) (hq : q.limits? = some (low, high))
    (hc : c.field.type = .primitive q) (hd : d.field.type = .primitive q)
    (hreads : r.Reads name d partition .null) (hw : w.toInt ≤ high) :
    r.Honours (.truncate width) name (.compare op c (.long w)) partition .null ↔
      ¬ op.missesNull width low high w.toInt := by
  have hle := floorMultiple_le hwidth w.toInt
  -- a projected comparison of a null, by whether its literal is beyond the range
  have houtcome (op' : Comparison) (k : Int) : ∃ b,
      Predicate.outcome d .null (.compare op' name (.long (.number k))) = .ok (op'.ofNull || b) ∧
      (b = true ↔ ((op' = .less ∨ op' = .lessOrEqual) ∧ high < k) ∨
        ((op' = .greater ∨ op' = .greaterOrEqual) ∧ k < low)) := by
    obtain ⟨t, hconvert, _⟩ := Literal.convert_long hq k
    exact ⟨_, Predicate.outcome_compare_null (hd ▸ hconvert), Literal.holdsOnRange_long hq hconvert⟩
  rw [honours_compare_iff hq hc hreads, Predicate.testCompare_null op (Value.isNull_ofWhole w)]
  simp only [Except.ok.injEq]
  constructor
  · intro h hmiss
    -- the strict projection is true for nulls, and the ordering is not
    have hstrict {op' : Comparison} {step : Int} (hop : Side.bound? .strict op = some (op', step))
        (hbeyond : ((op' = .less ∨ op' = .lessOrEqual) ∧ high < floorMultiple width (w.toInt + step)) ∨
          ((op' = .greater ∨ op' = .greaterOrEqual) ∧ floorMultiple width (w.toInt + step) < low)) :
        op.ofNull = true := by
      obtain ⟨b, hb, hiff⟩ := houtcome op' (floorMultiple width (w.toInt + step))
      rw [hiff.mpr hbeyond, Bool.or_true] at hb
      exact h .strict op' step hop hb
    cases op with
    | lessOrEqual => simpa [Comparison.ofNull] using hstrict rfl (Or.inl ⟨Or.inl rfl, hmiss⟩)
    | greater =>
      rw [Comparison.missesNull, ← Int.add_zero w.toInt] at hmiss
      simpa [Comparison.ofNull] using hstrict rfl (Or.inr ⟨Or.inl rfl, hmiss⟩)
    | greaterOrEqual => simpa [Comparison.ofNull] using hstrict rfl (Or.inr ⟨Or.inl rfl, hmiss⟩)
    | _ => exact hmiss
  · intro h side op' step hop ht
    obtain ⟨b, hb, hiff⟩ := houtcome op' (floorMultiple width (w.toInt + step))
    have hdecides : (op'.ofNull || b) = side.decides := Except.ok.inj (hb.symm.trans ht)
    rw [← (Side.bound_like hop).2.2, ← hdecides]
    cases b with
    | false => simp
    | true =>
      -- a strict bound beyond the range would be a comparison that misses nulls
      exfalso
      rw [Bool.or_true] at hdecides
      have hbeyond := hiff.mp rfl
      cases side <;> simp only [Side.decides, Bool.true_eq_false] at hdecides
      cases op <;> simp [Side.bound?] at hop <;> obtain ⟨rfl, rfl⟩ := hop <;>
        simp [Comparison.missesNull] at h hbeyond <;> grind

end ResidualEvaluator

/-! ## Sets -/

section Sets

variable {op : Membership} {ls : List Literal} {e : Expr (Predicate String)} {m n : Int} {t : Bool}

/-- A literal of a column of integers is transformed to the multiple of its integer. -/
theorem Literal.transformed_limits {l : Literal} (width : Nat) (hq : q.limits? = some (low, high))
    (hl : Literal.IsConverted q l) : ∃ k : Int,
      l.transformed (Value.unlessNull (TruncateForm.cutNumber width)) =
        .ok (.long (.number (floorMultiple width k))) ∧
      ∀ n, (Value.int n).SameKey l.value ↔ n = k := by
  have hkind := Literal.hasKind_of_isConverted hl
  obtain ⟨w, hw⟩ : ∃ w, l.value.whole? = some w := by
    rcases Primitive.isInteger_of_limits hq with rfl | rfl <;> exact Option.isSome_iff_exists.mp hkind
  refine ⟨w.toInt, Transform.transformed_integer hw, fun n => ?_⟩
  rw [Value.eq_ofWhole_of_whole? hw]
  exact Value.sameKey_ofWhole (m := .number n)

/-- A projected test of membership can be asked for every integer. -/
theorem Transform.answers_member_limits (hq : q.limits? = some (low, high))
    (hc : c.field.type = .primitive q) (hd : d.field.type = .primitive q)
    (hls : ∀ l ∈ ls, Literal.IsConverted q l) (m : Int) :
    (Projection.member op name (Value.unlessNull (TruncateForm.cutNumber width)) ls).Answers d
      (.int m) := by
  obtain ⟨side, rfl⟩ := Side.exists_membership op
  have hinteger := Primitive.isInteger_of_limits hq
  have hmay := Primitive.mayHold_int hq m
  have hpermits : (truncate width).Permits side q (.member side.membership c ls) (.int m) := by
    intro _ l _
    simp [Reaches, (function_number width hq).2]
  have hanswers : ((truncate width).projection side name (.member side.membership c ls)).Answers d
      (.int m) :=
    (answers_truncate_number (p := .member side.membership c ls) hinteger hc hd hmay hls).mpr hpermits
  rwa [projection_number (p := .member side.membership c ls) width hq hc, Projection.shaped,
    if_pos rfl] at hanswers

/-- A multiple in the range is found if an integer of the set has it. -/
theorem Predicate.outcome_member_of_mem (hq : q.limits? = some (low, high))
    (hd : d.field.type = .primitive q) (hls : ∀ l ∈ ls, Literal.IsConverted q l)
    (he : Projection.member op name (Value.unlessNull (TruncateForm.cutNumber width)) ls = .ok (some e))
    (ht : Expr.evaluate (outcome d (.int (floorMultiple width n))) e = .ok t)
    (hlow : low ≤ floorMultiple width n) (hhigh : floorMultiple width n ≤ high)
    (hn : ∃ l ∈ ls, (Value.int n).SameKey l.value) : t = op.outcome true := by
  obtain ⟨l, hl, hsame⟩ := hn
  obtain ⟨k, hk, hkey⟩ := Literal.transformed_limits width hq (hls l hl)
  obtain rfl := (hkey n).mp hsame
  refine outcome_member he ht hl hk fun l' hl' u u' hu huk hu' => ?_
  -- a literal with the same multiple is not changed when it is bound
  obtain ⟨k', hk', _⟩ := Literal.transformed_limits width hq (hls l' hl')
  obtain rfl := Except.ok.inj (hk'.symm.trans hu)
  have hmultiple : floorMultiple width k' = floorMultiple width n := by
    have := Value.eq_of_key? (v := .int _) (w := .int _) rfl rfl huk
    simpa using this
  obtain ⟨bounded, hconvert, _⟩ := Literal.convert_long hq (floorMultiple width k')
  rw [hmultiple, Literal.clamp, Whole.toInt, if_neg (by omega), if_neg (by omega), ← hd] at hconvert
  rw [hmultiple] at hu'
  obtain rfl := Except.ok.inj (hconvert.symm.trans hu')
  exact ⟨rfl, Value.sameKey_ofWhole (m := .number _) (n := .number _).mpr rfl⟩

/-- A multiple below the range is never found. -/
theorem Predicate.outcome_member_of_lt (hq : q.limits? = some (low, high))
    (hd : d.field.type = .primitive q) (hls : ∀ l ∈ ls, Literal.IsConverted q l)
    (he : Projection.member op name (Value.unlessNull (TruncateForm.cutNumber width)) ls = .ok (some e))
    (ht : Expr.evaluate (outcome d (.int m)) e = .ok t) (hm : m < low) : t = op.outcome false := by
  have hrange := Primitive.limits_lt hq
  obtain ⟨b, rfl, hfound⟩ := outcome_member_inv he ht
  cases b with
  | false => rfl
  | true =>
    exfalso
    obtain ⟨l, hl, u, u', hlu, hu', hsame⟩ := hfound rfl
    obtain ⟨k, hk, _⟩ := Literal.transformed_limits width hq (hls l hl)
    obtain rfl := Except.ok.inj (hk.symm.trans hlu)
    obtain ⟨bounded, hconvert, hmin, hmax⟩ := Literal.convert_long hq (floorMultiple width k)
    obtain rfl := Except.ok.inj (hconvert.symm.trans (hd ▸ hu'))
    -- what a literal is bound to stands for an integer of the range
    have hne {k : Int} (hk : low ≤ k) : ¬ (Value.int m).SameKey (.int k) := by
      intro hsame
      have hmk : m = k := Value.sameKey_ofWhole (m := .number m) (n := .number k).mp hsame
      omega
    unfold Literal.clamp at hsame
    split at hsame
    · rw [Literal.value, hmax] at hsame
      exact hne hrange.le hsame
    · split at hsame
      · rw [Literal.value, hmin] at hsame
        exact hne le_rfl hsame
      · exact hne (k := floorMultiple width k) (by simpa [Whole.toInt] using ‹¬ _ < low›) hsame

namespace ResidualEvaluator

variable {r : ResidualEvaluator} {partition a v : Value}

/-- **The contract for an integer**, for tests of membership. -/
theorem honours_member_int (hwidth : 0 < width) (hq : q.limits? = some (low, high))
    (hc : c.field.type = .primitive q) (hd : d.field.type = .primitive q)
    (hls : ∀ l ∈ ls, Literal.IsConverted q l)
    (hreads : r.Reads name d partition (.int (floorMultiple width n))) (hn : n ≤ high) :
    r.Honours (.truncate width) name (.member op c ls) partition (.int n) ↔
      (floorMultiple width n < low → ¬ ∃ l ∈ ls, (Value.int n).SameKey l.value) := by
  have hm : floorMultiple width n ≤ high := (floorMultiple_le hwidth n).trans hn
  have hanswers : (Projection.member op name (Value.unlessNull (TruncateForm.cutNumber width))
      ls).Answers d (.int (floorMultiple width n)) := Transform.answers_member_limits hq hc hd hls _
  rw [honours_member_found_iff hreads (fun side =>
    Transform.projection_number (p := .member op c ls) width hq hc side name)
    (Predicate.succeeds_testMember (Primitive.mayHold_int hq n)) hanswers]
  constructor
  · intro h hfirst hn
    obtain ⟨e, he, hfound⟩ := h hn
    -- Below the range no literal can stand for the multiple, so the projection excludes it.
    have hnothing := Predicate.outcome_member_of_lt hq hd hls he hfound hfirst
    exact absurd (Membership.outcome_inj hnothing) (by simp)
  · intro h hn
    have hlow : low ≤ floorMultiple width n := by
      by_contra hfirst
      exact h (by omega) hn
    obtain ⟨e, he, t, hout⟩ := Projection.exists_of_answers_member hanswers
    obtain rfl := Predicate.outcome_member_of_mem hq hd hls he hout hlow hm hn
    exact ⟨e, he, hout⟩

/-- **The contract for a null**, for tests of membership. -/
theorem honours_member_null (hq : q.limits? = some (low, high)) (hc : c.field.type = .primitive q)
    (hreads : r.Reads name d partition .null) :
    r.Honours (.truncate width) name (.member op c ls) partition .null :=
  (honours_member_iff hreads fun side =>
    Transform.projection_number (p := .member op c ls) width hq hc side name).mpr
      fun _ _ _ => Predicate.testMember_null op ls

end ResidualEvaluator

end Sets

/-! ## All predicates -/

/-- An integer that was converted to a type of integers and is no mark is in the range of the type. -/
theorem Literal.le_of_isConverted {w : Whole} (hq : q.limits? = some (low, high))
    (hl : Literal.IsConverted q (.long w)) : low ≤ w.toInt ∧ w.toInt ≤ high := by
  cases q with
  | int | long =>
    simp only [Primitive.limits?, Option.some.injEq, Prod.mk.injEq] at hq
    obtain ⟨rfl, rfl⟩ := hq
    obtain ⟨n, hn⟩ := hl
    rcases Literal.clamp_cases _ _ _ n with ⟨h, hlow, hhigh⟩ | h | h
    · obtain rfl := Literal.long.inj (hn.trans h)
      exact ⟨hlow, hhigh⟩
    · exact absurd (hn.trans h) (by simp)
    · exact absurd (hn.trans h) (by simp)
  | _ => simp [Primitive.limits?] at hq

/-- The values of a type of integers. -/
theorem Primitive.int_of_holds {v : Value} (hq : q.limits? = some (low, high))
    (hv : q.holds v = true) : ∃ n, v = .int n ∧ low ≤ n ∧ n ≤ high := by
  cases q <;> simp only [Primitive.limits?, Option.some.injEq, Prod.mk.injEq, reduceCtorEq] at hq
  all_goals
    obtain ⟨rfl, rfl⟩ := hq
    cases v <;> simp [Primitive.holds, Primitive.admits, Primitive.inRange] at hv
    exact ⟨_, rfl, hv⟩

namespace ResidualEvaluator

variable {r : ResidualEvaluator} {p : Predicate Column} {partition v : Value} {n : Int}

/-- A comparison with a mark has no boundary that could be projected. -/
theorem honours_compare_mark {op : Comparison} {l : Literal} (hq : q.limits? = some (low, high))
    (hc : c.field.type = .primitive q) (hl : l.isMark = true) :
    r.Honours (.truncate width) name (.compare op c l) partition v := by
  intro side e he
  rw [Transform.projection_number (p := .compare op c l) width hq hc] at he
  cases l with
  | aboveMax t | belowMin t =>
    obtain ⟨_, hboundary, _⟩ := bind_eq_ok.mp he
    simp [Projection.boundary] at hboundary
  | _ => simp [Literal.isMark] at hl

theorem honours_number_null (hwidth : 0 < width) (hq : q.limits? = some (low, high))
    (hp : p.term.field.type = .primitive q) (hlits : ∀ l ∈ p.literals, Literal.IsConverted q l)
    (hd : d.field.type = .primitive q) (hreads : r.Reads name d partition .null) :
    r.Honours (.truncate width) name p partition .null ↔ ¬ p.missesNull width low high := by
  cases p with
  | unary op c =>
    refine iff_of_true ?_ (by simp [Predicate.missesNull])
    exact honours_unary (q := q) hreads (fun side => Transform.projection_number width hq hp side name)
      (Or.inl rfl) rfl rfl rfl
  | compare op c l =>
    have hl := hlits l (List.mem_singleton.mpr rfl)
    -- A literal of the column is a number or a mark, and a mark projects to a constant.
    rcases Transform.long_or_mark (Primitive.isInteger_of_limits hq) hl with ⟨w, rfl⟩ | hmark
    · have hc : c.field.type = .primitive q := hp
      rw [honours_compare_null hwidth hq hc hd hreads (Literal.le_of_isConverted hq hl).2]
      simp [Predicate.missesNull]
    · refine iff_of_true (honours_compare_mark hq hp hmark) ?_
      rintro ⟨w, rfl, _⟩
      simp [Literal.isMark] at hmark
  | member op c ls =>
    exact iff_of_true (honours_member_null hq hp hreads) (by simp [Predicate.missesNull])

theorem honours_number_int (hwidth : 0 < width) (hq : q.limits? = some (low, high))
    (hp : p.term.field.type = .primitive q) (hlits : ∀ l ∈ p.literals, Literal.IsConverted q l)
    (hd : d.field.type = .primitive q)
    (hreads : r.Reads name d partition (.int (floorMultiple width n))) (hn : n ≤ high) :
    r.Honours (.truncate width) name p partition (.int n) ↔
      (floorMultiple width n < low → ¬ p.missesFirst width low n) := by
  cases p with
  | unary op c =>
    refine iff_of_true ?_ (by simp [Predicate.missesFirst])
    exact honours_unary hreads (fun side => Transform.projection_number width hq hp side name)
      (Primitive.mayHold_int hq n) rfl rfl rfl
  | compare op c l =>
    have hl := hlits l (List.mem_singleton.mpr rfl)
    -- As for null: only numbers have a bound to compare with.
    rcases Transform.long_or_mark (Primitive.isInteger_of_limits hq) hl with ⟨w, rfl⟩ | hmark
    · have hc : c.field.type = .primitive q := hp
      rw [honours_compare_int hwidth hq hc hd hreads hn]
      simp [Predicate.missesFirst]
    · refine iff_of_true (honours_compare_mark hq hp hmark) fun _ => ?_
      rintro ⟨w, rfl, _⟩
      simp [Literal.isMark] at hmark
  | member op c ls => exact honours_member_int hwidth hq hp hd hlits hreads hn

/-- **The contract of multiples.** Let a predicate be bound to a column of integers. Each value of the
column, and a null, has a partition value under `truncate`: the multiple of the width that it is not below.
For every evaluator that reads this value, the projections of the predicate honour the contract unless they
misjudge the value: a null, if a strict projection is bound to a constant, or an integer that lies above a
multiple below the range, if the literal of the projection is that multiple. -/
theorem honours_truncate_number_iff {schema : Schema} {caseSensitive : Bool} {u : Predicate String}
    (hwidth : 0 < width) (hbind : u.bind schema caseSensitive = .ok (.leaf p))
    (hp : p.term.field.type = .primitive q) (hq : q.limits? = some (low, high))
    (hv : v = .null ∨ q.holds v = true) :
    ∃ a, (Transform.truncate width).apply (.primitive q) v = .ok a ∧ (v = .null → a = .null) ∧
      (∀ n, v = .int n → a = .int (floorMultiple width n)) ∧
      ∀ (r : ResidualEvaluator) (name : String) (d : Column) (partition : Value),
        r.Reads name d partition a →
        d.field.type = (Transform.truncate width).resultType (.primitive q) →
        (r.Honours (.truncate width) name p partition v ↔
          (v = .null → ¬ p.missesNull width low high) ∧
            ∀ n, v = .int n → floorMultiple width n < low → ¬ p.missesFirst width low n) := by
  have hlits := Predicate.isConverted_of_bind hbind hp
  -- Truncation is the same function on both types of integers.
  have happly (v : Value) : (Transform.truncate width).apply (.primitive q) v =
      Value.unlessNull (TruncateForm.cutNumber width) v := by
    rw [Transform.apply, (Transform.function_number width hq).1, ok_bind]
  rcases hv with rfl | hv
  · refine ⟨.null, happly .null, fun _ => rfl, by simp, fun r name d partition hreads hd => ?_⟩
    rw [honours_number_null hwidth hq hp hlits hd hreads]
    simp
  · obtain ⟨n, rfl, _, hhigh⟩ := Primitive.int_of_holds hq hv
    refine ⟨.int (floorMultiple width n), happly (.int n), by simp, ?_,
      fun r name d partition hreads hd => ?_⟩
    · rintro m hm
      obtain rfl := Value.int.inj hm
      rfl
    · rw [honours_number_int hwidth hq hp hlits hd hreads hhigh]
      simp

/-- The integer 12 has the partition value 10 under `truncate[10]`; the projections of the ordering with 25
honour the contract there, and so the strict one is right that all integers of the partition are below. -/
theorem honours_truncate_number_iff_twelve :
    let c : Column := ⟨⟨1, "c", .primitive .int, false, none⟩, ⟨0, []⟩⟩
    let schema := Schema.ofFields [c.field]
    let spec : PartitionSpec := ⟨0, [⟨1, 1000, .truncate 10, "c_part"⟩]⟩
    let u : Predicate String := .compare .less "c" (.long (.number 25))
    let p : Predicate Column := .compare .less c (.long (.number 25))
    let partition : Value := .record [.int 10]
    u.bind schema true = .ok (.leaf p) ∧
      ∃ r d e, make spec (Filter.ofPredicate u) true schema = .ok r ∧
        r.Reads "c_part" d partition (.int 10) ∧ d.field.type = .primitive .int ∧
        r.Honours (.truncate 10) "c_part" p partition (.int 12) ∧
        (Transform.truncate 10).projection .strict "c_part" p = .ok (some e) ∧
        r.evaluate partition e = .ok true ∧ p.test (.int 12) = .ok true := by
  intro c schema spec u p partition
  have hbind : u.bind schema true = .ok (.leaf p) := rfl
  obtain ⟨r, hmake⟩ : ∃ r, make spec (Filter.ofPredicate u) true schema = .ok r := ⟨_, rfl⟩
  have hten : 0 < 10 := by decide
  have hat : partition.at 0 = .ok (.int 10) := rfl
  have hd := reads_of_single rfl hmake (g := c.field) rfl rfl hat
  -- Twelve goes down to ten, and everything of that partition is below twenty.
  obtain ⟨a, _, _, hint, hcontract⟩ :=
    honours_truncate_number_iff (v := .int 12) hten hbind rfl rfl (Or.inr rfl)
  obtain rfl : a = .int 10 := hint 12 rfl
  have hhonours := (hcontract r _ _ partition hd rfl).mpr ⟨by simp, by
    rintro n hn hfirst
    obtain rfl := Value.int.inj hn
    exact absurd hfirst (by decide)⟩
  have hproject : (Transform.truncate 10).projection .strict "c_part" p =
      .ok (some (.leaf (.compare .less "c_part" (.long (.number 20))))) := rfl
  have htrue : r.evaluate partition (.leaf (.compare .less "c_part" (.long (.number 20)))) =
      .ok true := by
    obtain rfl := Except.ok.inj hmake
    cbv
  exact ⟨hbind, r, _, _, hmake, hd, rfl, hhonours, hproject, htrue,
    hhonours .strict _ hproject htrue⟩

/-- **A row that is lost.** The smallest integer of a column has a partition value below the range under
`truncate[3]`. The integers that are not above it are bound to a constant there, and so the residual for
the partition is false, while the predicate is true of that integer. -/
theorem not_honours_of_first_multiple :
    let c : Column := ⟨⟨1, "c", .primitive .int, false, none⟩, ⟨0, []⟩⟩
    let schema := Schema.ofFields [c.field]
    let spec : PartitionSpec := ⟨0, [⟨1, 1000, .truncate 3, "c_part"⟩]⟩
    let u : Predicate String := .compare .lessOrEqual "c" (.long (.number (-2147483648)))
    let p : Predicate Column := .compare .lessOrEqual c (.long (.number (-2147483648)))
    let partition : Value := .record [.int (-2147483649)]
    u.bind schema true = .ok (.leaf p) ∧ Primitive.int.holds (.int (-2147483648)) = true ∧
      (Transform.truncate 3).apply (.primitive .int) (.int (-2147483648)) = .ok (.int (-2147483649)) ∧
      ∃ r d, make spec (Filter.ofPredicate u) true schema = .ok r ∧
        r.Reads "c_part" d partition (.int (-2147483649)) ∧
        ¬ r.Honours (.truncate 3) "c_part" p partition (.int (-2147483648)) ∧
        r.residual partition = .ok (.constant false) ∧ p.test (.int (-2147483648)) = .ok true := by
  intro c schema spec u p partition
  obtain ⟨r, hmake⟩ : ∃ r, make spec (Filter.ofPredicate u) true schema = .ok r := ⟨_, rfl⟩
  have hat : partition.at 0 = .ok (.int (-2147483649)) := rfl
  have hd := reads_of_single rfl hmake (g := c.field) rfl rfl hat
  have hproject : (Transform.truncate 3).projection .inclusive "c_part" p =
      .ok (some (.leaf (.compare .lessOrEqual "c_part" (.long (.number (-2147483649)))))) := rfl
  have htrue : p.test (.int (-2147483648)) = .ok true := by cbv
  obtain rfl := Except.ok.inj hmake
  refine ⟨rfl, rfl, rfl, _, _, hmake, hd, fun h => ?_, by cbv, htrue⟩
  -- the literal is below the range, so nothing is said to be at most as large
  have hfalse := h .inclusive _ hproject (by cbv)
  simp [htrue, Side.decides] at hfalse

end ResidualEvaluator

end Integers

end PartitionPruning
