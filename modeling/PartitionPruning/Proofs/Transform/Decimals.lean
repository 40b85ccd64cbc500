import PartitionPruning.Proofs.Literal.Rebinding
import PartitionPruning.Proofs.Numeral.Count
import PartitionPruning.Proofs.Transform.Buckets
import PartitionPruning.Proofs.Transform.Multiples

/-!
# The contract of projections of decimals

Decimals are truncated, hashed and moved by their unscaled values, while rows are compared with their exact
values. The two agree for a literal whose digits count the units of the scale (`Literal.InScale`). But a
literal with a positive exponent is taken for one of that many places, and then its digits are not its
count.

* **`honours_compare_count`**, **`honours_member_count`** — the contract of truncated decimals, in terms of
  counts.
* **`bound_shifted`** — a comparison that is moved by wrong digits is misjudged for some count.
* **`isFaithfulTo_decimal_iff`** — the contract is honoured for all values exactly if the literals are in scale.
-/

namespace PartitionPruning

open Outcome
open Numeral (floorMultiple floorMultiple_le)

/-! ## Literals -/

namespace Literal

/-- Whether the digits of a decimal literal count the units of a scale. -/
def InScale (scale : Nat) : Literal → Prop
  | .decimal d => d.IsCount scale d.unscaled
  | _ => False

/-- A literal that passes for one of the scale without being one has another count than its digits say. -/
theorem exists_count_of_not_inScale {d : Decimal} {scale : Nat} (hd : d.scale? = some scale)
    (h : ¬ (Literal.decimal d).InScale scale) :
    ∃ K, d.IsCount scale K ∧ d.unscaled.natAbs < K.natAbs := by
  rcases Decimal.exists_count hd with hcount | ⟨hscale, hcount⟩
  · exact absurd hcount h
  · refine ⟨_, hcount, ?_⟩
    have hzero : d.unscaled ≠ 0 := by
      intro hzero
      rw [hzero, Int.zero_mul] at hcount
      exact h (show d.IsCount scale d.unscaled by rwa [hzero])
    have hpower : 1 < 10 ^ (2 * scale) := Nat.one_lt_pow (by omega) (by decide)
    rw [Int.natAbs_mul, Int.natAbs_pow]
    exact lt_mul_of_one_lt_right (by omega) hpower

end Literal

namespace ResidualEvaluator

variable {r : ResidualEvaluator} {precision scale width : Nat} {c d : Column} {name : String}
variable {partition : Value} {x y : Decimal} {n K : Int}

/-! ## Truncated decimals -/

/-- Truncation of the decimals of a scale. -/
theorem projection_decimal {p : Predicate Column} (width : Nat)
    (hp : p.term.field.type = .primitive (.decimal precision scale)) (side : Side) (name : String) :
    (Transform.truncate width).projection side name p =
      Projection.shaped side name (Value.unlessNull (TruncateForm.cutDecimal width))
        (Projection.ofMoved side name (Value.unlessNull (TruncateForm.cutDecimal width))) p :=
  Transform.projection_truncate (by rw [Transform.sourceOf, hp]; rfl)
    (by rw [Transform.sourceOf, hp]; rfl) (by simp) side name

theorem transformed_decimal (hy : y.scale? = some scale) :
    (Literal.decimal y).transformed (Value.unlessNull (TruncateForm.cutDecimal width)) =
      .ok (.decimal (.ofUnscaled (floorMultiple width y.unscaled) scale)) := by
  simp [Literal.transformed, Value.unlessNull, Literal.value, Value.isNull, TruncateForm.cutDecimal, hy,
    Literal.ofValue, Decimal.truncate_eq]

/-- **The contract for a decimal**, for comparisons. -/
theorem honours_compare_count {op : Comparison}
    (hc : c.field.type = .primitive (.decimal precision scale))
    (hd : d.field.type = .primitive (.decimal precision scale))
    (hreads : r.Reads name d partition (.decimal (.ofUnscaled (floorMultiple width n) scale)))
    (hx : x.IsCount scale n) (hy : y.scale? = some scale) (hK : y.IsCount scale K) :
    r.Honours (.truncate width) name (.compare op c (.decimal y)) partition (.decimal x) ↔
      ∀ side op' step, Side.bound? side op = some (op', step) →
        op'.holds (floorMultiple width n) (floorMultiple width (y.unscaled + step)) = side.decides →
          op.holds n K = side.decides := by
  have hmoved (step : Int) : ((Literal.decimal y).moved step >>=
      Literal.transformed (Value.unlessNull (TruncateForm.cutDecimal width))) =
        .ok (.decimal (.ofUnscaled (floorMultiple width (y.unscaled + step)) scale)) := by
    -- A step of zero leaves the literal as it is written; any other one writes it anew.
    obtain ⟨z, hz, hscale, hunscaled⟩ : ∃ z, (Literal.decimal y).moved step = .ok (.decimal z) ∧
        z.scale? = some scale ∧ z.unscaled = y.unscaled + step := by
      unfold Literal.moved
      split
      · exact ⟨y, rfl, hy, by omega⟩
      · refine ⟨_, ?_, Decimal.scale?_ofUnscaled _ _, Decimal.unscaled_ofUnscaled _ _⟩
        simp only [Literal.advance, Literal.stepDecimal, hy]
    rw [hz, ok_bind, transformed_decimal hscale, hunscaled]
  rw [honours_ofMoved_iff hreads (fun side => projection_decimal (p := .compare op c (.decimal y))
    width hc side name) rfl hmoved]
  refine forall₄_congr fun side op' step hop => ?_
  obtain ⟨hop, hop', _⟩ := Side.bound_like hop
  have hconvert (k : Int) : (Literal.decimal (.ofUnscaled k scale)).convert d.field.type =
      .ok (.decimal (.ofUnscaled k scale)) := by
    rw [hd]
    exact Literal.decimalOfScale_eq_ok.mpr ⟨Decimal.scale?_ofUnscaled _ _, rfl⟩
  rw [Predicate.outcome_compare (hconvert _) rfl, Literal.value, Literal.value,
    Predicate.testCompare_count hop' (Decimal.isCount_ofUnscaled _ _) (Decimal.isCount_ofUnscaled _ _),
    Predicate.testCompare_count hop hx hK, Except.ok.injEq, Except.ok.injEq]

/-- A projected test of membership can be asked for every decimal of the scale. -/
theorem answers_member_decimal {op : Membership} {ls : List Literal}
    (hc : c.field.type = .primitive (.decimal precision scale))
    (hd : d.field.type = .primitive (.decimal precision scale))
    (hls : ∀ l ∈ ls, ∃ y, l = .decimal y ∧ y.scale? = some scale) (m : Int) :
    (Projection.member op name (Value.unlessNull (TruncateForm.cutDecimal width)) ls).Answers d
      (.decimal (.ofUnscaled m scale)) := by
  obtain ⟨side, rfl⟩ := Side.exists_membership op
  have hconverted : ∀ l ∈ ls, Literal.IsConverted (.decimal precision scale) l := by
    intro l hl
    obtain ⟨y, rfl, hy⟩ := hls l hl
    exact ⟨y, rfl, Or.inl hy⟩
  -- Literals of the column's scale are stable, which is all that is asked of them.
  have hpermits : (Transform.truncate width).Permits side (.decimal precision scale)
      (.member side.membership c ls) (.decimal (.ofUnscaled m scale)) := by
    intro _ l hl _
    obtain ⟨y, rfl, hy⟩ := hls l hl
    simp [Literal.isStable, hy]
  have hanswers : ((Transform.truncate width).projection side name
      (.member side.membership c ls)).Answers d (.decimal (.ofUnscaled m scale)) :=
    (Transform.answers_truncate_decimal (p := .member side.membership c ls) hc hd (Or.inr rfl)
      hconverted).mpr hpermits
  rwa [projection_decimal (p := .member side.membership c ls) width hc, Projection.shaped,
    if_pos rfl] at hanswers

/-- **The contract for a decimal**, for tests of membership. -/
theorem honours_member_count {op : Membership} {ls : List Literal}
    (hc : c.field.type = .primitive (.decimal precision scale))
    (hd : d.field.type = .primitive (.decimal precision scale))
    (hls : ∀ l ∈ ls, ∃ y, l = .decimal y ∧ y.scale? = some scale)
    (hreads : r.Reads name d partition (.decimal (.ofUnscaled (floorMultiple width n) scale)))
    (hx : (Primitive.decimal precision scale).admits (.decimal x) = true) :
    r.Honours (.truncate width) name (.member op c ls) partition (.decimal x) ↔
      ((∃ l ∈ ls, (Value.decimal x).SameKey l.value) →
        ∃ y, .decimal y ∈ ls ∧ floorMultiple width n = floorMultiple width y.unscaled) := by
  have hconvert {k : Int} {u' : Literal}
      (hu' : (Literal.decimal (.ofUnscaled k scale)).convert d.field.type = .ok u') :
      u' = .decimal (.ofUnscaled k scale) := by
    rw [hd] at hu'
    simp only [Literal.convert] at hu'
    exact (Literal.decimalOfScale_eq_ok.mp hu').2
  have hsame {k : Int} : (Value.decimal (.ofUnscaled (floorMultiple width n) scale)).SameKey
      (.decimal (.ofUnscaled k scale)) ↔ floorMultiple width n = k :=
    Value.sameKey_count (Decimal.isCount_ofUnscaled _ _) (Decimal.isCount_ofUnscaled _ _)
  have hanswers : (Projection.member op name (Value.unlessNull (TruncateForm.cutDecimal width))
      ls).Answers d (.decimal (.ofUnscaled (floorMultiple width n) scale)) :=
    answers_member_decimal hc hd hls _
  rw [honours_member_found_iff hreads (fun side =>
    projection_decimal (p := .member op c ls) width hc side name)
    (Predicate.succeeds_testMember (Or.inr hx)) hanswers]
  -- the partition value is found exactly if it is the multiple below a literal of the set
  refine imp_congr_right fun _ => ⟨?_, ?_⟩
  · rintro ⟨e, he, hout⟩
    obtain ⟨b, hb, hfound⟩ := Predicate.outcome_member_inv he hout
    obtain ⟨l, hl, u, u', hu, hu', hkey⟩ := hfound (Membership.outcome_inj hb).symm
    obtain ⟨y, rfl, hy⟩ := hls l hl
    obtain rfl := Except.ok.inj ((transformed_decimal hy).symm.trans hu)
    obtain rfl := hconvert hu'
    exact ⟨y, hl, hsame.mp hkey⟩
  · rintro ⟨y, hl, heq⟩
    obtain ⟨_, hy', hy⟩ := hls _ hl
    obtain rfl := Literal.decimal.inj hy'
    obtain ⟨e, he, t, hout⟩ := Projection.exists_of_answers_member hanswers
    obtain rfl := Predicate.outcome_member he hout hl (transformed_decimal hy)
      fun m hm w w' hw hkey hw' => by
        obtain ⟨z, rfl, hz⟩ := hls m hm
        obtain rfl := Except.ok.inj ((transformed_decimal hz).symm.trans hw)
        obtain rfl := hconvert hw'
        exact ⟨rfl, ((Value.SameKey.congr hkey).mpr (hsame.mpr heq).symm).symm⟩
    exact ⟨e, he, hout⟩

end ResidualEvaluator

/-! ## Literals out of scale -/

/-- **Wrong digits.** If the boundary of a comparison is moved from another count than that of its literal,
then a bound misjudges a number, which is one of the two counts. -/
theorem Side.bound_shifted {op : Comparison} {k K : Int} (hop : op.isBeginning = false) (h : k ≠ K) :
    ∃ side op' step n, bound? side op = some (op', step) ∧ op'.holds n (k + step) = side.decides ∧
      op.holds n K ≠ side.decides := by
  -- For each comparison there is a value between the two bounds that one of them lets pass.
  rcases Int.lt_or_gt_of_ne h with hlt | hgt
  · cases op with
    | less => exact ⟨.inclusive, _, _, k, rfl, by simp [Comparison.holds, decides, hlt]⟩
    | lessOrEqual => exact ⟨.inclusive, _, _, K, rfl, by simp [Comparison.holds, decides, hlt]⟩
    | greater => exact ⟨.strict, _, _, K, rfl, by simp [Comparison.holds, decides, hlt]⟩
    | greaterOrEqual => exact ⟨.strict, _, _, k, rfl, by simp [Comparison.holds, decides, hlt]⟩
    | equal => exact ⟨.inclusive, _, _, K, rfl, by simp [Comparison.holds, decides, h.symm]⟩
    | notEqual => exact ⟨.strict, _, _, K, rfl, by simp [Comparison.holds, decides, h.symm]⟩
    | startsWith | notStartsWith => simp [Comparison.isBeginning] at hop
  · cases op with
    | less => exact ⟨.strict, _, _, K, rfl, by simp [Comparison.holds, decides, hgt]⟩
    | lessOrEqual => exact ⟨.strict, _, _, k, rfl, by simp [Comparison.holds, decides, hgt]⟩
    | greater => exact ⟨.inclusive, _, _, k, rfl, by simp [Comparison.holds, decides, hgt]⟩
    | greaterOrEqual => exact ⟨.inclusive, _, _, K, rfl, by simp [Comparison.holds, decides, hgt]⟩
    | equal => exact ⟨.inclusive, _, _, K, rfl, by simp [Comparison.holds, decides, h.symm]⟩
    | notEqual => exact ⟨.strict, _, _, K, rfl, by simp [Comparison.holds, decides, h.symm]⟩
    | startsWith | notStartsWith => simp [Comparison.isBeginning] at hop

/-- Distinct literals are told apart by their keys. -/
theorem Literal.Distinct.eq_of_sameKey {ls : List Literal} {l m : Literal} (h : Distinct ls) (hl : l ∈ ls)
    (hm : m ∈ ls) (hsame : l.value.SameKey m.value) : l = m := by
  have hsymm : Std.Symm fun l m : Literal => ¬ l.value.SameKey m.value :=
    ⟨fun _ _ hkey hsame => hkey hsame.symm⟩
  by_contra hne
  exact h.forall hl hm hne hsame

/-- **Wrong members.** If a literal of a set is out of scale, then one of them has a count that is not what
the digits of any literal say: the one with the most units. -/
theorem Literal.exists_count_missed {ls : List Literal} {scale : Nat}
    (hls : ∀ l ∈ ls, ∃ y, l = .decimal y ∧ y.scale? = some scale) (hdistinct : Distinct ls)
    (hout : ∃ l ∈ ls, ¬ l.InScale scale) :
    ∃ n y, .decimal y ∈ ls ∧ y.IsCount scale n ∧ ∀ z, .decimal z ∈ ls → n ≠ z.unscaled := by
  let digits (l : Literal) : Nat :=
    match l with
    | .decimal d => d.unscaled.natAbs
    | _ => 0
  have hfinite : {l | l ∈ ls ∧ ¬ l.InScale scale}.Finite := (List.finite_toSet ls).subset fun l hl => hl.1
  obtain ⟨l, ⟨hl, hshifted⟩, hmax⟩ := Set.exists_max_image _ digits hfinite hout
  obtain ⟨y, rfl, hy⟩ := hls l hl
  obtain ⟨n, hn, hlarge⟩ := exists_count_of_not_inScale hy hshifted
  refine ⟨n, y, hl, hn, fun z hz heq => ?_⟩
  by_cases hscaled : (Literal.decimal z).InScale scale
  · -- a literal that is in scale would be the same number
    have hcount : z.IsCount scale n := heq ▸ hscaled
    have hsame : (Value.decimal y).SameKey (.decimal z) := (Value.sameKey_count hn hcount).mpr rfl
    have hne : Literal.decimal y ≠ .decimal z := fun hyz => hshifted (hyz ▸ hscaled)
    exact hne (hdistinct.eq_of_sameKey hl hz hsame)
  · have hle : z.unscaled.natAbs ≤ y.unscaled.natAbs := hmax (.decimal z) ⟨hz, hscaled⟩
    rw [← heq] at hle
    omega

namespace Transform

/-- Whether the projections of a predicate to a partition field honour the contract for every value of a
type, wherever the partition value is read. -/
def IsFaithfulTo (t : Transform) (q : Primitive) (p : Predicate Column) : Prop :=
  ∀ v, q.holds v = true → ∃ a, t.apply (.primitive q) v = .ok a ∧
    ∀ (r : ResidualEvaluator) (name : String) (d : Column) (partition : Value),
      r.Reads name d partition a → d.field.type = t.resultType (.primitive q) →
      r.Honours t name p partition v

variable {precision scale : Nat} {p : Predicate Column}

/-- Decimals are truncated in units of their own scale. -/
theorem apply_truncate_decimal {x : Decimal} {places : Nat} (width : Nat)
    (hx : x.scale? = some places) :
    (truncate width).apply (.primitive (.decimal precision scale)) (.decimal x) =
      .ok (.decimal (.ofUnscaled (floorMultiple width x.unscaled) places)) := by
  have hfunction : (truncate width).function (.primitive (.decimal precision scale)) =
      .ok (Value.unlessNull (TruncateForm.cutDecimal width)) := rfl
  simp [apply, hfunction, Value.unlessNull, Value.isNull, TruncateForm.cutDecimal, hx,
    Decimal.truncate_eq]

/-- **Truncation of literals in scale.** -/
theorem isFaithfulTo_truncate {width : Nat} (hwidth : 0 < width)
    (hp : p.term.field.type = .primitive (.decimal precision scale))
    (hlits : ∀ l ∈ p.literals, ∃ y, l = .decimal y ∧ y.scale? = some scale)
    (hscaled : ∀ l ∈ p.literals, l.InScale scale) :
    (truncate width).IsFaithfulTo (.decimal precision scale) p := by
  intro v hv
  have hadmits : (Primitive.decimal precision scale).admits v = true :=
    (Bool.and_eq_true_iff.mp hv).1
  obtain ⟨x, rfl, hx, hcount⟩ := Primitive.decimal_of_holds hv
  refine ⟨_, apply_truncate_decimal width hx, fun r name d partition hreads hd => ?_⟩
  -- On decimals of one scale everything is said of their counts.
  cases p with
  | unary op c =>
    have hnan := Primitive.isNaN_of_holds (Or.inr hv) (by simp)
    exact ResidualEvaluator.honours_unary hreads
      (fun side => ResidualEvaluator.projection_decimal width hp side name) (Or.inr hadmits) rfl rfl hnan
  | compare op c l =>
    obtain ⟨y, rfl, hy⟩ := hlits l (List.mem_singleton.mpr rfl)
    have hK : y.IsCount scale y.unscaled := hscaled _ (List.mem_singleton.mpr rfl)
    refine (ResidualEvaluator.honours_compare_count hp hd hreads hcount hy hK).mpr
      fun side op' step hop ht => ?_
    exact Side.bound_sound (Numeral.coarsens_floorMultiple hwidth) hop rfl rfl ht
  | member op c ls =>
    refine (ResidualEvaluator.honours_member_count hp hd hlits hreads hadmits).mpr ?_
    rintro ⟨l, hl, hsame⟩
    obtain ⟨y, rfl, _⟩ := hlits l hl
    have hn : x.unscaled = y.unscaled := (Value.sameKey_count hcount (hscaled _ hl)).mp hsame
    exact ⟨y, hl, by rw [hn]⟩

/-- **Buckets of literals in scale.** -/
theorem isFaithfulTo_bucket (count : Nat)
    (hp : p.term.field.type = .primitive (.decimal precision scale))
    (hlits : ∀ l ∈ p.literals, ∃ y, l = .decimal y ∧ y.scale? = some scale)
    (hscaled : ∀ l ∈ p.literals, l.InScale scale)
    (hop : ∀ op c l, p = .compare op c l → op.isBeginning = false) :
    (bucket count).IsFaithfulTo (.decimal precision scale) p := by
  intro v hv
  have hadmits : (Primitive.decimal precision scale).admits v = true :=
    (Bool.and_eq_true_iff.mp hv).1
  have hnan := Primitive.isNaN_of_holds (Or.inr hv) (by simp)
  obtain ⟨x, rfl, hx, hcount⟩ := Primitive.decimal_of_holds hv
  obtain ⟨a, ha⟩ : ∃ a, (bucket count).apply (.primitive (.decimal precision scale)) (.decimal x) =
      .ok a := ⟨_, rfl⟩
  refine ⟨a, ha, fun r name d partition hreads hd => ?_⟩
  -- equal decimals in scale have one unscaled value, from which the bytes are made
  have hbytes : ∀ l ∈ p.literals, (Value.decimal x).SameKey l.value →
      HashForm.decimal.toBytes (.decimal x) = HashForm.decimal.toBytes l.value := by
    intro l hl hsame
    obtain ⟨y, rfl, _⟩ := hlits l hl
    have hn : x.unscaled = y.unscaled := (Value.sameKey_count hcount (hscaled _ hl)).mp hsame
    simp only [Literal.value, HashForm.toBytes, Decimal.toBytes, hn]
  have hsound : (bucket count).SoundFor name p d (.decimal x) a :=
    soundFor_of_toBytes rfl hp hd hreads.optional hnan hbytes ha
  refine ResidualEvaluator.honours_of_soundFor hreads hsound ?_
  refine Predicate.succeeds_test (Or.inr hadmits) (fun l hl => ?_) fun op c l hcompare hbeginning => ?_
  · obtain ⟨y, rfl, hy⟩ := hlits l hl
    exact ⟨rfl, Literal.isUnordered_of_scale? hy⟩
  · simp [hop op c l hcompare] at hbeginning

/-- **A literal out of scale** is misjudged when decimals are truncated to themselves. -/
theorem inScale_of_isFaithfulTo
    (hp : p.term.field.type = .primitive (.decimal precision scale))
    (hlits : ∀ l ∈ p.literals, ∃ y, l = .decimal y ∧ y.scale? = some scale)
    (hdistinct : Literal.Distinct p.literals)
    (hop : ∀ op c l, p = .compare op c l → op.isBeginning = false)
    (h : (truncate 1).IsFaithfulTo (.decimal precision scale) p) :
    ∀ l ∈ p.literals, l.InScale scale := by
  by_contra! hout
  have hone (n : Int) : floorMultiple 1 n = n := by simp [floorMultiple]
  -- the row value of a count is its own partition value
  have hcontract (n : Int) : ∃ (r : ResidualEvaluator) (name : String) (d : Column) (partition : Value),
      r.Reads name d partition (.decimal (.ofUnscaled (floorMultiple 1 n) scale)) ∧
      d.field.type = .primitive (.decimal precision scale) ∧
      r.Honours (truncate 1) name p partition (.decimal (.ofUnscaled n scale)) := by
    obtain ⟨a, ha, hall⟩ := h (.decimal (.ofUnscaled n scale)) (by
      simp [Primitive.holds, Primitive.admits, Primitive.inRange, Decimal.ofUnscaled])
    rw [apply_truncate_decimal 1 (Decimal.scale?_ofUnscaled _ _), Decimal.unscaled_ofUnscaled] at ha
    obtain rfl := Except.ok.inj ha
    obtain ⟨r, name, d, partition, hreads, hd⟩ :=
      ResidualEvaluator.exists_reads (.decimal precision scale)
        (.decimal (.ofUnscaled (floorMultiple 1 n) scale))
    exact ⟨r, name, d, partition, hreads, hd, hall r name d partition hreads hd⟩
  cases p with
  | unary op c => simp [Predicate.literals] at hout
  | compare op c l =>
    obtain ⟨m, hm, hshifted⟩ := hout
    obtain rfl : m = l := List.mem_singleton.mp hm
    obtain ⟨y, rfl, hy⟩ := hlits m (List.mem_singleton.mpr rfl)
    obtain ⟨K, hK, hlarge⟩ := Literal.exists_count_of_not_inScale hy hshifted
    have hne : y.unscaled ≠ K := by
      intro heq
      rw [heq] at hlarge
      exact lt_irrefl _ hlarge
    obtain ⟨side, op', step, n, hbound, ht, hwrong⟩ := Side.bound_shifted (hop op c _ rfl) hne
    obtain ⟨r, name, d, partition, hreads, hd, hhonours⟩ := hcontract n
    have hright := (ResidualEvaluator.honours_compare_count hp hd hreads
      (Decimal.isCount_ofUnscaled n scale) hy hK).mp hhonours side op' step hbound
    simp only [hone] at hright
    exact hwrong (hright ht)
  | member op c ls =>
    obtain ⟨n, y, hyls, hn, hmissed⟩ := Literal.exists_count_missed hlits hdistinct hout
    obtain ⟨r, name, d, partition, hreads, hd, hhonours⟩ := hcontract n
    have hfound := (ResidualEvaluator.honours_member_count hp hd hlits hreads rfl).mp hhonours
      ⟨_, hyls, (Value.sameKey_count (Decimal.isCount_ofUnscaled n scale) hn).mpr rfl⟩
    obtain ⟨z, hz, heq⟩ := hfound
    rw [hone, hone] at heq
    exact hmissed z hz heq

/-- **The contract of decimals.** Let a predicate, but no test of the beginning, be bound to a column of
decimals. If the digits of its literals count the units of the scale, then its projections to truncated
values and to buckets honour the contract, for every width, every number of buckets and every value of the
column. Otherwise they do not: a literal with a positive exponent is misjudged for some value. -/
theorem isFaithfulTo_decimal_iff {schema : Schema} {caseSensitive : Bool} {u : Predicate String}
    (hmade : ∀ l ∈ u.literals, l.Made) (hbind : u.bind schema caseSensitive = .ok (.leaf p))
    (hp : p.term.field.type = .primitive (.decimal precision scale))
    (hop : ∀ op c l, p = .compare op c l → op.isBeginning = false) :
    ((∀ width, 0 < width → (truncate width).IsFaithfulTo (.decimal precision scale) p) ∧
        ∀ count, 0 < count → (bucket count).IsFaithfulTo (.decimal precision scale) p) ↔
      ∀ l ∈ p.literals, l.InScale scale := by
  obtain ⟨c, hc, hbindTo⟩ := bind_eq_ok.mp hbind
  have hdistinct : Literal.Distinct p.literals := Predicate.distinct_of_bindTo hbindTo
  have hlits : ∀ l ∈ p.literals, ∃ y, l = .decimal y ∧ y.scale? = some scale := by
    obtain ⟨_, hconstant⟩ | ⟨p', hp', _, hconverted⟩ := Predicate.bind_inv hbind
    · simp at hconstant
    · obtain rfl := Expr.leaf.inj hp'
      intro l hl
      obtain ⟨m, hm, hconvert⟩ := hconverted l hl
      exact Literal.scale?_of_convert (Literal.isOrdered_of_made (hmade m hm)) (hp ▸ hconvert)
  constructor
  · rintro ⟨htruncate, _⟩
    -- A width of one loses nothing, so only a literal that was misread can be in the way.
    exact inScale_of_isFaithfulTo hp hlits hdistinct hop (htruncate 1 (by decide))
  · intro hscaled
    exact ⟨fun width hwidth => isFaithfulTo_truncate hwidth hp hlits hscaled,
      fun count _ => isFaithfulTo_bucket count hp hlits hscaled hop⟩

/-- Binding a comparison with the text of a decimal. -/
theorem bind_of_parse? {schema : Schema} {caseSensitive : Bool} {name text : String} {c : Column}
    {op : Comparison} {x : Decimal} (hcolumn : schema.column caseSensitive name = .ok c)
    (hc : c.field.type = .primitive (.decimal precision scale)) (hparse : Decimal.parse? text = some x)
    (hx : x.scale? = some scale) :
    (Predicate.compare op name (.string text)).bind schema caseSensitive =
      .ok (.leaf (.compare op c (.decimal x))) := by
  have hconvert : (Literal.string text).convert c.field.type = .ok (.decimal x) := by
    rw [hc]
    simp only [Literal.convert, Literal.convertText, hparse]
    exact Literal.decimalOfScale_eq_ok.mpr ⟨hx, rfl⟩
  simp only [Predicate.bind, Predicate.term, hcolumn, ok_bind, Predicate.bindTo, hconvert, map_ok]
  rfl

/-- The literal "100.00" is in scale for two places. -/
theorem isFaithfulTo_decimal_iff_hundred :
    let c : Column := ⟨⟨1, "c", .primitive (.decimal 9 2), false, none⟩, ⟨0, []⟩⟩
    let schema := Schema.ofFields [c.field]
    let u : Predicate String := .compare .lessOrEqual "c" (.string "100.00")
    let p : Predicate Column := .compare .lessOrEqual c (.decimal (.finite false 10000 (-2)))
    (∀ l ∈ u.literals, l.Made) ∧ u.bind schema true = .ok (.leaf p) ∧
      (truncate 1000).IsFaithfulTo (.decimal 9 2) p ∧ (bucket 16).IsFaithfulTo (.decimal 9 2) p := by
  intro c schema u p
  have hmade : ∀ l ∈ u.literals, l.Made := by
    intro l hl
    obtain rfl := List.mem_singleton.mp hl
    exact .value (v := .text "100.00") rfl
  -- The text has its two places written out, so the scale is read as it is.
  have hparse : Decimal.parse? "100.00" = some (.finite false 10000 (-2)) := by decide +kernel
  have hbind : u.bind schema true = .ok (.leaf p) := bind_of_parse? rfl rfl hparse rfl
  have hscaled : ∀ l ∈ p.literals, l.InScale 2 := by
    intro l hl
    obtain rfl := List.mem_singleton.mp hl
    exact Decimal.isCount_unscaled
  have hop : ∀ op c' l, p = .compare op c' l → op.isBeginning = false := by
    rintro op c' l hcompare
    obtain ⟨rfl, rfl, rfl⟩ := Predicate.compare.inj hcompare
    rfl
  obtain ⟨htruncate, hbucket⟩ := (isFaithfulTo_decimal_iff hmade hbind rfl hop).mpr hscaled
  exact ⟨hmade, hbind, htruncate 1000 (by decide), hbucket 16 (by decide)⟩

open ResidualEvaluator in
/-- **A row that is lost to an exponent.** The text "1E+2" is one hundred for the rows of a column of
decimals with two places and one hundredth for its partitions, so the residual of being at most that is
false for the partition of one hundred. -/
theorem not_honours_of_exponent :
    let c : Column := ⟨⟨1, "c", .primitive (.decimal 9 2), false, none⟩, ⟨0, []⟩⟩
    let schema := Schema.ofFields [c.field]
    let spec : PartitionSpec := ⟨0, [⟨1, 1000, .truncate 1000, "c_part"⟩]⟩
    let u : Predicate String := .compare .lessOrEqual "c" (.string "1E+2")
    let p : Predicate Column := .compare .lessOrEqual c (.decimal (.finite false 1 2))
    let hundred : Value := .decimal (.finite false 10000 (-2))
    let partition : Value := .record [hundred]
    (∀ l ∈ u.literals, l.Made) ∧ u.bind schema true = .ok (.leaf p) ∧
      (Primitive.decimal 9 2).holds hundred = true ∧
      (truncate 1000).apply (.primitive (.decimal 9 2)) hundred = .ok hundred ∧
      ∃ r d, make spec (Filter.ofPredicate u) true schema = .ok r ∧
        r.Reads "c_part" d partition hundred ∧
        ¬ r.Honours (.truncate 1000) "c_part" p partition hundred ∧
        r.residual partition = .ok (.constant false) ∧ p.test hundred = .ok true := by
  intro c schema spec u p hundred partition
  have hmade : ∀ l ∈ u.literals, l.Made := by
    intro l hl
    obtain rfl := List.mem_singleton.mp hl
    exact .value (v := .text "1E+2") rfl
  obtain ⟨r, hmake⟩ : ∃ r, make spec (Filter.ofPredicate u) true schema = .ok r := ⟨_, rfl⟩
  have hat : partition.at 0 = .ok hundred := rfl
  have hd := reads_of_single rfl hmake (g := c.field) rfl rfl hat
  have hparse : Decimal.parse? "1E+2" = some (.finite false 1 2) := by decide +kernel
  have hbind : u.bind schema true = .ok (.leaf p) := bind_of_parse? rfl rfl hparse rfl
  have hproject : (truncate 1000).projection .inclusive "c_part" p =
      .ok (some (.leaf (.compare .lessOrEqual "c_part" (.decimal (.finite false 0 (-2)))))) := by cbv
  have htrue : p.test hundred = .ok true := by cbv
  obtain rfl := Except.ok.inj hmake
  refine ⟨hmade, hbind, by cbv, by cbv, _, _, hmake, hd, fun h => ?_, ?_, htrue⟩
  · -- one hundred is not at most the zero that one hundredth is truncated to
    have hfalse := h .inclusive _ hproject (by cbv)
    simp [htrue, Side.decides] at hfalse
  · show (u.bind schema true >>= _) = Except.ok (Expr.constant false)
    rw [hbind]
    cbv

end Transform

end PartitionPruning
