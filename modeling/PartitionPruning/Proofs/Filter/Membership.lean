import Mathlib
import PartitionPruning.Proofs.Filter.Safety

/-!
# Membership and equality

A test of membership asks whether the value of a column equals one of some literals. It does so for the
literals of the set that is made of them, in which of equal literals the first one stands for all. But
a literal beyond the range of the column equals no value, while in a set of two literals or more it
equals the end of the range that it is beyond.

* **`outcome_single`** — what a comparison with one literal asks for.
* **`outcome_ofSet_iff`** — what a test of membership asks for.
* **`evaluateIn_ofLiterals_iff`** — when membership is equality with one of the literals.
-/

namespace PartitionPruning

open Outcome

/-! ## Literals -/

namespace Literal

/-- Integers are in a set if they are among the integers that it is made of. -/
theorem mem_distinct_long {n : Int} {ns : List Int} :
    Literal.long (.number n) ∈ distinct (ns.map fun m => .long (.number m)) ↔ n ∈ ns := by
  constructor
  · intro h
    simpa using mem_of_mem_distinct h
  · intro h
    have hmem : Literal.long (.number n) ∈ ns.map fun m => Literal.long (.number m) :=
      List.mem_map_of_mem h
    obtain ⟨k, hk, hkey⟩ := exists_key_of_foldl [] (Or.inr hmem)
    obtain ⟨m, _, rfl⟩ := List.mem_map.mp (mem_of_mem_distinct hk)
    obtain rfl : m = n := by simpa [value_long] using Value.eq_of_key? rfl rfl hkey
    exact hk

/-- A set of integers has two members if two of the integers differ. -/
theorem two_le_length_distinct_long {ns : List Int} :
    2 ≤ (distinct (ns.map fun m => Literal.long (.number m))).length ↔
      ∃ m ∈ ns, ∃ n ∈ ns, m ≠ n := by
  have hmem {l : Literal} (hl : l ∈ distinct (ns.map fun m => Literal.long (.number m))) :
      ∃ m ∈ ns, Literal.long (.number m) = l := List.mem_map.mp (mem_of_mem_distinct hl)
  have hdistinct : Distinct (distinct (ns.map fun m => Literal.long (.number m))) :=
    distinct_foldl [] List.Pairwise.nil
  constructor
  · intro hlength
    -- Two distinct literals cannot come from one number, since they would have one key.
    match hset : distinct (ns.map fun m => Literal.long (.number m)), hlength with
    | l :: k :: rest, _ =>
      rw [hset] at hmem hdistinct
      obtain ⟨m, hm, rfl⟩ := hmem (List.mem_cons_self ..)
      obtain ⟨n, hn, rfl⟩ := hmem (List.mem_cons_of_mem _ (List.mem_cons_self ..))
      refine ⟨m, hm, n, hn, ?_⟩
      rintro rfl
      exact List.rel_of_pairwise_cons hdistinct (List.mem_cons_self ..)
        ((Value.sameKey_ofWhole (m := .number m) (n := .number m)).mpr rfl)
  · rintro ⟨m, hm, n, hn, hne⟩
    have hm := mem_distinct_long.mpr hm
    have hn := mem_distinct_long.mpr hn
    match hset : distinct (ns.map fun m => Literal.long (.number m)) with
    | [] => simp [hset] at hm
    | [l] =>
      rw [hset, List.mem_singleton] at hm hn
      have heq := hm.trans hn.symm
      simp [hne] at heq
    | l :: k :: rest => simp

end Literal

/-! ## Predicates on one column -/

namespace Predicate

variable {op : Membership} {c : Column} {name : String} {x : Value} {t : Bool}

/-- An equality with a mark is decided by the side it is off, whatever the row. -/
theorem outcome_of_isMark {l' : Literal} (h : l'.isMark = true) :
    Expr.evaluate (fun q => q.test x) (bindCompare op.single c l') = .ok (op.outcome false) := by
  cases l' with
  | aboveMax t | belowMin t => cases op <;> rfl
  | _ => simp [Literal.isMark] at h

/-- **Equality with one literal.** A literal beyond the range of the column equals no value. -/
theorem outcome_single {l l' : Literal} (hl : l.convert c.field.type = .ok l')
    (h : outcome c x (.compare op.single name l) = .ok t) :
    ∃ b, t = op.outcome b ∧ (b = true ↔ l'.isMark = false ∧ x.SameKey l'.value) := by
  cases hmark : l'.isMark with
  | true =>
    simp only [outcome, bindTo, hl, map_ok, ok_bind, outcome_of_isMark hmark] at h
    exact ⟨false, (Except.ok.inj h).symm, by simp⟩
  | false =>
    rw [outcome_compare hl hmark] at h
    obtain ⟨b, rfl, hb⟩ := testCompare_single_eq_ok h
    exact ⟨b, rfl, by simpa using hb⟩

/-- **Membership in a set.** If the set has two literals at least, one beyond the range of the column
equals the end of the range. -/
theorem outcome_ofSet_iff {ls : List Literal}
    (h : Expr.evaluate (outcome c x) (ofSet op name ls) = .ok t) :
    ∃ b, t = op.outcome b ∧ (b = true ↔ ∃ l ∈ ls, ∃ l', l.convert c.field.type = .ok l' ∧
      x.SameKey l'.value ∧ (l'.isMark = true → 2 ≤ ls.length)) := by
  -- None, one and several literals: the constant, the comparison and the set.
  match ls, h with
  | [], h =>
    obtain rfl : op.empty = t := by simpa [ofSet, Expr.evaluate] using h
    exact ⟨false, by cases op <;> rfl, by simp⟩
  | [l], h =>
    simp only [ofSet, Expr.evaluate] at h
    obtain ⟨l', hl'⟩ := outcome_compare_inv h
    obtain ⟨b, rfl, hb⟩ := outcome_single hl' h
    refine ⟨b, rfl, hb.trans ?_⟩
    simp [hl', and_comm]
  | l :: m :: rest, h =>
    obtain ⟨e, he, h⟩ := bind_eq_ok.mp h
    obtain ⟨ls', hls', he⟩ := bind_eq_ok.mp he
    obtain ⟨b, rfl, hb⟩ := evaluate_ofSetOf he h
    refine ⟨b, rfl, hb.trans ⟨?_, ?_⟩⟩
    · rintro ⟨l', hl', hkey⟩
      obtain ⟨k, hk, hkl'⟩ := exists_of_mem_result hls' hl'
      exact ⟨k, hk, l', hkl', hkey, fun _ => by simp⟩
    · rintro ⟨k, hk, l', hkl', hkey, _⟩
      obtain ⟨l'', hl'', hkl''⟩ := exists_result_of_mem hls' hk
      obtain rfl : l' = l'' := Except.ok.inj (hkl'.symm.trans hkl'')
      exact ⟨l', hl'', hkey⟩

end Predicate

/-! ## Columns of integers -/

/-- The smallest and the largest value of an integer type. -/
def Primitive.limits? : Primitive → Option (Int × Int)
  | .int => some (-2147483648, 2147483647)
  | .long => some (-9223372036854775808, 9223372036854775807)
  | _ => none

namespace Literal

variable {p : Primitive} {low high : Int}

/-- An integer is put into the limits of the type that it is converted to. -/
theorem convert_long (hp : p.limits? = some (low, high)) (m : Int) :
    ∃ t : Bounded, (Literal.long (.number m)).convert (.primitive p) =
      .ok (clamp t low high (.number m)) ∧ t.min = .int low ∧ t.max = .int high := by
  cases p with
  | int =>
    obtain ⟨rfl, rfl⟩ : -2147483648 = low ∧ 2147483647 = high := by simpa [Primitive.limits?] using hp
    exact ⟨.int, rfl, rfl, rfl⟩
  | long =>
    obtain ⟨rfl, rfl⟩ : -9223372036854775808 = low ∧ 9223372036854775807 = high := by
      simpa [Primitive.limits?] using hp
    exact ⟨.long, rfl, rfl, rfl⟩
  | _ => simp [Primitive.limits?] at hp

/-- An integer within limits equals one that is put into them if it is that one, or the limit that the
other one is beyond. -/
theorem sameKey_clamp {t : Bounded} (hmin : t.min = .int low) (hmax : t.max = .int high) {n : Int}
    (hlow : low ≤ n) (hhigh : n ≤ high) (m : Int) :
    (Value.int n).SameKey (clamp t low high (.number m)).value ↔
      n = m ∨ (n = high ∧ high < m) ∨ (n = low ∧ m < low) := by
  have hkey (k : Int) : (Value.int n).SameKey (.int k) ↔ n = k :=
    Value.sameKey_ofWhole (m := .number n) (n := .number k)
  by_cases habove : high < m
  · rw [clamp, Whole.toInt, if_pos habove, value, hmax, hkey]
    omega
  · by_cases hbelow : m < low
    · rw [clamp, Whole.toInt, if_neg habove, if_pos hbelow, value, hmin, hkey]
      omega
    · rw [clamp, Whole.toInt, if_neg habove, if_neg hbelow, value_long, hkey]
      omega

/-- A number is marked exactly when it is out of the range. -/
theorem isMark_clamp {t : Bounded} {m : Int} :
    (clamp t low high (.number m)).isMark = true ↔ high < m ∨ m < low := by
  by_cases habove : high < m
  · simp [clamp, Whole.toInt, isMark, habove]
  · by_cases hbelow : m < low
    · simp [clamp, Whole.toInt, isMark, habove, hbelow]
    · simp [clamp, Whole.toInt, isMark, habove, hbelow]

/-- **A set of integers** asks for its integers and, if it has two, for the limits that some of them
are beyond. -/
theorem sameKey_long_iff (hp : p.limits? = some (low, high)) {n : Int} (hlow : low ≤ n)
    (hhigh : n ≤ high) {ns : List Int} :
    (∃ l ∈ distinct (ns.map fun m => Literal.long (.number m)), ∃ l',
        l.convert (.primitive p) = .ok l' ∧ (Value.int n).SameKey l'.value ∧
        (l'.isMark = true → 2 ≤ (distinct (ns.map fun m => Literal.long (.number m))).length)) ↔
      n ∈ ns ∨ (∃ m ∈ ns, ∃ k ∈ ns, m ≠ k) ∧
        ((n = high ∧ ∃ m ∈ ns, high < m) ∨ (n = low ∧ ∃ m ∈ ns, m < low)) := by
  rw [two_le_length_distinct_long]
  constructor
  · rintro ⟨l, hl, l', hl', hkey, hmark⟩
    obtain ⟨m, hm, rfl⟩ := List.mem_map.mp (mem_of_mem_distinct hl)
    obtain ⟨t, hconvert, hmin, hmax⟩ := convert_long hp m
    obtain rfl := Except.ok.inj (hconvert.symm.trans hl')
    rw [isMark_clamp] at hmark
    rcases (sameKey_clamp hmin hmax hlow hhigh m).mp hkey with rfl | ⟨hn, hbeyond⟩ | ⟨hn, hbeyond⟩
    · exact Or.inl hm
    · exact Or.inr ⟨hmark (Or.inl hbeyond), Or.inl ⟨hn, m, hm, hbeyond⟩⟩
    · exact Or.inr ⟨hmark (Or.inr hbeyond), Or.inr ⟨hn, m, hm, hbeyond⟩⟩
  · intro h
    -- the integer that the value equals once it is put into the limits
    obtain ⟨m, hm, hequals, htwo⟩ : ∃ m ∈ ns, (n = m ∨ (n = high ∧ high < m) ∨ (n = low ∧ m < low)) ∧
        (high < m ∨ m < low → ∃ m ∈ ns, ∃ k ∈ ns, m ≠ k) := by
      rcases h with hn | ⟨htwo, ⟨hn, m, hm, hbeyond⟩ | ⟨hn, m, hm, hbeyond⟩⟩
      · exact ⟨n, hn, Or.inl rfl, by omega⟩
      · exact ⟨m, hm, Or.inr (Or.inl ⟨hn, hbeyond⟩), fun _ => htwo⟩
      · exact ⟨m, hm, Or.inr (Or.inr ⟨hn, hbeyond⟩), fun _ => htwo⟩
    obtain ⟨t, hconvert, hmin, hmax⟩ := convert_long hp m
    exact ⟨_, mem_distinct_long.mpr hm, _, hconvert,
      (sameKey_clamp hmin hmax hlow hhigh m).mpr hequals, fun hmark => htwo (isMark_clamp.mp hmark)⟩

end Literal

/-! ## Filters -/

/-- Membership and its opposite both tell the two outcomes apart. -/
theorem Membership.outcome_inj {op : Membership} {b b' : Bool} (h : op.outcome b = op.outcome b') :
    b = b' := by
  cases op <;> simpa [outcome] using h

namespace Filter

variable {schema : Schema} {caseSensitive : Bool} {op : Membership} {name : String}
variable {ls : List Literal} {f B : Filter} {c : Column} {p : Primitive} {row x : Value}

/-- What binds binds to the column found. -/
theorem succeeds_bindTo_of_bind {q : Predicate String}
    (hcolumn : schema.column caseSensitive q.term = .ok c)
    (h : (ofPredicate q).bind schema caseSensitive = .ok B) : Succeeds (q.bindTo c) := by
  obtain ⟨e, he, _⟩ := map_eq_ok.mp h
  obtain ⟨c', hc', he⟩ := bind_eq_ok.mp he
  obtain rfl : c = c' := Except.ok.inj (hcolumn.symm.trans hc')
  exact ⟨e, he⟩

/-- The set of a test of membership lists the distinct literals. -/
theorem ofLiterals_inv (hf : ofLiterals op name ls = .ok f) :
    f = (Predicate.ofSet op name (Literal.relisted (Literal.distinct ls))).map .unbound := by
  obtain ⟨e, he, rfl⟩ := map_eq_ok.mp hf
  obtain ⟨set, hset, rfl⟩ := map_eq_ok.mp he
  rw [(Literal.toSet_eq_ok.mp hset).2]

/-- A set that could be bound has converted its literals. -/
theorem succeeds_convert_of_bind (hcolumn : schema.column caseSensitive name = .ok c)
    (h : Filter.bind schema caseSensitive ((Predicate.ofSet op name ls).map .unbound) = .ok B) :
    ∀ l ∈ ls, Succeeds (l.convert c.field.type) := by
  match ls, h with
  | [], _ => simp
  | [l], h =>
    obtain ⟨e, he⟩ := succeeds_bindTo_of_bind (q := .compare op.single name l) hcolumn h
    obtain ⟨l', hl', _⟩ := map_eq_ok.mp he
    simpa using ⟨l', hl'⟩
  | l :: m :: rest, h =>
    obtain ⟨e, he⟩ := succeeds_bindTo_of_bind (q := .member op name (l :: m :: rest)) hcolumn h
    obtain ⟨ls', hls', _⟩ := bind_eq_ok.mp he
    exact succeeds_mapM.mp ⟨ls', hls'⟩

/-- A set predicate that binds has every literal converted to the column's type. -/
theorem succeeds_convert_of_ofLiterals (hf : ofLiterals op name ls = .ok f)
    (hcolumn : schema.column caseSensitive name = .ok c)
    (hbind : f.bind schema caseSensitive = .ok B) :
    ∀ l ∈ Literal.distinct ls, Succeeds (l.convert c.field.type) := by
  rw [ofLiterals_inv hf] at hbind
  intro l hl
  exact succeeds_convert_of_bind hcolumn hbind l (Literal.mem_relisted.mpr hl)

/-- **A comparison with one literal** on a row. -/
theorem evaluateIn_single {l l' : Literal} (hcolumn : schema.column caseSensitive name = .ok c)
    (hp : c.field.type = .primitive p) (hx : c.accessor.get row = .ok x) (hadmits : p.mayHold x)
    (hl : l.isOrdered = true) (hl' : l.convert (.primitive p) = .ok l') :
    ∃ b, (ofPredicate (.compare op.single name l)).evaluateIn schema caseSensitive row =
        .ok (op.outcome b) ∧ (b = true ↔ l'.isMark = false ∧ x.SameKey l'.value) := by
  have hsingle : op.single.isBeginning = false := by cases op <;> rfl
  obtain ⟨t, ht⟩ : Succeeds (Predicate.outcome c x (.compare op.single name l)) :=
    Predicate.succeeds_outcome_compare hp hadmits hl' (Literal.isUnordered_of_isOrdered hl hl') hsingle
  obtain ⟨b, rfl, hb⟩ := Predicate.outcome_single (hp ▸ hl') ht
  have hevaluate := evaluateIn_eq_outcome (e := .leaf (.compare op.single name l)) hcolumn hx
    (Or.inr ⟨_, rfl, rfl⟩)
  exact ⟨b, hevaluate.trans ht, hb⟩

/-- **A test of membership** on a row. -/
theorem evaluateIn_set (hf : ofLiterals op name ls = .ok f) (hls : ∀ l ∈ ls, l.isOrdered = true)
    (hcolumn : schema.column caseSensitive name = .ok c) (hp : c.field.type = .primitive p)
    (hx : c.accessor.get row = .ok x) (hadmits : p.mayHold x)
    (hconvert : ∀ l ∈ Literal.distinct ls, Succeeds (l.convert (.primitive p))) :
    ∃ b, f.evaluateIn schema caseSensitive row = .ok (op.outcome b) ∧
      (b = true ↔ ∃ l ∈ Literal.distinct ls, ∃ l', l.convert (.primitive p) = .ok l' ∧
        x.SameKey l'.value ∧ (l'.isMark = true → 2 ≤ (Literal.distinct ls).length)) := by
  have hconverted : ∀ l ∈ Literal.relisted (Literal.distinct ls), Succeeds (l.convert (.primitive p)) :=
    fun l hl => hconvert l (Literal.mem_relisted.mp hl)
  -- Every literal that could be made has a key once it is converted.
  have hordered : ∀ l ∈ Literal.relisted (Literal.distinct ls), ∀ l',
      l.convert (.primitive p) = .ok l' → l'.value.isUnordered = false := by
    intro l hl l' hl'
    have hmem : l ∈ ls := Literal.mem_of_mem_distinct (Literal.mem_relisted.mp hl)
    exact Literal.isUnordered_of_isOrdered (hls l hmem) hl'
  obtain ⟨t, ht⟩ : Succeeds (Expr.evaluate (Predicate.outcome c x)
      (Predicate.ofSet op name (Literal.relisted (Literal.distinct ls)))) :=
    (Predicate.succeeds_evaluate_ofSet hp hadmits hordered).mpr hconverted
  have hnames := Projection.names_ofSet op name (Literal.relisted (Literal.distinct ls))
  have hevaluate := evaluateIn_eq_outcome hcolumn hx hnames
  obtain ⟨b, rfl, hb⟩ := Predicate.outcome_ofSet_iff ht
  rw [ofLiterals_inv hf]
  refine ⟨b, hevaluate.trans ht, ?_⟩
  simpa only [Literal.mem_relisted, Literal.length_relisted, hp] using hb

/-- **Membership and equality.** If a test of membership can be bound to a column, then it is true on a
row exactly if a comparison with one of the distinct literals is, or if the value is the end of the range
of the column that one of two or more literals is beyond. Its negation is false then. So a test among
integers asks whether the value is one of them, or such an end. -/
theorem evaluateIn_ofLiterals_iff (hf : ofLiterals op name ls = .ok f) (hls : ∀ l ∈ ls, l.Made)
    (hcolumn : schema.column caseSensitive name = .ok c) (hp : c.field.type = .primitive p)
    (hbind : f.bind schema caseSensitive = .ok B) (hrow : schema.admits row = true) :
    ∃ x b, c.accessor.get row = .ok x ∧
      f.evaluateIn schema caseSensitive row = .ok (op.outcome b) ∧
      (∀ l ∈ Literal.distinct ls, ∃ t,
        (ofPredicate (.compare op.single name l)).evaluateIn schema caseSensitive row =
          .ok (op.outcome t)) ∧
      (b = true ↔
        (∃ l ∈ Literal.distinct ls,
          (ofPredicate (.compare op.single name l)).evaluateIn schema caseSensitive row =
            .ok (op.outcome true)) ∨
        2 ≤ (Literal.distinct ls).length ∧ ∃ l ∈ Literal.distinct ls, ∃ m,
          l.convert (.primitive p) = .ok m ∧ m.isMark = true ∧ x.SameKey m.value) ∧
      ∀ (low high : Int) (ns : List Int) (n : Int), p.limits? = some (low, high) →
        ls = ns.map (fun m => .long (.number m)) → x = .int n → low ≤ n → n ≤ high →
        (b = true ↔ n ∈ ns ∨ (∃ m ∈ ns, ∃ k ∈ ns, m ≠ k) ∧
          ((n = high ∧ ∃ m ∈ ns, high < m) ∨ (n = low ∧ ∃ m ∈ ns, m < low))) := by
  obtain ⟨x, hx, hadmits⟩ := Schema.get_of_column hcolumn hrow
  have hmay : p.mayHold x := hadmits p hp
  have hordered : ∀ l ∈ ls, l.isOrdered = true := fun l hl => Literal.isOrdered_of_made (hls l hl)
  have hconvert : ∀ l ∈ Literal.distinct ls, Succeeds (l.convert (.primitive p)) :=
    hp ▸ succeeds_convert_of_ofLiterals hf hcolumn hbind
  obtain ⟨b, hb, hiff⟩ := evaluateIn_set hf hordered hcolumn hp hx hmay hconvert
  -- Each literal by itself is an equality, which a mark makes false and a set does not.
  have hsingle {l l' : Literal} (hl : l ∈ Literal.distinct ls)
      (hl' : l.convert (.primitive p) = .ok l') :
      ∃ b, (ofPredicate (.compare op.single name l)).evaluateIn schema caseSensitive row =
        .ok (op.outcome b) ∧ (b = true ↔ l'.isMark = false ∧ x.SameKey l'.value) :=
    evaluateIn_single hcolumn hp hx hmay (hordered l (Literal.mem_of_mem_distinct hl)) hl'
  refine ⟨x, b, hx, hb, fun l hl => ?singles, hiff.trans ⟨?set, ?equal⟩, ?integers⟩
  case singles =>
    obtain ⟨l', hl'⟩ := hconvert l hl
    obtain ⟨t, ht, _⟩ := hsingle hl hl'
    exact ⟨t, ht⟩
  case set =>
    rintro ⟨l, hl, l', hl', hkey, htwo⟩
    cases hmark : l'.isMark with
    | true => exact Or.inr ⟨htwo hmark, l, hl, l', hl', hmark, hkey⟩
    | false =>
      obtain ⟨t, ht, htrue⟩ := hsingle hl hl'
      exact Or.inl ⟨l, hl, by rw [ht, htrue.mpr ⟨hmark, hkey⟩]⟩
  case equal =>
    rintro (⟨l, hl, heq⟩ | ⟨htwo, l, hl, l', hl', _, hkey⟩)
    · obtain ⟨l', hl'⟩ := hconvert l hl
      obtain ⟨t, ht, htrue⟩ := hsingle hl hl'
      obtain rfl := Membership.outcome_inj (Except.ok.inj (ht.symm.trans heq))
      obtain ⟨hmark, hkey⟩ := htrue.mp rfl
      exact ⟨l, hl, l', hl', hkey, by simp [hmark]⟩
    · exact ⟨l, hl, l', hl', hkey, fun _ => htwo⟩
  case integers =>
    rintro low high ns n hlimits rfl rfl hlow hhigh
    exact hiff.trans (Literal.sameKey_long_iff hlimits hlow hhigh)

/-- The number 7 of a row is among 5 and 7. -/
theorem evaluateIn_ofLiterals_iff_seven :
    let schema := Schema.ofFields [⟨1, "c", .primitive .int, false, none⟩]
    let ls : List Literal := [.long (.number 5), .long (.number 7)]
    let among : Filter := .leaf (.unbound (.member .isIn "c" ls))
    let row : Value := .record [.int 7]
    ofLiterals .isIn "c" ls = .ok among ∧ (∀ l ∈ ls, l.Made) ∧
      (∃ B, among.bind schema true = .ok B) ∧ schema.admits row = true ∧
      among.evaluateIn schema true row = .ok true := by
  intro schema ls among row
  have hf : ofLiterals .isIn "c" ls = .ok among := by cbv
  have hls : ∀ l ∈ ls, l.Made := by
    intro l hl
    obtain ⟨n, _, rfl⟩ : ∃ n ∈ [5, 7], Literal.long (.number n) = l := List.mem_map.mp hl
    exact .value (v := .int n) rfl
  obtain ⟨B, hbind⟩ : ∃ B, among.bind schema true = .ok B := ⟨_, by cbv⟩
  have hrow : schema.admits row = true := Schema.admits_of_holds (by cbv)
  have hcolumn : schema.column true "c" =
      .ok ⟨⟨1, "c", .primitive .int, false, none⟩, ⟨0, []⟩⟩ := by rfl
  obtain ⟨x, b, hx, hb, _, _, hints⟩ := evaluateIn_ofLiterals_iff hf hls hcolumn rfl hbind hrow
  obtain rfl : b = true := (hints _ _ [5, 7] 7 rfl rfl (Except.ok.inj hx).symm (by decide)
    (by decide)).mpr (Or.inl (by simp))
  exact ⟨hf, hls, ⟨B, hbind⟩, hrow, hb⟩

/-- **Membership without equality.** The largest integer of a column is in a set with a literal beyond
the range of the column, and equals neither literal. -/
theorem evaluateIn_of_wide_set :
    let schema := Schema.ofFields [⟨1, "c", .primitive .int, false, none⟩]
    let row : Value := .record [.int 2147483647]
    schema.holds row = true ∧
      (∃ f, ofLiterals .isIn "c" [.long (.number 5), .long (.number (2 ^ 40))] = .ok f ∧
        f.evaluateIn schema true row = .ok true) ∧
      (ofPredicate (.compare .equal "c" (.long (.number 5)))).evaluateIn schema true row = .ok false ∧
      (ofPredicate (.compare .equal "c" (.long (.number (2 ^ 40))))).evaluateIn schema true row =
        .ok false :=
  ⟨by cbv, ⟨_, by cbv, by cbv⟩, by cbv, by cbv⟩

end Filter

end PartitionPruning
