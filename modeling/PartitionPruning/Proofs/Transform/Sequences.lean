import PartitionPruning.Proofs.Transform.Soundness

/-!
# Projections to beginnings

Texts and bytes are truncated to their beginnings. Both are sequences of numbers (`Value.codes`) that
are ordered by the first number that differs, so that beginnings of one length are equal or ordered as
the whole sequences are.

* **`testCompare_codes`** — a comparison of two texts or of two byte sequences is that of their codes.
* **`Codes.order_take`** — beginnings are equal or have the order of the whole.
* **`prefix_sound`** — what a comparison of beginnings says about the whole sequences.
* **`soundFor_beginning`** — the projections to beginnings are sound.
-/

namespace PartitionPruning

open Outcome (bind_eq_ok map_eq_ok)

/-! ## Sequences of codes -/

namespace Codes

/-- The order of two sequences: that of the first numbers that differ. -/
def order : List Nat → List Nat → Ordering
  | [], [] => .eq
  | [], _ :: _ => .lt
  | _ :: _, [] => .gt
  | x :: xs, y :: ys => if x < y then .lt else if y < x then .gt else order xs ys

theorem order_text (s t : List Char) :
    Value.orderText s t = order (s.map Char.toNat) (t.map Char.toNat) := by
  induction s generalizing t with
  | nil => cases t <;> rfl
  | cons a s ih =>
    cases t with
    | nil => rfl
    | cons b t =>
      have hlt (a b : Char) : a < b ↔ a.toNat < b.toNat := Iff.rfl
      simp only [Value.orderText, order, List.map_cons, ih, hlt]

theorem order_bytes (as bs : List UInt8) :
    Value.orderBytes as bs = order (as.map UInt8.toNat) (bs.map UInt8.toNat) := by
  induction as generalizing bs with
  | nil => cases bs <;> rfl
  | cons a as ih =>
    cases bs with
    | nil => rfl
    | cons b bs => simp only [Value.orderBytes, order, List.map_cons, ih, UInt8.lt_iff_toNat_lt]

theorem order_eq_eq {xs ys : List Nat} : order xs ys = .eq ↔ xs = ys := by
  induction xs generalizing ys with
  | nil => cases ys <;> simp [order]
  | cons x xs ih =>
    cases ys with
    | nil => simp [order]
    | cons y ys =>
      simp only [order]
      split
      · simp; omega
      · split
        · simp; omega
        · simp [ih]; omega

/-- **Beginnings** of one length are equal or have the order of the whole. -/
theorem order_take (width : Nat) (xs ys : List Nat) :
    xs.take width = ys.take width ∨ order (xs.take width) (ys.take width) = order xs ys := by
  induction width generalizing xs ys with
  | zero => exact Or.inl (by simp)
  | succ width ih =>
    cases xs with
    | nil => cases ys <;> exact Or.inr rfl
    | cons x xs =>
      cases ys with
      | nil => exact Or.inr rfl
      | cons y ys =>
        simp only [List.take_succ_cons, order]
        by_cases hxy : x = y
        · subst hxy
          simpa using ih xs ys
        · -- the first numbers differ and decide both orders
          right
          split
          · rfl
          · rw [if_pos (by omega), if_pos (by omega)]

end Codes

namespace Value

/-- The numbers that a text or bytes are made of. -/
def codes : Value → List Nat
  | .text s => s.toList.map Char.toNat
  | .bytes bs => bs.map UInt8.toNat
  | _ => []

end Value

/-- Whether the values of a type are texts or bytes of any length. -/
def Primitive.isSequence (p : Primitive) : Bool := p = .string || p = .binary

/-- The truth of a comparison of two sequences. -/
def Comparison.holdsCodes : Comparison → List Nat → List Nat → Bool
  | .equal, xs, ys => xs = ys
  | .notEqual, xs, ys => xs ≠ ys
  | .less, xs, ys => Codes.order xs ys = .lt
  | .lessOrEqual, xs, ys => Codes.order xs ys ≠ .gt
  | .greater, xs, ys => Codes.order xs ys = .gt
  | .greaterOrEqual, xs, ys => Codes.order xs ys ≠ .lt
  | .startsWith, xs, ys => ys <+: xs
  | .notStartsWith, xs, ys => ¬ ys <+: xs

variable {q : Primitive} {v w : Value}

/-- Values of a type of sequences are two texts or two sequences of bytes. -/
theorem Primitive.sequence_cases (hq : q.isSequence = true) (hv : q.hasKind v = true)
    (hw : q.hasKind w = true) :
    (∃ s t, v = .text s ∧ w = .text t) ∨ ∃ as bs, v = .bytes as ∧ w = .bytes bs := by
  cases q <;> simp [isSequence] at hq
  · cases v <;> simp [hasKind] at hv
    cases w <;> simp [hasKind] at hw
    exact Or.inl ⟨_, _, rfl, rfl⟩
  · cases v <;> simp [hasKind] at hv
    cases w <;> simp [hasKind] at hw
    exact Or.inr ⟨_, _, rfl, rfl⟩

/-- The codes tell two texts apart. -/
theorem Codes.text_inj (s t : String) :
    s.toList.map Char.toNat = t.toList.map Char.toNat ↔ s = t := by
  rw [List.map_inj_right fun _ _ h => Char.toNat_inj.mp h, String.toList_inj]

/-- The codes tell two sequences of bytes apart. -/
theorem Codes.bytes_inj (as bs : List UInt8) :
    as.map UInt8.toNat = bs.map UInt8.toNat ↔ as = bs :=
  List.map_inj_right fun _ _ h => UInt8.toNat_inj.mp h

/-- Sequences have one key if they have the same codes. -/
theorem Value.sameKey_iff_codes (hq : q.isSequence = true) (hv : q.hasKind v = true)
    (hw : q.hasKind w = true) : v.SameKey w ↔ v.codes = w.codes := by
  rcases Primitive.sequence_cases hq hv hw with ⟨s, t, rfl, rfl⟩ | ⟨as, bs, rfl, rfl⟩
  · simp [SameKey, key?, codes, Codes.text_inj, eq_comm]
  · simp [SameKey, key?, codes, Codes.bytes_inj, eq_comm]

/-- **Comparisons of sequences.** -/
theorem Predicate.testCompare_codes (op : Comparison) (hq : q.isSequence = true)
    (hv : q.hasKind v = true) (hw : q.hasKind w = true) :
    testCompare op v w = .ok (op.holdsCodes v.codes w.codes) := by
  have hnull (outcome : Except Fault Bool) : unlessNull v outcome = outcome := by
    rcases Primitive.sequence_cases hq hv hv with ⟨s, _, rfl, _⟩ | ⟨as, _, rfl, _⟩ <;> rfl
  -- Texts and bytes are compared by their codes, which determine them.
  have heq : v.eq w = .ok (v.codes = w.codes : Bool) := by
    rcases Primitive.sequence_cases hq hv hw with ⟨s, t, rfl, rfl⟩ | ⟨as, bs, rfl, rfl⟩
    · simp only [Value.eq, Value.codes, Codes.text_inj]
    · simp only [Value.eq, Value.codes, Codes.bytes_inj]
  have horder : v.order w = .ok (some (Codes.order v.codes w.codes)) := by
    rcases Primitive.sequence_cases hq hv hw with ⟨s, t, rfl, rfl⟩ | ⟨as, bs, rfl, rfl⟩
    · simp [Value.order, Value.codes, Codes.order_text]
    · simp [Value.order, Value.codes, Codes.order_bytes]
  have hprefix : v.startsWith w = .ok (w.codes <+: v.codes : Bool) := by
    rcases Primitive.sequence_cases hq hv hw with ⟨s, t, rfl, rfl⟩ | ⟨as, bs, rfl, rfl⟩
    · refine congrArg Except.ok (Bool.eq_iff_iff.mpr ?_)
      rw [List.isPrefixOf_iff_prefix, decide_eq_true_eq]
      exact (List.prefix_map_iff_of_injective fun _ _ h => Char.toNat_inj.mp h).symm
    · refine congrArg Except.ok (Bool.eq_iff_iff.mpr ?_)
      rw [List.isPrefixOf_iff_prefix, decide_eq_true_eq]
      exact (List.prefix_map_iff_of_injective fun _ _ h => UInt8.toNat_inj.mp h).symm
  cases op <;>
    simp only [testCompare, hnull, heq, hprefix, Value.less, Value.lessOrEqual, Value.greater,
      Value.greaterOrEqual, horder, Outcome.map_ok, Comparison.holdsCodes, Except.ok.injEq]
  case notEqual | notStartsWith => simp
  all_goals cases Codes.order v.codes w.codes <;> rfl

/-! ## Comparisons of beginnings -/

namespace Side

/-- How a comparison with a sequence is projected, given the order of its length and the width of the
beginnings. -/
def prefix? : Side → Comparison → Ordering → Option Comparison
  | .strict, .less, _ | .strict, .lessOrEqual, _ => some .less
  | .strict, .greater, _ | .strict, .greaterOrEqual, _ => some .greater
  | .strict, .notEqual, _ => some .notEqual
  | .strict, .startsWith, .lt => some .startsWith
  | .strict, .startsWith, .eq => some .equal
  | .strict, .notStartsWith, .eq => some .notEqual
  | .strict, .notStartsWith, _ => some .notStartsWith
  | .inclusive, .less, _ | .inclusive, .lessOrEqual, _ => some .lessOrEqual
  | .inclusive, .greater, _ | .inclusive, .greaterOrEqual, _ => some .greaterOrEqual
  | .inclusive, .equal, _ => some .equal
  | .inclusive, .startsWith, _ => some .startsWith
  | .inclusive, .notStartsWith, .lt => some .notStartsWith
  | .inclusive, .notStartsWith, .eq => some .notEqual
  | _, _, _ => none

variable {side : Side} {op op' : Comparison} {xs ys : List Nat} {width : Nat}

theorem prefix_ofNull {o : Ordering} (h : side.prefix? op o = some op') : op'.ofNull = op.ofNull := by
  cases side <;> cases op <;> cases o <;> simp [prefix?] at h <;> subst h <;> rfl

/-- **Comparisons of beginnings are sound.** If the comparison of the beginnings decides, then that of
the whole sequences has the same outcome. -/
theorem prefix_sound (h : side.prefix? op (compare ys.length width) = some op')
    (ht : op'.holdsCodes (xs.take width) (ys.take width) = side.decides) :
    op.holdsCodes xs ys = side.decides := by
  cases op with
  | less | lessOrEqual | greater | greaterOrEqual =>
    have horder := Codes.order_take width xs ys
    rw [← Codes.order_eq_eq] at horder
    rcases horder with heq | heq
    · -- equal beginnings decide nothing
      cases side <;> obtain rfl := Option.some.inj h <;>
        simp [Comparison.holdsCodes, decides, heq] at ht
    · -- other beginnings have the order of the whole
      cases side <;> obtain rfl := Option.some.inj h <;>
        simp only [Comparison.holdsCodes, decides, decide_eq_true_eq, decide_eq_false_iff_not,
          not_not, heq] at ht ⊢ <;>
        simp [ht]
  | equal | notEqual =>
    have htake : xs = ys → xs.take width = ys.take width := congrArg _
    cases side <;> simp only [prefix?, reduceCtorEq, Option.some.injEq] at h
    all_goals
      subst h
      simp only [Comparison.holdsCodes, decides, decide_eq_true_eq, decide_eq_false_iff_not] at ht ⊢
      exact fun heq => ht (htake heq)
  | startsWith | notStartsWith =>
    rcases Nat.lt_trichotomy ys.length width with hlength | hlength | hlength
    · -- the shorter sequence is kept as a whole
      have hself : ys.take width = ys := List.take_of_length_le hlength.le
      have hiff : ys <+: xs.take width ↔ ys <+: xs := by
        rw [List.prefix_take_iff, and_iff_left hlength.le]
      rw [Nat.compare_eq_lt.mpr hlength] at h
      cases side <;> obtain rfl := Option.some.inj h <;>
        simpa only [Comparison.holdsCodes, hself, hiff] using ht
    · -- a sequence as long as the beginnings is the beginning or not
      have hself : ys.take width = ys := List.take_of_length_le hlength.le
      have hwhole : ys <+: xs ↔ xs.take width = ys := by
        rw [List.prefix_iff_eq_take, hlength]
        exact eq_comm
      have hiff : ys <+: xs.take width ↔ xs.take width = ys := by
        rw [List.prefix_take_iff, and_iff_left hlength.le, hwhole]
      rw [Nat.compare_eq_eq.mpr hlength] at h
      cases side <;> obtain rfl := Option.some.inj h <;>
        simpa only [Comparison.holdsCodes, hself, hwhole, hiff, ne_eq] using ht
    · -- of a longer one only its own beginning is looked at
      have htake : ys <+: xs → ys.take width <+: xs.take width := fun hprefix => by
        rw [List.prefix_take_iff]
        exact ⟨(List.take_prefix width ys).trans hprefix, by simp⟩
      rw [Nat.compare_eq_gt.mpr hlength] at h
      cases side <;> simp only [prefix?, reduceCtorEq, Option.some.injEq] at h
      all_goals
        subst h
        simp only [Comparison.holdsCodes, decides, decide_eq_true_eq, decide_eq_false_iff_not] at ht ⊢
        exact fun hprefix => ht (htake hprefix)

end Side

/-! ## Truncated sequences -/

/-- The beginning of a text or of bytes has the beginning of the codes. -/
theorem TruncateForm.cutSequence_inv {width : Nat} (hq : q.isSequence = true)
    (hv : q.hasKind v = true) (h : cutSequence width v = .ok w) :
    q.hasKind w = true ∧ w.codes = v.codes.take width := by
  cases q <;> simp [Primitive.isSequence] at hq
  · cases v <;> simp [Primitive.hasKind] at hv
    obtain rfl := Except.ok.inj h
    exact ⟨rfl, by simp [Value.codes]⟩
  · cases v <;> simp [Primitive.hasKind] at hv
    obtain rfl := Except.ok.inj h
    exact ⟨rfl, by simp [Value.codes]⟩

/-- The length of a sequence is that of its codes. -/
theorem Projection.lengthOrder_eq {l : Literal} (width : Nat) (hq : q.isSequence = true)
    (hl : q.hasKind l.value = true) :
    lengthOrder l width = Ord.compare l.value.codes.length width := by
  rcases Primitive.sequence_cases hq hl hl with ⟨s, _, hs, _⟩ | ⟨as, _, has, _⟩
  · simp [lengthOrder, hs, Value.codes, ← String.length_toList]
  · simp [lengthOrder, has, Value.codes]

namespace Transform

variable {width : Nat} {d : Column} {a : Value} {name : String} {p : Predicate Column}

theorem function_beginning (width : Nat) (hq : q.isSequence = true) :
    (truncate width).function (.primitive q) =
      .ok (Value.unlessNull (TruncateForm.cutSequence width)) := by
  cases q <;> simp [Primitive.isSequence] at hq <;> rfl

theorem truncateForm?_of_isSequence (hq : q.isSequence = true) :
    (DataType.primitive q).truncateForm? = some .sequence := by
  cases q <;> simp [Primitive.isSequence] at hq <;> rfl

/-- The beginning of a value that is not null. -/
theorem apply_beginning_inv (hq : q.isSequence = true) (hv : q.hasKind v = true)
    (h : (truncate width).apply (.primitive q) v = .ok a) :
    q.hasKind a = true ∧ a.codes = v.codes.take width := by
  have hnull : v.isNull = false := by
    rcases Primitive.sequence_cases hq hv hv with ⟨s, _, rfl, _⟩ | ⟨as, _, rfl, _⟩ <;> rfl
  rw [apply, function_beginning width hq, Outcome.ok_bind, Value.unlessNull, hnull] at h
  exact TruncateForm.cutSequence_inv hq hv h

/-- The literal of the beginning of a converted literal is a converted literal too. -/
theorem transformed_beginning (width : Nat) {l : Literal} (hq : q.isSequence = true)
    (hl : Literal.IsConverted q l) :
    ∃ u, l.transformed (Value.unlessNull (TruncateForm.cutSequence width)) = .ok u ∧
      u.convert (.primitive q) = .ok u ∧ u.isMark = false ∧ q.hasKind u.value = true ∧
      u.value.codes = l.value.codes.take width ∧ (l.value.codes.length ≤ width → u = l) := by
  cases q <;> simp [Primitive.isSequence] at hq
  · obtain ⟨s, rfl⟩ := hl
    refine ⟨.string (String.ofList (s.toList.take width)), rfl, rfl, rfl, rfl,
      by simp [Literal.value, Value.codes], fun hlength => ?_⟩
    rw [List.take_of_length_le (by simpa [Literal.value, Value.codes] using hlength),
      String.ofList_toList]
  · obtain ⟨bs, rfl⟩ := hl
    refine ⟨.binary (bs.take width), rfl, rfl, rfl, rfl, by simp [Literal.value, Value.codes],
      fun hlength => ?_⟩
    rw [List.take_of_length_le (by simpa [Literal.value, Value.codes] using hlength)]

/-- **Beginnings** keep keys. -/
theorem keepsKey_beginning {l : Literal} (hq : q.isSequence = true)
    (hd : d.field.type = .primitive q) (hv : v.isNull = true ∨ q.hasKind v = true)
    (hl : Literal.IsConverted q l) (ha : (truncate width).apply (.primitive q) v = .ok a) :
    Projection.KeepsKey (Value.unlessNull (TruncateForm.cutSequence width)) d v a l := by
  obtain ⟨u₀, hu₀, hconvert, hmark, hkind, hcodes, _⟩ :=
    transformed_beginning width hq hl
  constructor
  · intro u u' hu hu'
    obtain rfl : u₀ = u := by simpa using hu₀.symm.trans hu
    rw [hd] at hu'
    obtain rfl : u₀ = u' := by simpa using hconvert.symm.trans hu'
    exact ⟨hmark, rfl⟩
  · intro u hu hsame
    obtain rfl : u₀ = u := by simpa using hu₀.symm.trans hu
    -- Null has no key, so nothing is asked of it.
    rcases hv with hnull | hv
    · rw [Value.eq_null_of_isNull hnull] at hsame
      exact absurd hsame (Value.not_sameKey_null _)
    · have hlit := Literal.hasKind_of_isConverted hl
      obtain ⟨hakind, hacodes⟩ := apply_beginning_inv hq hv ha
      rw [Value.sameKey_iff_codes hq hakind hkind, hacodes, hcodes,
        (Value.sameKey_iff_codes hq hv hlit).mp hsame]

/-- The projection of a comparison with a sequence to one of beginnings. -/
def ofPrefix (side : Side) (name : String) (width : Nat) (op : Comparison) (l : Literal) :
    Projection :=
  match side.prefix? op (compare l.value.codes.length width) with
  | some op' =>
    Projection.compare op' name (l.transformed (Value.unlessNull (TruncateForm.cutSequence width)))
  | none => Projection.nothing

/-- The projections of a comparison with a converted literal. -/
theorem ofSequence_eq {l : Literal} (width : Nat) (name : String) (op : Comparison)
    (hq : q.isSequence = true) (hl : Literal.IsConverted q l) :
    Projection.ofSequenceStrict name (Value.unlessNull (TruncateForm.cutSequence width)) width op l =
        ofPrefix .strict name width op l ∧
      Projection.ofSequence name (Value.unlessNull (TruncateForm.cutSequence width)) width op l =
        ofPrefix .inclusive name width op l := by
  obtain ⟨u, hu, _, _, _, _, hshort⟩ := transformed_beginning width hq hl
  have hlength := Projection.lengthOrder_eq width hq (Literal.hasKind_of_isConverted hl)
  unfold ofPrefix
  cases op with
  | startsWith | notStartsWith =>
    simp only [Projection.ofSequenceStrict, Projection.ofSequence, Projection.ofBeginning, hlength]
    cases horder : compare l.value.codes.length width with
    | lt =>
      -- a literal that is kept as a whole is its own beginning
      rw [hu, hshort (Nat.compare_eq_lt.mp horder).le]
      exact ⟨rfl, rfl⟩
    | eq =>
      rw [hu, hshort (Nat.compare_eq_eq.mp horder).le]
      exact ⟨rfl, rfl⟩
    | gt => exact ⟨rfl, rfl⟩
  | _ => exact ⟨rfl, rfl⟩

/-- The projections to beginnings. -/
theorem projection_beginning (width : Nat) (hp : p.term.field.type = .primitive q)
    (hq : q.isSequence = true) (hlits : ∀ l ∈ p.literals, Literal.IsConverted q l) (side : Side)
    (name : String) :
    (truncate width).projection side name p =
      Projection.shaped side name (Value.unlessNull (TruncateForm.cutSequence width))
        (ofPrefix side name width) p := by
  have hf := function_beginning width hq
  have hform := truncateForm?_of_isSequence hq
  -- Each comparison has a branch of its own in the projection and a line in the table of prefixes.
  cases p with
  | unary op c => cases side <;> rfl
  | compare op c l =>
    obtain ⟨hstrict, hinclusive⟩ :=
      ofSequence_eq width name op hq (hlits l (List.mem_singleton.mpr rfl))
    cases side <;>
      simp only [projection, project, strictProject, projectTruncate, strictTruncate, sourceOf, hp,
        hf, hform, Outcome.ok_bind]
    · exact hstrict
    · exact hinclusive
  | member op c ls =>
    cases side <;> cases op <;>
      simp only [projection, project, strictProject, projectTruncate, strictTruncate, sourceOf, hp,
        hf, Outcome.ok_bind] <;>
      rfl

/-- The outcome of a projected comparison is that of the beginnings, or that of a null. -/
theorem ofPrefix_inv {side : Side} {op : Comparison} {l : Literal} {e : Expr (Predicate String)}
    {t : Bool} (hq : q.isSequence = true) (hd : d.field.type = .primitive q)
    (hl : Literal.IsConverted q l) (ha : (truncate width).apply (.primitive q) v = .ok a)
    (he : ofPrefix side name width op l = .ok (some e))
    (ht : Expr.evaluate (Predicate.outcome d a) e = .ok t) :
    ∃ op', side.prefix? op (compare l.value.codes.length width) = some op' ∧
      (v.isNull = true → t = op'.ofNull) ∧
      (q.hasKind v = true →
        t = op'.holdsCodes (v.codes.take width) (l.value.codes.take width)) := by
  unfold ofPrefix at he
  -- Whether the literal is shorter, as long or longer decides what can be asked of prefixes.
  cases htable : side.prefix? op (compare l.value.codes.length width) with
  | none => simp [htable, Projection.nothing] at he
  | some op' =>
    rw [htable] at he
    obtain ⟨u, hu, hconvert, hmark, hkind, hcodes, _⟩ :=
      transformed_beginning width hq hl
    obtain rfl : Expr.leaf (.compare op' name u) = e := by
      simpa [Projection.compare, hu] using he
    rw [← hd] at hconvert
    have htest : Predicate.testCompare op' a u.value = .ok t :=
      (Predicate.outcome_compare hconvert hmark).symm.trans ht
    refine ⟨op', rfl, fun hnull => ?_, fun hv => ?_⟩
    · rw [Value.eq_null_of_isNull hnull] at ha
      rw [apply_null ha, Predicate.testCompare_null op' u.isNull_value] at htest
      exact (Except.ok.inj htest).symm
    · obtain ⟨hakind, hacodes⟩ := apply_beginning_inv hq hv ha
      rw [Predicate.testCompare_codes op' hq hakind hkind, hacodes, hcodes] at htest
      exact (Except.ok.inj htest).symm

/-- **Beginnings are sound.** -/
theorem soundFor_beginning (hq : q.isSequence = true) (hp : p.term.field.type = .primitive q)
    (hd : d.field.type = .primitive q) (hreq : d.field.required = false)
    (hv : v.isNull = true ∨ q.hasKind v = true)
    (hlits : ∀ l ∈ p.literals, Literal.IsConverted q l)
    (ha : (truncate width).apply (.primitive q) v = .ok a) :
    (truncate width).SoundFor name p d v a := by
  have hkeys := fun l hl => keepsKey_beginning hq hd hv (hlits l hl) ha
  have hunary : a.isNull = v.isNull ∧ a.isNaN = .ok false ∧ v.isNaN = .ok false := by
    rcases hv with hnull | hv
    · rw [Value.eq_null_of_isNull hnull] at ha ⊢
      rw [apply_null ha]
      exact ⟨rfl, rfl, rfl⟩
    · have hakind := (apply_beginning_inv hq hv ha).1
      rcases Primitive.sequence_cases hq hakind hv with ⟨s, t, rfl, rfl⟩ | ⟨as, bs, rfl, rfl⟩ <;>
        exact ⟨rfl, rfl, rfl⟩
  have hshape := fun side => projection_beginning width hp hq hlits side name
  refine Projection.soundFor_shaped hshape hreq hunary hkeys fun side op l e b hl he ht hb => ?_
  obtain ⟨op', hop, hnull, hcodes⟩ := ofPrefix_inv hq hd (hlits l hl) ha he ht
  -- On null a comparison and its projection are false together.
  rcases hv with hv | hv
  · rw [Value.eq_null_of_isNull hv, Predicate.testCompare_null op l.isNull_value] at hb
    rw [← Except.ok.inj hb, ← Side.prefix_ofNull hop, ← hnull hv]
  · have hlit := Literal.hasKind_of_isConverted (hlits l hl)
    rw [Predicate.testCompare_codes op hq hv hlit] at hb
    rw [← Except.ok.inj hb]
    exact Side.prefix_sound hop (hcodes hv).symm

end Transform

end PartitionPruning
