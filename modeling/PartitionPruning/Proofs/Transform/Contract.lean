import PartitionPruning.Proofs.Filter.Membership
import PartitionPruning.Proofs.Residual.Decision
import PartitionPruning.Proofs.Transform.Permission
import PartitionPruning.Proofs.Transform.Soundness

/-!
# The contract of projections

A residual evaluator binds a projection to the columns of the partition values and evaluates it on a
partition. If the strict projection is true there, the predicate has to be true of the row value, and if
the inclusive projection is false, the predicate has to be false (`ResidualEvaluator.Honours`).

* **`reads_of_make`** — the partition values that an evaluator reads.
* **`honours_iff`** — the contract, in terms of the value of the partition field.
* **`honours_of_soundFor`** — sound projections honour it if the predicate has an outcome.
* **`honours_ofMoved_iff`**, **`honours_member_found_iff`** — the contract for comparisons with a number and
  for tests of membership.
-/

namespace PartitionPruning

open Outcome

/-- A predicate whose literals are of the type of its column has an outcome for a value of the type, but
for tests of the beginning of what has none. -/
theorem Predicate.succeeds_test {q : Primitive} {p : Predicate Column} {v : Value}
    (hv : q.mayHold v)
    (hlits : ∀ l ∈ p.literals, q.hasKind l.value = true ∧ l.value.isUnordered = false)
    (hbeginning : ∀ op c l, p = .compare op c l → op.isBeginning = true →
      v.isNull = true ∨ q.hasBeginnings = true) : Succeeds (p.test v) := by
  cases p with
  | unary op c => exact succeeds_testUnary hv
  | compare op c l =>
    obtain ⟨hkind, hordered⟩ := hlits l (List.mem_singleton.mpr rfl)
    exact (succeeds_testCompare hv hkind hordered).mpr (hbeginning op c l rfl)
  | member op c ls => exact succeeds_testMember hv

/-- A predicate that was bound to a column has literals of the type of the column. -/
theorem Predicate.isConverted_of_bind {schema : Schema} {caseSensitive : Bool} {u : Predicate String}
    {p : Predicate Column} {q : Primitive} (hbind : u.bind schema caseSensitive = .ok (.leaf p))
    (hp : p.term.field.type = .primitive q) : ∀ l ∈ p.literals, Literal.IsConverted q l := by
  obtain ⟨_, hconstant⟩ | ⟨p', hp', _, hconverted⟩ := bind_inv hbind
  · simp at hconstant
  · obtain rfl := Expr.leaf.inj hp'
    intro l hl
    obtain ⟨_, _, hconvert⟩ := hconverted l hl
    exact Literal.isConverted_of_convert (hp ▸ hconvert)

/-- **What a projected test of membership finds**: a literal that is transformed, and converted to the type
of the partition field, to the key of the partition value. -/
theorem Predicate.outcome_member_inv {d : Column} {a : Value} {op : Membership} {name : String}
    {f : Value → Except Fault Value} {ls : List Literal} {e : Expr (Predicate String)} {t : Bool}
    (he : Projection.member op name f ls = .ok (some e))
    (ht : Expr.evaluate (outcome d a) e = .ok t) :
    ∃ b, t = op.outcome b ∧ (b = true → ∃ l ∈ ls, ∃ u u', l.transformed f = .ok u ∧
      u.convert d.field.type = .ok u' ∧ a.SameKey u'.value) := by
  obtain ⟨ts, hts, hmember⟩ := bind_eq_ok.mp he
  obtain ⟨e', hsetOf, heq⟩ := map_eq_ok.mp hmember
  obtain rfl : e' = e := by simpa using heq
  obtain ⟨set, hset, rfl⟩ := map_eq_ok.mp hsetOf
  obtain ⟨b, rfl, hiff⟩ := outcome_ofSet_iff ht
  refine ⟨b, rfl, fun hb => ?_⟩
  obtain ⟨u, hu, u', hu', hsame, _⟩ := hiff.mp hb
  obtain ⟨l, hl, hlu⟩ := exists_of_mem_result hts
    (Literal.mem_of_mem_toSet hset (Literal.mem_relisted.mp hu))
  exact ⟨l, hl, u, u', hlu, hu', hsame⟩

namespace ResidualEvaluator

variable {r : ResidualEvaluator} {t : Transform} {name : String} {p : Predicate Column} {d : Column}
variable {partition a v : Value}

/-- **Partition values.** What an evaluator reads under the name of a partition field, and from which
column; partition fields are optional. -/
structure Reads (r : ResidualEvaluator) (name : String) (d : Column) (partition a : Value) :
    Prop where
  column : r.partitionSchema.column r.caseSensitive name = .ok d
  optional : d.field.required = false
  value : d.accessor.get partition = .ok a

/-- **The contract of projections** for a row value and its partition: what a projection decides is the
outcome of the predicate. -/
def Honours (r : ResidualEvaluator) (t : Transform) (name : String) (p : Predicate Column)
    (partition v : Value) : Prop :=
  ∀ side e, t.projection side name p = .ok (some e) →
    r.evaluate partition e = .ok side.decides → p.test v = .ok side.decides

/-- The partition field at a position is read from that position. -/
theorem reads_of_make {spec : PartitionSpec} {filter : Filter} {caseSensitive : Bool}
    {schema : Schema} (hpart : spec.isUnpartitioned = false)
    (hmake : make spec filter caseSensitive schema = .ok r)
    (hspec : spec.IsUnambiguous caseSensitive) (hsources : spec.HasPrimitiveSources schema)
    {i : Nat} {f : PartitionField} (hf : spec.fields[i]? = some f) (ha : partition.at i = .ok a) :
    ∃ s, schema.fieldWithId (.number f.sourceId) = .ok s ∧
      r.Reads f.name (partitionColumn f s.type i) partition a := by
  obtain ⟨s, hs, _, hcolumn⟩ := column_of_make hpart hmake hspec hsources hf
  exact ⟨s, hs, hcolumn, rfl, get_partitionColumn f s.type i ha⟩

/-- The only partition field is read from the first position. -/
theorem reads_of_single {spec : PartitionSpec} {filter : Filter} {caseSensitive : Bool}
    {schema : Schema} {f : PartitionField} {g : Field} {q : Primitive} (hspec : spec.fields = [f])
    (hmake : make spec filter caseSensitive schema = .ok r)
    (hg : schema.fieldWithId (.number f.sourceId) = .ok g) (hq : g.type = .primitive q)
    (ha : partition.at 0 = .ok a) : r.Reads f.name (partitionColumn f g.type 0) partition a := by
  have hpart : spec.isUnpartitioned = false := by simp [PartitionSpec.isUnpartitioned, hspec]
  have hsources : spec.HasPrimitiveSources schema := by
    intro f' hf' g' hg'
    obtain rfl : f' = f := by simpa [hspec] using hf'
    obtain rfl := Except.ok.inj (hg.symm.trans hg')
    exact ⟨q, hq⟩
  have hfirst : spec.fields[0]? = some f := by simp [hspec]
  obtain ⟨g', hg', hreads⟩ :=
    reads_of_make hpart hmake (isUnambiguous_of_single hspec) hsources hfirst ha
  obtain rfl := Except.ok.inj (hg.symm.trans hg')
  exact hreads

/-- Every value can be read from a partition, in a column of every type. -/
theorem exists_reads (q : Primitive) (a : Value) :
    ∃ (r : ResidualEvaluator) (name : String) (d : Column) (partition : Value),
      r.Reads name d partition a ∧ d.field.type = .primitive q := by
  let g : Field := ⟨0, "part", .primitive q, false, none⟩
  refine ⟨⟨Schema.ofFields [], ⟨0, []⟩, .constant true, true, Schema.ofFields [g]⟩, "part",
    ⟨g, ⟨0, []⟩⟩, .record [a], ⟨?_, rfl, rfl⟩, rfl⟩
  have hflat : ∀ f ∈ [g], f.IsPrimitive := by
    intro f hf
    obtain rfl := List.mem_singleton.mp hf
    exact ⟨q, rfl⟩
  exact Schema.column_of_flat hflat (List.nodup_singleton _) (List.nodup_singleton _) (i := 0) rfl

/-- A projection is evaluated on the value of its partition field. -/
theorem evaluate_projection {side : Side} {e : Expr (Predicate String)}
    (hd : r.Reads name d partition a) (he : t.projection side name p = .ok (some e)) :
    r.evaluate partition e = Expr.evaluate (Predicate.outcome d a) e :=
  evaluate_eq_outcome hd.column hd.value (Transform.names_projection t side name p e he)

theorem honours_iff (hd : r.Reads name d partition a) :
    r.Honours t name p partition v ↔
      ∀ side e, t.projection side name p = .ok (some e) →
        Expr.evaluate (Predicate.outcome d a) e = .ok side.decides → p.test v = .ok side.decides := by
  unfold Honours
  constructor
  · intro h side e he ht
    exact h side e he ((evaluate_projection hd he).trans ht)
  · intro h side e he ht
    exact h side e he ((evaluate_projection hd he).symm.trans ht)

/-- **Sound projections** honour the contract. -/
theorem honours_of_soundFor (hd : r.Reads name d partition a) (hs : t.SoundFor name p d v a)
    (htest : Succeeds (p.test v)) : r.Honours t name p partition v := by
  rw [honours_iff hd]
  intro side e he ht
  obtain ⟨b, hb⟩ := htest
  rw [hb, hs side e b he ht hb]

/-- Tests of the value on its own are asked of the partition value as they are. -/
theorem honours_unary {op : UnaryTest} {c : Column} {q : Primitive} (hd : r.Reads name d partition a)
    (hshape : ∀ side, t.projection side name (.unary op c) = Projection.unary op name)
    (hmay : q.mayHold v) (hnull : a.isNull = v.isNull) (ha : a.isNaN = .ok false)
    (hv : v.isNaN = .ok false) : r.Honours t name (.unary op c) partition v := by
  refine honours_of_soundFor hd (fun side e b he ht hb => ?_) (Predicate.succeeds_testUnary hmay)
  rw [hshape] at he
  exact Projection.sound_unary hd.optional hnull ha hv he ht hb

variable {f : Value → Except Fault Value} {c : Column}

/-- **Comparisons with a number**, bound by bound: what the bound decides is the outcome of the
comparison. -/
theorem honours_ofMoved_iff {op : Comparison} {l : Literal} {moved : Int → Literal}
    (hd : r.Reads name d partition a)
    (hshape : ∀ side, t.projection side name (.compare op c l) = Projection.ofMoved side name f op l)
    (hl : Projection.boundary l = .ok l)
    (hmoved : ∀ step, (l.moved step >>= Literal.transformed f) = .ok (moved step)) :
    r.Honours t name (.compare op c l) partition v ↔
      ∀ side op' step, Side.bound? side op = some (op', step) →
        Predicate.outcome d a (.compare op' name (moved step)) = .ok side.decides →
          Predicate.testCompare op v l.value = .ok side.decides := by
  -- The literal is its own boundary, so moving it is all that a projection does.
  have hproject (side : Side) : t.projection side name (.compare op c l) =
      .ok ((side.bound? op).map fun (op', step) => .leaf (.compare op' name (moved step))) := by
    rw [hshape, Projection.ofMoved, hl, ok_bind]
    cases side.bound? op with
    | none => rfl
    | some bound => simp only [Projection.compare, hmoved, map_ok, Option.map_some]
  rw [honours_iff hd]
  simp only [hproject, Except.ok.injEq, Option.map_eq_some_iff]
  constructor
  · intro h side op' step hop ht
    exact h side _ ⟨_, hop, rfl⟩ ht
  · rintro h side e ⟨⟨op', step⟩, hop, rfl⟩ ht
    exact h side op' step hop ht

/-- **Tests of membership**: where nothing is found, nothing is there. -/
theorem honours_member_iff {op : Membership} {ls : List Literal} (hd : r.Reads name d partition a)
    (hshape : ∀ side, t.projection side name (.member op c ls) =
      if op = side.membership then Projection.member op name f ls else Projection.nothing) :
    r.Honours t name (.member op c ls) partition v ↔
      ∀ e, Projection.member op name f ls = .ok (some e) →
        Expr.evaluate (Predicate.outcome d a) e = .ok (op.outcome false) →
          Predicate.testMember op v (ls.map Literal.value) = .ok (op.outcome false) := by
  -- Each side projects one of the two kinds of membership, and decides what that kind says of a
  -- stranger.
  have hdecides (side : Side) : side.decides = side.membership.outcome false := by
    simp [Side.outcome_membership]
  rw [honours_iff hd]
  simp only [hshape]
  constructor
  · intro h e he ht
    obtain ⟨side, rfl⟩ := Side.exists_membership op
    rw [← hdecides] at ht ⊢
    exact h side e (by rw [if_pos rfl, he]) ht
  · intro h side e he ht
    split at he
    · rename_i hop
      subst hop
      rw [hdecides] at ht ⊢
      exact h e he ht
    · simp [Projection.nothing] at he

/-- **Tests of membership, as a search.** Where the projection can be asked, the contract is that the
partition value is found if the row value is among the literals. -/
theorem honours_member_found_iff {op : Membership} {ls : List Literal}
    (hd : r.Reads name d partition a)
    (hshape : ∀ side, t.projection side name (.member op c ls) =
      if op = side.membership then Projection.member op name f ls else Projection.nothing)
    (htest : Succeeds (Predicate.testMember op v (ls.map Literal.value)))
    (hanswers : (Projection.member op name f ls).Answers d a) :
    r.Honours t name (.member op c ls) partition v ↔
      ((∃ l ∈ ls, v.SameKey l.value) →
        ∃ e, Projection.member op name f ls = .ok (some e) ∧
          Expr.evaluate (Predicate.outcome d a) e = .ok (op.outcome true)) := by
  obtain ⟨_, hs⟩ := htest
  obtain ⟨b, rfl, hmem⟩ := Predicate.testMember_eq_ok hs
  rw [honours_member_iff hd hshape, hs]
  constructor
  · intro h hn
    obtain ⟨e, he, _, hout⟩ := Projection.exists_of_answers_member hanswers
    obtain ⟨found, rfl, _⟩ := Predicate.outcome_member_inv he hout
    refine ⟨e, he, ?_⟩
    cases found with
    | true => exact hout
    | false =>
      -- nothing is found, and so nothing should be there
      have heq := h e he hout
      rw [hmem.mpr hn] at heq
      exact absurd (Membership.outcome_inj (Except.ok.inj heq)) (by simp)
  · intro h e he hout
    cases b with
    | false => rfl
    | true =>
      obtain ⟨e', he', hfound⟩ := h (hmem.mp rfl)
      obtain rfl : e' = e := by simpa using he'.symm.trans he
      exact absurd (Membership.outcome_inj (Except.ok.inj (hfound.symm.trans hout))) (by simp)

end ResidualEvaluator

end PartitionPruning
