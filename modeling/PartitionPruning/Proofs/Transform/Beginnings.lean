import PartitionPruning.Proofs.Transform.Contract
import PartitionPruning.Proofs.Transform.Sequences

/-!
# The contract of projections to beginnings

A predicate that was bound to a column of texts or bytes has an outcome for every value of the column,
and its projections to the beginnings of a width honour the contract. A test for a beginning that is not
longer than the width loses nothing: it has both projections, and each has the outcome of the predicate.

* **`prefix_exact`** — a test for a short beginning, on sequences.
* **`evaluate_beginning`** — the projections of such a test.
* **`honours_truncate_sequence`** — the contract for every bound predicate.
-/

namespace PartitionPruning

open Outcome

/-- **Short beginnings.** Whether a sequence starts with one that is not longer than a width can be told
from the beginning of that width. -/
theorem Side.prefix_exact (side : Side) {op : Comparison} (xs : List Nat) {ys : List Nat} {width : Nat}
    (hop : op.isBeginning = true) (hlength : ys.length ≤ width) :
    ∃ op', side.prefix? op (compare ys.length width) = some op' ∧
      op'.holdsCodes (xs.take width) (ys.take width) = op.holdsCodes xs ys := by
  have hself : ys.take width = ys := List.take_of_length_le hlength
  have hprefix : ys <+: xs.take width ↔ ys <+: xs := by
    rw [List.prefix_take_iff, and_iff_left hlength]
  rcases Nat.lt_or_eq_of_le hlength with hlt | heq
  · rw [Nat.compare_eq_lt.mpr hlt]
    refine ⟨op, ?_, ?_⟩
    · cases side <;> cases op <;> simp [Comparison.isBeginning] at hop <;> rfl
    · cases op <;> simp [Comparison.isBeginning] at hop <;>
        simp [Comparison.holdsCodes, hself, hprefix]
  · -- the beginning is the sequence that is asked for, or it starts with another one
    have hwhole : xs.take width = ys ↔ ys <+: xs := by
      rw [List.prefix_iff_eq_take, heq]
      exact eq_comm
    rw [Nat.compare_eq_eq.mpr heq]
    cases side <;> cases op <;> simp [Comparison.isBeginning] at hop <;>
      exact ⟨_, rfl, by simp [Comparison.holdsCodes, hself, hwhole, hprefix]⟩

namespace Transform

variable {q : Primitive} {width : Nat} {v a : Value} {p : Predicate Column} {d : Column}
variable {name : String}

/-- **Values** of a type of sequences have beginnings. -/
theorem succeeds_apply_beginning (width : Nat) (hq : q.isSequence = true)
    (hv : v.isNull = true ∨ q.hasKind v = true) :
    ∃ a, (truncate width).apply (.primitive q) v = .ok a ∧ (v = .null → a = .null) ∧
      (∀ s, v = .text s → a = .text (String.ofList (s.toList.take width))) ∧
      ∀ bs, v = .bytes bs → a = .bytes (bs.take width) := by
  simp only [apply, function_beginning width hq, ok_bind, Value.unlessNull]
  rcases hv with hnull | hv
  · rw [Value.eq_null_of_isNull hnull]
    exact ⟨.null, rfl, fun _ => rfl, by simp, by simp⟩
  · rcases Primitive.sequence_cases hq hv hv with ⟨s, _, rfl, _⟩ | ⟨bs, _, rfl, _⟩
    · exact ⟨_, rfl, by simp, fun t ht => by obtain rfl := Value.text.inj ht; rfl, by simp⟩
    · exact ⟨_, rfl, by simp, by simp, fun cs hcs => by obtain rfl := Value.bytes.inj hcs; rfl⟩

/-- **Tests for short beginnings.** Both projections have the outcome of the test. -/
theorem evaluate_beginning {op : Comparison} {c : Column} {l : Literal} (side : Side) (name : String)
    (hq : q.isSequence = true) (hc : c.field.type = .primitive q)
    (hd : d.field.type = .primitive q) (hv : v.isNull = true ∨ q.hasKind v = true)
    (hl : Literal.IsConverted q l) (ha : (truncate width).apply (.primitive q) v = .ok a)
    (hop : op.isBeginning = true) (hlength : l.value.codes.length ≤ width) :
    ∃ e b, (truncate width).projection side name (.compare op c l) = .ok (some e) ∧
      Expr.evaluate (Predicate.outcome d a) e = .ok b ∧
      (Predicate.compare op c l).test v = .ok b := by
  have hlits : ∀ m ∈ (Predicate.compare op c l).literals, Literal.IsConverted q m := by
    intro m hm
    obtain rfl := List.mem_singleton.mp hm
    exact hl
  obtain ⟨u, hu, hconvert, hmark, hkind, hcodes, _⟩ := transformed_beginning width hq hl
  obtain ⟨op', hop', hexact⟩ := side.prefix_exact v.codes hop hlength
  -- the projection compares the partition value with the beginning of the literal
  have hproject : (truncate width).projection side name (.compare op c l) =
      .ok (some (.leaf (.compare op' name u))) := by
    rw [projection_beginning (p := .compare op c l) width hc hq hlits]
    simp only [Projection.shaped, ofPrefix, hop', Projection.compare, hu, map_ok]
  have houtcome : Predicate.outcome d a (.compare op' name u) =
      Predicate.testCompare op' a u.value := Predicate.outcome_compare (hd ▸ hconvert) hmark
  rcases hv with hnull | hv
  · obtain rfl := Value.eq_null_of_isNull hnull
    refine ⟨_, op.ofNull, hproject, houtcome.trans ?_,
      Predicate.testCompare_null op l.isNull_value⟩
    rw [apply_null ha, Predicate.testCompare_null op' u.isNull_value, Side.prefix_ofNull hop']
  · obtain ⟨hakind, hacodes⟩ := apply_beginning_inv hq hv ha
    refine ⟨_, op.holdsCodes v.codes l.value.codes, hproject, houtcome.trans ?_,
      Predicate.testCompare_codes op hq hv (Literal.hasKind_of_isConverted hl)⟩
    rw [Predicate.testCompare_codes op' hq hakind hkind, hacodes, hcodes, hexact]

end Transform

namespace ResidualEvaluator

/-- **The contract of beginnings.** Let a predicate be bound to a column of texts or of bytes. Each value
of the column, and a null, has a partition value under `truncate`: the characters or bytes that it begins
with. For every evaluator that reads this value, the projections of the predicate honour the contract. Of
a test for a beginning that is not longer than the width there are both projections, and either has the
outcome of the test. -/
theorem honours_truncate_sequence {schema : Schema} {caseSensitive : Bool} {u : Predicate String}
    {p : Predicate Column} {q : Primitive} {v : Value} (width : Nat)
    (hbind : u.bind schema caseSensitive = .ok (.leaf p)) (hp : p.term.field.type = .primitive q)
    (hq : q.isSequence = true) (hv : v = .null ∨ q.holds v = true) :
    ∃ a, (Transform.truncate width).apply (.primitive q) v = .ok a ∧ (v = .null → a = .null) ∧
      (∀ s, v = .text s → a = .text (String.ofList (s.toList.take width))) ∧
      (∀ bs, v = .bytes bs → a = .bytes (bs.take width)) ∧
      ∀ (r : ResidualEvaluator) (name : String) (d : Column) (partition : Value),
        r.Reads name d partition a →
        d.field.type = (Transform.truncate width).resultType (.primitive q) →
        r.Honours (.truncate width) name p partition v ∧
        ∀ op c l, p = .compare op c l → op.isBeginning = true → l.value.codes.length ≤ width →
          ∀ side, ∃ e b, (Transform.truncate width).projection side name p = .ok (some e) ∧
            r.evaluate partition e = .ok b ∧ p.test v = .ok b := by
  have hlits := Predicate.isConverted_of_bind hbind hp
  have hmay : q.mayHold v := by
    rcases hv with rfl | hholds
    · exact Or.inl rfl
    · exact Or.inr (Bool.and_eq_true_iff.mp hholds).1
  have hkind : v.isNull = true ∨ q.hasKind v = true :=
    hv.imp (congrArg Value.isNull) Primitive.hasKind_of_holds
  -- texts and bytes are ordered and have beginnings, so the predicate has an outcome
  have htest : Succeeds (p.test v) := by
    refine Predicate.succeeds_test hmay (fun l hl => ?_) fun _ _ _ _ _ => Or.inr ?_
    · have hlit := Literal.hasKind_of_isConverted (hlits l hl)
      refine ⟨hlit, ?_⟩
      rcases Primitive.sequence_cases hq hlit hlit with ⟨s, _, hs, _⟩ | ⟨bs, _, hbs, _⟩
      · rw [hs]
        rfl
      · rw [hbs]
        rfl
    · cases q <;> simp [Primitive.isSequence] at hq <;> rfl
  obtain ⟨a, ha, hnull, htext, hbytes⟩ := Transform.succeeds_apply_beginning width hq hkind
  refine ⟨a, ha, hnull, htext, hbytes, fun r name d partition hd htype => ⟨?_, ?_⟩⟩
  · have hsound : (Transform.truncate width).SoundFor name p d v a :=
      Transform.soundFor_beginning hq hp htype hd.optional hkind hlits ha
    exact honours_of_soundFor hd hsound htest
  · rintro op c l rfl hop hlength side
    have hl := hlits l (List.mem_singleton.mpr rfl)
    obtain ⟨e, b, he, hb, htest⟩ :=
      Transform.evaluate_beginning side name hq hp htype hkind hl ha hop hlength
    exact ⟨e, b, he, (evaluate_projection hd he).trans hb, htest⟩

/-- The texts that begin with "abc" start with "ab": the projections of the test are true for their
partition, as the test is for "abcd". -/
theorem honours_truncate_sequence_text :
    let c : Column := ⟨⟨1, "s", .primitive .string, false, none⟩, ⟨0, []⟩⟩
    let schema := Schema.ofFields [c.field]
    let spec : PartitionSpec := ⟨0, [⟨1, 1000, .truncate 3, "s_part"⟩]⟩
    let u : Predicate String := .compare .startsWith "s" (.string "ab")
    let p : Predicate Column := .compare .startsWith c (.string "ab")
    let partition : Value := .record [.text "abc"]
    u.bind schema true = .ok (.leaf p) ∧
      ∃ r d, make spec (Filter.ofPredicate u) true schema = .ok r ∧
        r.Reads "s_part" d partition (.text "abc") ∧ d.field.type = .primitive .string ∧
        r.Honours (.truncate 3) "s_part" p partition (.text "abcd") ∧
        ∀ side, ∃ e, (Transform.truncate 3).projection side "s_part" p = .ok (some e) ∧
          r.evaluate partition e = .ok true := by
  intro c schema spec u p partition
  have hbind : u.bind schema true = .ok (.leaf p) := rfl
  obtain ⟨r, hmake⟩ : ∃ r, make spec (Filter.ofPredicate u) true schema = .ok r := ⟨_, rfl⟩
  have hat : partition.at 0 = .ok (.text "abc") := rfl
  have hd := reads_of_single rfl hmake (g := c.field) rfl rfl hat
  -- The literal is no longer than the width, so both projections ask for the beginning.
  obtain ⟨a, _, _, htext, _, hcontract⟩ :=
    honours_truncate_sequence (v := .text "abcd") 3 hbind rfl rfl (Or.inr rfl)
  obtain rfl : a = .text "abc" := htext "abcd" rfl
  obtain ⟨hhonours, hbeginning⟩ := hcontract r _ _ partition hd rfl
  refine ⟨hbind, r, _, hmake, hd, rfl, hhonours, fun side => ?_⟩
  obtain ⟨e, b, he, hb, htest⟩ := hbeginning .startsWith c (.string "ab") rfl rfl (by decide) side
  obtain rfl : true = b := Except.ok.inj htest
  exact ⟨e, he, hb⟩

end ResidualEvaluator

end PartitionPruning
