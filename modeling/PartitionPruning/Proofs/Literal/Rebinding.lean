import PartitionPruning.Proofs.Filter.Safety

/-!
# Literals that are converted again

The identity projects a predicate to itself, and the partition field, which has the type of the column, is
looked up for it as the column was. So its literals, which were converted to the type before, are converted
to it once more. Each class of converted literals passes the test of its own type: integers are within the
range that they were put into, bytes have the length and decimals the scale that was asked for.

* **`isStable_of_made`** — a literal that is converted can be converted again, unless it is a mark.
* **`convert_idempotent`** — it stays what it is, and a comparison with it means the same.
-/

namespace PartitionPruning

open Outcome

namespace Literal

/-- **Only marks** cannot be converted again: a decimal that became a literal of a type has a scale. -/
theorem isStable_of_made {l l' : Literal} {p : Primitive} (hl : l.Made)
    (h : l.convert (.primitive p) = .ok l') (hmark : l'.isMark = false) : l'.isStable = true := by
  cases l' with
  | aboveMax t | belowMin t => simp [isMark] at hmark
  | decimal d =>
    have hkind := kind_of_convert h
    cases p with
    | decimal precision scale =>
      obtain ⟨_, heq, hscale⟩ := scale?_of_convert (isOrdered_of_made hl) h
      obtain rfl := Literal.decimal.inj heq
      rw [isStable, hscale]
      rfl
    | _ => simp [value, Primitive.hasKind, Value.whole?] at hkind
  | _ => rfl

/-- **Conversion is idempotent.** A literal that was converted to a type, and did not become a mark, is
converted to the type once more and stays what it is. So the projection of a comparison with it to a
partition field of the type is bound to the comparison of the field with the same literal. -/
theorem convert_idempotent {l l' : Literal} {p : Primitive} (hl : l.Made)
    (h : l.convert (.primitive p) = .ok l') (hmark : l'.isMark = false) :
    l'.convert (.primitive p) = .ok l' ∧
      ∀ (op : Comparison) (c d : Column) (name : String), d.field.type = .primitive p →
        ∃ q, Transform.identity.project name (.compare op c l') = .ok (some (.leaf q)) ∧
          q.bindTo d = .ok (.leaf (.compare op d l')) := by
  have hagain := convert_of_isStable (isConverted_of_convert h) (isStable_of_made hl h hmark)
  refine ⟨hagain, fun op c d name hd => ⟨.compare op name l', rfl, ?_⟩⟩
  simp [Predicate.bindTo, hd, hagain, Predicate.bindCompare, decided?_of_not_isMark op hmark]

/-- An eighth is rounded to a decimal of two places. -/
theorem convert_idempotent_eighth :
    let eighth : Literal := .double ⟨0x3FC0000000000000⟩
    let rounded : Literal := .decimal (.finite false 13 (-2))
    let d : Column := ⟨⟨1000, "c_part", .primitive (.decimal 9 2), false, none⟩, ⟨0, []⟩⟩
    eighth.Made ∧ eighth.convert (.primitive (.decimal 9 2)) = .ok rounded ∧ rounded.isMark = false ∧
      rounded.convert (.primitive (.decimal 9 2)) = .ok rounded ∧
      (Predicate.compare .less "c_part" rounded).bindTo d = .ok (.leaf (.compare .less d rounded)) := by
  intro eighth rounded d
  have hmade : eighth.Made := .value (v := .float ⟨0x3FC0000000000000⟩) rfl
  have hconvert : eighth.convert (.primitive (.decimal 9 2)) = .ok rounded := by decide +kernel
  obtain ⟨hagain, hrebind⟩ := convert_idempotent hmade hconvert rfl
  obtain ⟨q, hq, hbind⟩ := hrebind .less d d "c_part" rfl
  obtain rfl : Predicate.compare .less "c_part" rounded = q := by
    simpa [Transform.project_identity, Transform.renamed, Predicate.withTerm] using hq
  exact ⟨hmade, hconvert, rfl, hagain, hbind⟩

end Literal

end PartitionPruning
