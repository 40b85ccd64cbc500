import PartitionPruning.Proofs.Literal.Conversion
import PartitionPruning.Proofs.Transform.Shape

/-!
# Sound projections

What a partition field says about a predicate has to be true of the rows of the partition. For one row
value and its partition value this is `Transform.SoundFor`: where the strict projection is true the
predicate is, and where the inclusive projection is false so is the predicate. Predicates that cannot
be evaluated on the row value are left out.

* **`sound_unary`**, **`sound_single`**, **`sound_member`** — tests that only ask which key a value has
  are projected soundly by every transform that gives the same partition value for the same key.
* **`soundFor_shaped`** — so only the projections of comparisons are left to be looked at.
* **`soundFor_identity`** — the identity transform projects a predicate to itself.
-/

namespace PartitionPruning

open Outcome (bind_eq_ok map_eq_ok)

/-- **Sound projections** of a predicate to a partition field, for a row value and its partition
value: the outcome that a projection decides is that of the predicate. -/
def Transform.SoundFor (t : Transform) (name : String) (p : Predicate Column) (d : Column)
    (v a : Value) : Prop :=
  ∀ side e b, t.projection side name p = .ok (some e) →
    Expr.evaluate (Predicate.outcome d a) e = .ok side.decides → p.test v = .ok b → b = side.decides

namespace Transform

/-- A null has no partition value but null. -/
theorem apply_null {t : Transform} {source : DataType} {a : Value}
    (h : t.apply source .null = .ok a) : a = .null := by
  obtain ⟨f, hf, h⟩ := bind_eq_ok.mp h
  cases t with
  | identity | void =>
    obtain rfl := Except.ok.inj hf
    exact (Except.ok.inj h).symm
  | bucket | truncate | time =>
    simp only [function] at hf
    split at hf
    · obtain rfl := Except.ok.inj hf
      exact (Except.ok.inj h).symm
    · simp at hf
  | unknown => simp [function] at hf

theorem soundFor_void (name : String) (p : Predicate Column) (d : Column) (v a : Value) :
    void.SoundFor name p d v a := by
  rintro (_ | _) e b h <;> simp [projection, strictProject, project, Projection.nothing] at h

theorem soundFor_unknown (t name : String) (p : Predicate Column) (d : Column) (v a : Value) :
    (unknown t).SoundFor name p d v a := by
  rintro (_ | _) e b h <;> simp [projection, strictProject, project, Projection.nothing] at h

end Transform

/-! ## Tests that ask for a key -/

namespace Projection

variable {d : Column} {v a : Value} {name : String} {e : Expr (Predicate String)} {s t : Bool}

/-- A test for null has the same outcome for a row value and for its partition value. -/
theorem sound_unary {op : UnaryTest} (hd : d.field.required = false) (hnull : a.isNull = v.isNull)
    (ha : a.isNaN = .ok false) (hv : v.isNaN = .ok false)
    (he : unary op name = .ok (some e))
    (ht : Expr.evaluate (Predicate.outcome d a) e = .ok t)
    (hs : Predicate.testUnary op v = .ok s) : s = t := by
  obtain rfl : Expr.leaf (.unary op name) = e := by simpa [unary] using he
  simp only [Expr.evaluate, Predicate.outcome_unary name hd fun _ => ha] at ht
  have hsame : Predicate.testUnary op a = Predicate.testUnary op v := by
    cases op <;> simp [Predicate.testUnary, hnull, ha, hv]
  rw [hsame, hs] at ht
  exact Except.ok.inj ht

/-- What a transform has to do to the literals of a test of membership: the partition field takes the
transformed literal without changing its key, and a row value with the key of the literal has the
partition value with the key of the transformed literal. -/
structure KeepsKey (f : Value → Except Fault Value) (d : Column) (v a : Value) (l : Literal) :
    Prop where
  convert : ∀ {u u'}, l.transformed f = .ok u → u.convert d.field.type = .ok u' →
    u'.isMark = false ∧ u'.value.key? = u.value.key?
  same : ∀ {u}, l.transformed f = .ok u → v.SameKey l.value → a.SameKey u.value

variable {f : Value → Except Fault Value} {side : Side}

/-- **Tests of membership.** If the row value is one of the literals, then the partition value is one
of the transformed literals. -/
theorem sound_member {ls : List Literal} (hkeys : ∀ l ∈ ls, KeepsKey f d v a l)
    (he : member side.membership name f ls = .ok (some e))
    (ht : Expr.evaluate (Predicate.outcome d a) e = .ok side.decides)
    (hs : Predicate.testMember side.membership v (ls.map Literal.value) = .ok s) :
    s = side.decides := by
  obtain ⟨b, rfl, hiff⟩ := Predicate.testMember_eq_ok hs
  cases b with
  | false => simp [Side.outcome_membership]
  | true =>
    -- the partition value is among the transformed literals, which is not what was decided
    exfalso
    obtain ⟨l, hl, hsame⟩ := hiff.mp rfl
    obtain ⟨ts, hts, _⟩ := bind_eq_ok.mp he
    obtain ⟨u, _, hu⟩ := Outcome.exists_result_of_mem hts hl
    have hau := (hkeys l hl).same hu hsame
    have hfound := Predicate.outcome_member he ht hl hu fun m hm w w' hmw hkey hw' => by
      obtain ⟨hmark, hconvert⟩ := (hkeys m hm).convert hmw hw'
      refine ⟨hmark, ?_⟩
      exact ((Value.SameKey.congr (hconvert.trans hkey)).mpr hau.symm).symm
    simp [Side.outcome_membership] at hfound

/-- **Equality** is a test of membership in a set of one literal. -/
theorem sound_single {op : Comparison} {l : Literal} (hkey : KeepsKey f d v a l)
    (he : ofSingle side name f op l = .ok (some e))
    (ht : Expr.evaluate (Predicate.outcome d a) e = .ok side.decides)
    (hs : Predicate.testCompare op v l.value = .ok s) : s = side.decides := by
  unfold ofSingle at he
  split at he
  · rename_i hop
    subst hop
    obtain ⟨b, rfl, hiff⟩ := Predicate.testCompare_single_eq_ok hs
    cases b with
    | false => simp [Side.outcome_membership]
    -- An equal value has an equal image, which the projection would have found.
    | true =>
      exfalso
      obtain ⟨u, hu, he⟩ := map_eq_ok.mp he
      obtain rfl : Expr.leaf (.compare side.membership.single name u) = e := by simpa using he
      have hau := hkey.same hu (hiff.mp rfl)
      have hset : Expr.evaluate (Predicate.outcome d a) (Predicate.ofSet side.membership name [u]) =
          .ok side.decides := ht
      have hfound := Predicate.outcome_ofSet hset (List.mem_singleton.mpr rfl) fun u' hu' => by
        obtain ⟨hmark, hconvert⟩ := hkey.convert hu hu'
        exact ⟨hmark, ((Value.SameKey.congr hconvert).mpr hau.symm).symm⟩
      simp [Side.outcome_membership] at hfound
  · simp [nothing] at he

/-- **Projections of a common shape** are sound if those of comparisons are. -/
theorem soundFor_shaped {t : Transform} {p : Predicate Column}
    {comparison : Side → Comparison → Literal → Projection}
    (hshape : ∀ side, t.projection side name p = shaped side name f (comparison side) p)
    (hd : d.field.required = false)
    (hunary : a.isNull = v.isNull ∧ a.isNaN = .ok false ∧ v.isNaN = .ok false)
    (hkeys : ∀ l ∈ p.literals, KeepsKey f d v a l)
    (hcompare : ∀ side op l e b, l ∈ p.literals → comparison side op l = .ok (some e) →
      Expr.evaluate (Predicate.outcome d a) e = .ok side.decides →
        Predicate.testCompare op v l.value = .ok b → b = side.decides) :
    t.SoundFor name p d v a := by
  intro side e b he ht hb
  rw [hshape] at he
  cases p with
  | unary op c => exact sound_unary hd hunary.1 hunary.2.1 hunary.2.2 he ht hb
  | compare op c l => exact hcompare side op l e b (List.mem_singleton.mpr rfl) he ht hb
  | member op c ls =>
    simp only [shaped] at he
    split at he
    -- On the other side the set has no projection, and nothing is decided.
    · rename_i hop
      subst hop
      exact sound_member hkeys he ht hb
    · simp [nothing] at he

end Projection

/-! ## The identity -/

namespace Predicate

variable {c d : Column} {v : Value} {p : Primitive}

/-- A comparison with a converted literal means the same for a column of the same type. -/
theorem outcome_compare_again {op : Comparison} {name : String} {l l' : Literal} {t : Bool}
    (hl : l.convert (.primitive p) = .ok l') (hd : d.field.type = .primitive p)
    (h : outcome d v (.compare op name l') = .ok t) : testCompare op v l'.value = .ok t := by
  obtain ⟨l'', hl''⟩ := outcome_compare_inv h
  have hstable := Literal.isStable_of_convert (Literal.isConverted_of_convert hl) (hd ▸ hl'')
  obtain rfl := Literal.convert_convert hl (hd ▸ hl'')
  rwa [outcome_compare hl'' (Literal.isMark_of_isStable hstable)] at h

/-- A test of membership among converted literals asks for the same keys when it is bound to a column
of the same type. -/
theorem outcome_ofSet_again {op : Membership} {name : String} {ls : List Literal} {t : Bool}
    (hls : ∀ l' ∈ ls, ∃ l : Literal, l.convert (.primitive p) = .ok l')
    (hd : d.field.type = .primitive p)
    (ht : Expr.evaluate (outcome d v) (ofSet op name ls) = .ok t) :
    ∃ b, t = op.outcome b ∧ (b = true ↔ ∃ l ∈ ls, v.SameKey l.value) := by
  match ls, hls, ht with
  | [], _, ht =>
    have hempty : Expr.evaluate (fun q => q.test v) (ofSet op d []) = .ok t := ht
    exact evaluate_ofSet hempty
  | [l'], hls, ht =>
    obtain ⟨l, hl⟩ := hls l' (List.mem_cons_self ..)
    have hsingle : Expr.evaluate (fun q => q.test v) (ofSet op d [l']) = .ok t :=
      outcome_compare_again hl hd ht
    exact evaluate_ofSet hsingle
  | l' :: m' :: rest, hls, ht =>
    obtain ⟨e, he, ht⟩ := bind_eq_ok.mp ht
    obtain ⟨ls', hls', he⟩ := bind_eq_ok.mp he
    -- The literals have the column's type already, so binding them again changes nothing.
    obtain rfl := Outcome.eq_of_mapM hls' fun x hx y hy => by
      obtain ⟨l, hl⟩ := hls x hx
      exact Literal.convert_convert hl (hd ▸ hy)
    exact evaluate_ofSetOf he ht

end Predicate

/-- A value of a type that does not count in binary fractions is a number or nothing of the kind. -/
theorem Primitive.isNaN_of_holds {p : Primitive} {v : Value} (hv : v.isNull = true ∨ p.holds v = true)
    (hfloat : p ≠ .float ∧ p ≠ .double) : v.isNaN = .ok false := by
  rcases hv with hnull | hholds
  · rw [Value.eq_null_of_isNull hnull]
    rfl
  · cases v with
    | float x => cases p <;> simp_all [holds, admits]
    | decimal d =>
      cases p <;> simp_all [holds, admits]
      cases d <;> simp_all [Value.isNaN, Decimal.isSignaling, Decimal.isNaN]
    | _ => rfl

namespace Transform

/-- **Identity.** The projection of a predicate has the outcome of the predicate itself. -/
theorem identity_outcome {name : String} {p : Predicate Column} {d : Column} {v : Value}
    {q : Primitive} {s t : Bool} (hd : d.field.type = .primitive q)
    (hreq : d.field.required = false)
    (hlits : ∀ l' ∈ p.literals, ∃ l : Literal, l.convert (.primitive q) = .ok l')
    (hv : v.isNull = true ∨ q.holds v = true)
    (ht : Expr.evaluate (Predicate.outcome d v) (renamed name p) = .ok t)
    (hs : p.test v = .ok s) : s = t := by
  cases p with
  | unary op c =>
    have hnan : d.isFloating = false → v.isNaN = .ok false := by
      intro hfloat
      refine Primitive.isNaN_of_holds hv ⟨?_, ?_⟩ <;> rintro rfl <;>
        simp [Column.isFloating, hd] at hfloat
    have houtcome : Predicate.outcome d v (.unary op name) = .ok t := ht
    rw [Predicate.outcome_unary name hreq hnan] at houtcome
    exact Except.ok.inj (hs.symm.trans houtcome)
  | compare op c l' =>
    obtain ⟨l, hl⟩ := hlits l' (by simp [Predicate.literals])
    have htest := Predicate.outcome_compare_again hl hd ht
    exact Except.ok.inj (hs.symm.trans htest)
  | member op c ls =>
    have hls : ∀ l' ∈ Literal.relisted ls, ∃ l : Literal, l.convert (.primitive q) = .ok l' :=
      fun l' hl' => hlits l' (Literal.mem_relisted.mp hl')
    obtain ⟨b, rfl, hb⟩ := Predicate.outcome_ofSet_again hls hd ht
    obtain ⟨b', rfl, hb'⟩ := Predicate.testMember_eq_ok hs
    -- the order in which the literals are listed does not matter
    have hmembers : (∃ l ∈ Literal.relisted ls, v.SameKey l.value) ↔ ∃ l ∈ ls, v.SameKey l.value := by
      simp only [Literal.mem_relisted]
    rw [Bool.eq_iff_iff.mpr (hb'.trans (hmembers.symm.trans hb.symm))]

theorem soundFor_identity {name : String} {p : Predicate Column} {d : Column} {v : Value}
    {q : Primitive} (hd : d.field.type = .primitive q) (hreq : d.field.required = false)
    (hlits : ∀ l' ∈ p.literals, ∃ l : Literal, l.convert (.primitive q) = .ok l')
    (hv : v.isNull = true ∨ q.holds v = true) : identity.SoundFor name p d v v := by
  intro side e b he ht hb
  rw [projection_identity] at he
  obtain rfl : renamed name p = e := by simpa using he
  exact identity_outcome hd hreq hlits hv ht hb

end Transform

end PartitionPruning
