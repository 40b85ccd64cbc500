import PartitionPruning.Proofs.Numeral.Count
import PartitionPruning.Proofs.Transform.Soundness

/-!
# Projections to buckets

A value is put into a bucket by its hash, and values with one key have one hash. So equal values are
in one bucket, which is all that the projections to buckets say.

* **`HashForm.toBytes_congr`** — values with one key are hashed from the same bytes.
* **`soundFor_bucket`** — the projections to buckets are sound.
-/

namespace PartitionPruning

open Outcome (bind_eq_ok map_eq_ok)

/-- The decimals that are covered by a type count the units of its scale. -/
theorem Primitive.decimal_of_covers {precision scale : Nat} {v : Value}
    (h : (Primitive.decimal precision scale).covers v = true) :
    ∃ x, v = .decimal x ∧ x.scale? = some scale ∧ x.IsCount scale x.unscaled := by
  cases v with
  | decimal x =>
    cases x <;> simp [covers] at h
    subst h
    exact ⟨_, rfl, by simp [Decimal.scale?], rfl⟩
  | _ => simp [covers] at h

/-- The values of a type of decimals. -/
theorem Primitive.decimal_of_holds {precision scale : Nat} {v : Value}
    (hv : (Primitive.decimal precision scale).holds v = true) :
    ∃ x, v = .decimal x ∧ x.scale? = some scale ∧ x.IsCount scale x.unscaled := by
  have hcovers : (Primitive.decimal precision scale).covers v = true := by
    cases v with
    | decimal x => cases x <;> simp_all [holds, admits, inRange, covers]
    | _ => simp [holds, admits] at hv
  exact decimal_of_covers hcovers

/-- **Hashes.** A row value and a literal with one key are hashed from the same bytes. -/
theorem HashForm.toBytes_congr {p : Primitive} {form : HashForm} {v w : Value}
    (hform : (DataType.primitive p).hashForm? = some form) (hv : p.holds v = true)
    (hkind : p.hasKind w = true) (hcovers : p.covers w = true) (hkey : v.SameKey w) :
    form.toBytes v = form.toBytes w := by
  have hplain (hv : v.isPlain = true) (hw : w.isPlain = true) : form.toBytes v = form.toBytes w := by
    rw [hkey.eq hv hw]
  -- a row value is an integer itself, a literal may be a truth value that counts as one
  have hwhole {n : Int} (hv : v = .int n) (hw : w.whole?.isSome = true) :
      HashForm.number.toBytes v = HashForm.number.toBytes w := by
    obtain ⟨x, hx⟩ := Option.isSome_iff_exists.mp hw
    obtain rfl := Value.eq_ofWhole_of_whole? hx
    subst hv
    have hn : n = x.toInt := Value.sameKey_ofWhole (m := .number n).mp hkey
    simp only [toBytes, Value.whole?_ofWhole, hn]
    rfl
  cases p with
  | int | long | date | time | timestamp | timestamptz =>
    obtain rfl : HashForm.number = form := by simpa [DataType.hashForm?] using hform
    cases v <;> simp [Primitive.holds, Primitive.admits] at hv
    exact hwhole rfl hkind
  | decimal precision scale =>
    obtain rfl : HashForm.decimal = form := by simpa [DataType.hashForm?] using hform
    obtain ⟨x, rfl, -, hx⟩ := Primitive.decimal_of_holds hv
    obtain ⟨y, rfl, -, hy⟩ := Primitive.decimal_of_covers hcovers
    -- both count the units of the scale, so their unscaled values are one
    have hunscaled := (Value.sameKey_count hx hy).mp hkey
    simp only [toBytes, Decimal.toBytes, hunscaled]
  | string | uuid | fixed length | binary =>
    cases v <;> simp [Primitive.holds, Primitive.admits] at hv
    cases w <;> simp [Primitive.hasKind] at hkind
    exact hplain rfl rfl
  | boolean | float | double => simp [DataType.hashForm?] at hform

namespace Transform

variable {count : Nat} {form : HashForm} {name : String} {p : Predicate Column} {c d : Column}
variable {v a : Value} {q : Primitive}

/-- The bucket of a value that is not null. -/
theorem apply_bucket_inv (hform : (DataType.primitive q).hashForm? = some form)
    (hv : v.isNull = false) (h : (bucket count).apply (.primitive q) v = .ok a) :
    ∃ k, form.hash v = .ok k ∧ a = .int (bucketOfHash count k) := by
  simp only [apply, function, hform, Outcome.ok_bind, Value.unlessNull, hv, Bool.false_eq_true,
    if_false] at h
  obtain ⟨k, hk, rfl⟩ := map_eq_ok.mp h
  exact ⟨k, hk, rfl⟩

/-- A bucket has thirty-one bits. -/
theorem bucketOfHash_range (count : Nat) (k : Int) :
    0 ≤ bucketOfHash count k ∧ bucketOfHash count k ≤ 2147483647 := by
  have hlow : 0 ≤ k % 2147483648 := Int.emod_nonneg k (by decide)
  have hhigh : k % 2147483648 < 2147483648 := Int.emod_lt_of_pos k (by decide)
  have hbucket : bucketOfHash count k = k % 2147483648 % count := rfl
  rw [hbucket]
  -- With no buckets the remainder is the number itself, which is within the range already.
  rcases Nat.eq_zero_or_pos count with rfl | hpos
  · simp only [Int.ofNat_zero, Int.emod_zero]
    omega
  · have hle := Int.emod_lt_of_pos (k % 2147483648) (b := count) (by omega)
    have hnonneg := Int.emod_nonneg (k % 2147483648) (b := count) (by omega)
    have hself : k % 2147483648 % (count : Int) ≤ k % 2147483648 := by
      rw [Int.emod_def]
      have := Int.mul_nonneg (Int.natCast_nonneg count)
        (Int.ediv_nonneg hlow (Int.natCast_nonneg count))
      omega
    omega

theorem bucketOfHash_bits (count : Nat) (k : Int) :
    -2147483648 ≤ bucketOfHash count k ∧ bucketOfHash count k ≤ 2147483647 := by
  obtain ⟨hlow, hhigh⟩ := bucketOfHash_range count k
  exact ⟨Int.le_trans (by decide) hlow, hhigh⟩

/-- Buckets keep the keys of values that are hashed from the same bytes. -/
theorem keepsKey_of_toBytes {f : Value → Except Fault Value} {l : Literal}
    (hform : (DataType.primitive q).hashForm? = some form)
    (hf : (bucket count).function (.primitive q) = .ok f) (hd : d.field.type = .primitive .int)
    (hbytes : v.SameKey l.value → form.toBytes v = form.toBytes l.value)
    (ha : (bucket count).apply (.primitive q) v = .ok a) : Projection.KeepsKey f d v a l := by
  have htransformed {u : Literal} (hu : l.transformed f = .ok u) :
      ∃ k, form.hash l.value = .ok k ∧ u = .long (.number (bucketOfHash count k)) := by
    obtain ⟨w, hw, hu⟩ := bind_eq_ok.mp hu
    have happly : (bucket count).apply (.primitive q) l.value = .ok w := by
      rw [apply, hf]
      exact hw
    obtain ⟨k, hk, rfl⟩ := apply_bucket_inv hform l.isNull_value happly
    exact ⟨k, hk, (Except.ok.inj hu).symm⟩
  constructor
  · intro u u' hu hu'
    obtain ⟨k, _, rfl⟩ := htransformed hu
    have hconvert := Literal.convert_int (bucketOfHash_bits count k)
    obtain rfl := Except.ok.inj (hconvert.symm.trans (hd ▸ hu'))
    exact ⟨rfl, rfl⟩
  · intro u hu hsame
    have hnull : v.isNull = false := by
      cases hnull : v.isNull with
      | false => rfl
      | true =>
        rw [Value.eq_null_of_isNull hnull] at hsame
        exact absurd hsame (Value.not_sameKey_null _)
    obtain ⟨k, hk, rfl⟩ := htransformed hu
    obtain ⟨k', hk', rfl⟩ := apply_bucket_inv hform hnull ha
    -- one key, one hash, one bucket
    obtain rfl : k = k' := by
      rw [HashForm.hash, hbytes hsame] at hk'
      exact Except.ok.inj (hk.symm.trans hk')
    exact Value.sameKey_ofWhole (m := .number _) (n := .number _).mpr rfl

/-- **Buckets are sound** where values with one key are hashed from the same bytes. -/
theorem soundFor_of_toBytes (hform : (DataType.primitive q).hashForm? = some form)
    (hp : p.term.field.type = .primitive q) (hd : d.field.type = .primitive .int)
    (hreq : d.field.required = false) (hnan : v.isNaN = .ok false)
    (hbytes : ∀ l ∈ p.literals, v.SameKey l.value → form.toBytes v = form.toBytes l.value)
    (ha : (bucket count).apply (.primitive q) v = .ok a) :
    (bucket count).SoundFor name p d v a := by
  obtain ⟨f, hf⟩ : ∃ f, (bucket count).function (.primitive q) = .ok f := by
    simp [function, hform]
  -- Equal values have equal bytes, so they are in one bucket.
  have hkeys : ∀ l ∈ p.literals, Projection.KeepsKey f d v a l := fun l hl =>
    keepsKey_of_toBytes hform hf hd (hbytes l hl) ha
  have hnull : a.isNull = v.isNull ∧ a.isNaN = .ok false := by
    cases hnull : v.isNull with
    | true =>
      rw [Value.eq_null_of_isNull hnull] at ha
      obtain rfl := apply_null ha
      exact ⟨rfl, rfl⟩
    | false =>
      obtain ⟨k, _, rfl⟩ := apply_bucket_inv hform hnull ha
      exact ⟨rfl, rfl⟩
  have hshape (side : Side) : (bucket count).projection side name p =
      Projection.shaped side name f (Projection.ofSingle side name f) p := by
    rw [projection_bucket, sourceOf, hp, hf, Outcome.ok_bind]
  exact Projection.soundFor_shaped hshape hreq ⟨hnull.1, hnull.2, hnan⟩ hkeys
    fun side op l e b hl he ht hb => Projection.sound_single (hkeys l hl) he ht hb

/-- **Buckets are sound.** -/
theorem soundFor_bucket (hform : (DataType.primitive q).hashForm? = some form)
    (hp : p.term.field.type = .primitive q) (hd : d.field.type = .primitive .int)
    (hreq : d.field.required = false) (hv : v.isNull = true ∨ q.holds v = true)
    (hlits : ∀ l ∈ p.literals, q.hasKind l.value = true ∧ q.covers l.value = true)
    (ha : (bucket count).apply (.primitive q) v = .ok a) :
    (bucket count).SoundFor name p d v a := by
  have hnan : v.isNaN = .ok false := by
    refine Primitive.isNaN_of_holds hv ⟨?_, ?_⟩ <;> rintro rfl <;> simp [DataType.hashForm?] at hform
  refine soundFor_of_toBytes hform hp hd hreq hnan (fun l hl hsame => ?_) ha
  rcases hv with hnull | hholds
  · rw [Value.eq_null_of_isNull hnull] at hsame
    exact absurd hsame (Value.not_sameKey_null _)
  · exact HashForm.toBytes_congr hform hholds (hlits l hl).1 (hlits l hl).2 hsame

end Transform

end PartitionPruning
