import PartitionPruning.Proofs.DataType.Acceptance
import PartitionPruning.Proofs.Transform.Names

/-!
# Which names are accepted as types and transforms

A bucket or truncate transform comes from a word with a positive number in brackets. As behind the
length of a type, a line break may follow.

* **`parse_eq_bucket_iff`**, **`parse_eq_truncate_iff`** — which texts are read as these transforms,
* **`accepted_names`** — which texts are read as types and as transforms with a number.
-/

namespace PartitionPruning

open Numeral (Row)

namespace Transform

/-- Whether a text is the name of a word with a positive number in brackets. -/
def NamesNumber (word : String) (cs : List Char) (n : Nat) : Prop :=
  ∃ r : Row, r.Short ∧ r.value = n ∧ n ≠ 0 ∧ cs = Text.Brackets.around word r

/-- Whether a text is such a name with nothing but a line break behind it. -/
def NamesNumberLoosely (word : String) (cs : List Char) (n : Nat) : Prop :=
  ∃ name, NamesNumber word name n ∧ cs = name ++ ['\n']

theorem parseNumber_eq_ok_iff {make : Nat → Transform} {word name : String} {t : Transform} :
    parseNumber make word name = .ok t ↔
      ∃ n, make n = t ∧
        (NamesNumber word name.toList n ∨ NamesNumberLoosely word name.toList n) := by
  rw [parseNumber_eq_ok]
  refine exists_congr fun n => ?_
  rw [Text.Brackets.parse_eq_ok_iff]
  constructor
  · rintro ⟨⟨r, hshort, hvalue, hname | hname⟩, hpos, hmake⟩
    · exact ⟨hmake, Or.inl ⟨r, hshort, hvalue, hpos, hname⟩⟩
    · exact ⟨hmake, Or.inr ⟨_, ⟨r, hshort, hvalue, hpos, rfl⟩, hname⟩⟩
  · rintro ⟨hmake, ⟨r, hshort, hvalue, hpos, hname⟩ | ⟨_, ⟨r, hshort, hvalue, hpos, rfl⟩, hname⟩⟩
    · exact ⟨⟨r, hshort, hvalue, Or.inl hname⟩, hpos, hmake⟩
    · exact ⟨⟨r, hshort, hvalue, Or.inr hname⟩, hpos, hmake⟩

/-- A name with a line break behind it is not a name. -/
theorem NamesNumberLoosely.not_namesNumber {word other : String} {cs : List Char} {n m : Nat}
    (h : NamesNumberLoosely word cs n) : ¬ NamesNumber other cs m := by
  obtain ⟨_, ⟨r, -, -, -, rfl⟩, rfl⟩ := h
  rintro ⟨r', -, -, -, hcs⟩
  exact Text.Brackets.around_append_ne r r' hcs

/-- A line break may stand behind the name of a transform with a number. -/
theorem namesNumberLoosely_append {word : String} {n : Nat} (hpos : n ≠ 0) (h : Numeral.Readable n) :
    NamesNumberLoosely word ((Text.Brackets.written word n).toList ++ ['\n']) n :=
  ⟨_, ⟨.ofNat n, Row.short_ofNat.mpr h, Row.value_ofNat n, hpos, (Text.Brackets.around_ofNat word n).symm⟩,
    rfl⟩

theorem start_of_names {word : String} {cs : List Char} {n : Nat}
    (h : NamesNumber word cs n ∨ NamesNumberLoosely word cs n) :
    word.toList <+: cs ∧ '[' ∈ cs := by
  rcases h with ⟨r, -, -, -, rfl⟩ | ⟨_, ⟨r, -, -, -, rfl⟩, rfl⟩ <;> simp [Text.Brackets.around]

theorem ne_of_bracket {name other : String} (h : '[' ∈ name.toList) (hother : '[' ∉ other.toList) :
    name ≠ other := by
  rintro rfl
  exact hother h

/-- What is read as a transform with a number was read behind its word. -/
theorem parse_eq_number {name : String} {t : Transform} (h : parse name = .ok t) :
    parseNumber .bucket "bucket" name = .ok t ∨ parseNumber .truncate "truncate" name = .ok t ∨
      (∀ n, t ≠ .bucket n ∧ t ≠ .truncate n) := by
  unfold parse at h
  split_ifs at h
  · obtain rfl := Except.ok.inj h
    exact Or.inr (Or.inr (by simp))
  · obtain rfl := Except.ok.inj h
    exact Or.inr (Or.inr (by simp))
  · exact Or.inl h
  · exact Or.inr (Or.inl h)
  · split at h <;> obtain rfl := Except.ok.inj h <;> exact Or.inr (Or.inr (by simp))

theorem parse_eq_bucket_iff {name : String} {n : Nat} :
    parse name = .ok (.bucket n) ↔
      NamesNumber "bucket" name.toList n ∨ NamesNumberLoosely "bucket" name.toList n := by
  constructor
  · intro h
    rcases parse_eq_number h with h | h | h
    · obtain ⟨m, hm, hname⟩ := parseNumber_eq_ok_iff.mp h
      obtain rfl : m = n := by simpa using hm
      exact hname
    · obtain ⟨m, hm, -⟩ := parseNumber_eq_ok_iff.mp h
      cases hm
    · exact absurd rfl (h n).1
  · intro h
    obtain ⟨hstart, hopen⟩ := start_of_names h
    rw [parse, if_neg (ne_of_bracket hopen (by decide)), if_neg (ne_of_bracket hopen (by decide)),
      if_pos (List.isPrefixOf_iff_prefix.mpr hstart)]
    exact parseNumber_eq_ok_iff.mpr ⟨n, rfl, h⟩

theorem parse_eq_truncate_iff {name : String} {n : Nat} :
    parse name = .ok (.truncate n) ↔
      NamesNumber "truncate" name.toList n ∨ NamesNumberLoosely "truncate" name.toList n := by
  constructor
  · intro h
    rcases parse_eq_number h with h | h | h
    · obtain ⟨m, hm, -⟩ := parseNumber_eq_ok_iff.mp h
      cases hm
    · obtain ⟨m, hm, hname⟩ := parseNumber_eq_ok_iff.mp h
      obtain rfl : m = n := by simpa using hm
      exact hname
    · exact absurd rfl (h n).2
  · intro h
    obtain ⟨hstart, hopen⟩ := start_of_names h
    -- The names of the two transforms with numbers do not start alike.
    have hother : ¬ "bucket".toList.isPrefixOf name.toList = true := by
      obtain ⟨rest, hname⟩ := hstart
      simp [← hname]
    rw [parse, if_neg (ne_of_bracket hopen (by decide)), if_neg (ne_of_bracket hopen (by decide)),
      if_neg hother, if_pos (List.isPrefixOf_iff_prefix.mpr hstart)]
    exact parseNumber_eq_ok_iff.mpr ⟨n, rfl, h⟩

end Transform

open Transform (NamesNumber NamesNumberLoosely)

/-- **Which texts are accepted** as types and as transforms with a number: the names, and what is
tolerated besides them, which no name is. -/
theorem accepted_names (name : String) :
    (∀ t, DataType.parse name = .ok t ↔
        ∃ p, .primitive p = t ∧
          (DataType.Named name.toList p ∨ DataType.Tolerated name.toList p)) ∧
      (∀ n, Transform.parse name = .ok (.bucket n) ↔
        NamesNumber "bucket" name.toList n ∨ NamesNumberLoosely "bucket" name.toList n) ∧
      (∀ n, Transform.parse name = .ok (.truncate n) ↔
        NamesNumber "truncate" name.toList n ∨ NamesNumberLoosely "truncate" name.toList n) ∧
      (∀ p q, DataType.Tolerated name.toList p → ¬ DataType.Named name.toList q) ∧
      (∀ word other n m,
        NamesNumberLoosely word name.toList n → ¬ NamesNumber other name.toList m) :=
  ⟨fun _ => DataType.parse_eq_ok_iff, fun _ => Transform.parse_eq_bucket_iff,
    fun _ => Transform.parse_eq_truncate_iff, fun _ _ h => h.not_named,
    fun _ _ _ _ h => h.not_namesNumber⟩

/-- **Texts that are no names** and yet are accepted: one with a letter behind a decimal type, and two
with a line break at the end. -/
theorem accepted_names_loosely :
    (DataType.parse "decimal(9, 2)x" = .ok (.primitive (.decimal 9 2)) ∧
        ∀ p, ¬ DataType.Named "decimal(9, 2)x".toList p) ∧
      (DataType.parse "fixed[4]\n" = .ok (.primitive (.fixed 4)) ∧
        ∀ p, ¬ DataType.Named "fixed[4]\n".toList p) ∧
      (Transform.parse "bucket[4]\n" = .ok (.bucket 4) ∧
        ∀ word n, ¬ NamesNumber word "bucket[4]\n".toList n) := by
  -- Each name is a proper one with one more character behind it.
  have hdecimal : DataType.Tolerated "decimal(9, 2)x".toList (.decimal 9 2) := by
    have htext : (Primitive.decimal 9 2).render.toList ++ ['x'] = "decimal(9, 2)x".toList := by decide
    exact htext ▸ DataType.tolerated_decimal_append (by decide) (by decide) (by decide)
  have hfixed : DataType.Tolerated "fixed[4]\n".toList (.fixed 4) := by
    have htext : (Primitive.fixed 4).render.toList ++ ['\n'] = "fixed[4]\n".toList := by decide
    exact htext ▸ DataType.tolerated_fixed_append (by decide)
  have hbucket : NamesNumberLoosely "bucket" "bucket[4]\n".toList 4 := by
    have htext : (Text.Brackets.written "bucket" 4).toList ++ ['\n'] = "bucket[4]\n".toList := by decide
    exact htext ▸ Transform.namesNumberLoosely_append (by decide) (by decide)
  exact ⟨⟨hdecimal.parse_eq, fun _ => hdecimal.not_named⟩, ⟨hfixed.parse_eq, fun _ => hfixed.not_named⟩,
    Transform.parse_eq_bucket_iff.mpr (Or.inr hbucket), fun _ _ => hbucket.not_namesNumber⟩

end PartitionPruning
