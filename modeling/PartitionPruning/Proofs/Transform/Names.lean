import PartitionPruning.Proofs.DataType.Names
import PartitionPruning.Proofs.Outcome
import PartitionPruning.Transform.Basic

/-!
# Names of transforms are read back

Every name that is read as a transform gives a transform whose own name is read as the same transform,
also when the two names differ: digits of other scripts, zeros in front and a line break at the end are
not kept.

* **`parseNumber_written`** — a number behind a word is read as the transform with that number,
* **`named_of_parse`** — what is read from names,
* **`parse_render`** — the name of a transform that was read is read as that transform,
* **`write_of_parse`** — and it can be written.
-/

namespace PartitionPruning.Transform

open Outcome (bind_eq_ok)

/-- The transforms that are read from names. -/
inductive Named : Transform → Prop
  | identity : Named .identity
  | void : Named .void
  | bucket {count : Nat} (hpos : count ≠ 0) (h : Numeral.Readable count) : Named (.bucket count)
  | truncate {width : Nat} (hpos : width ≠ 0) (h : Numeral.Readable width) : Named (.truncate width)
  | time (u : TimeUnit) : Named (.time u)
  | unknown {name : String} (h : parse name = .ok (.unknown name)) : Named (.unknown name)

/-! ## Numbers in brackets -/

theorem parseNumber_eq_ok {make : Nat → Transform} {word name : String} {t : Transform} :
    parseNumber make word name = .ok t ↔
      ∃ n, Text.Brackets.parse word name = .ok n ∧ n ≠ 0 ∧ make n = t := by
  rw [parseNumber, bind_eq_ok]
  refine exists_congr fun n => and_congr_right fun _ => ?_
  by_cases h : n = 0
  · simp [h, throw, throwThe, MonadExceptOf.throw]
  · simp [h]

theorem parseNumber_written {make : Nat → Transform} {word : String} {n : Nat} (hpos : n ≠ 0)
    (h : Numeral.Readable n) :
    parseNumber make word (Text.Brackets.written word n) = .ok (make n) :=
  parseNumber_eq_ok.mpr ⟨n, by rw [Text.Brackets.parse_written, if_pos h], hpos, rfl⟩

/-- A name that is written with a word starts with it. -/
theorem isPrefixOf_written (word : String) (n : Nat) :
    word.toList.isPrefixOf (Text.Brackets.written word n).toList := by
  rw [Text.Brackets.toList_written, List.isPrefixOf_iff_prefix]
  exact List.prefix_append ..

theorem written_ne {word other : String} (h : '[' ∉ other.toList) (n : Nat) :
    Text.Brackets.written word n ≠ other := by
  rintro rfl
  simp [Text.Brackets.toList_written] at h

theorem render_bucket (count : Nat) :
    (bucket count).render = Text.Brackets.written "bucket" count := by
  simp [render, Text.Brackets.written]

theorem render_truncate (width : Nat) :
    (truncate width).render = Text.Brackets.written "truncate" width := by
  simp [render, Text.Brackets.written]

/-- A name that was read has no number that is too long to be written. -/
theorem Named.readable_numbers {t : Transform} (h : Named t) :
    ∀ n ∈ t.numbers, Numeral.Readable n := by
  cases h with
  | bucket _ h | truncate _ h => exact List.forall_mem_singleton.mpr h
  | _ => exact List.forall_mem_nil _

theorem Named.parse_render {t : Transform} (h : Named t) : parse t.render = .ok t := by
  cases h with
  | identity => rfl
  | void => rfl
  | @bucket count hpos h =>
    rw [parse, render_bucket, if_neg (written_ne (by decide) count),
      if_neg (written_ne (by decide) count), if_pos (isPrefixOf_written "bucket" count),
      parseNumber_written hpos h]
  | @truncate width hpos h =>
    -- The two names with numbers are told apart by their first letters.
    have hother : ¬ "bucket".toList.isPrefixOf (Text.Brackets.written "truncate" width).toList := by
      rw [Text.Brackets.toList_written]
      simp
    rw [parse, render_truncate, if_neg (written_ne (by decide) width),
      if_neg (written_ne (by decide) width), if_neg hother,
      if_pos (isPrefixOf_written "truncate" width), parseNumber_written hpos h]
  | time u => cases u <;> rfl
  | unknown h => exact h

/-! ## Reading names -/

theorem named_of_parse {name : String} {t : Transform} (h : parse name = .ok t) : Named t := by
  -- An unknown name stands for itself, so the reading itself is kept.
  have hparse := h
  unfold parse at h
  split_ifs at h
  · obtain rfl := Except.ok.inj h
    exact .identity
  · obtain rfl := Except.ok.inj h
    exact .void
  · obtain ⟨n, hn, hpos, rfl⟩ := parseNumber_eq_ok.mp h
    exact .bucket hpos (Text.Brackets.readable_of_parse hn)
  · obtain ⟨n, hn, hpos, rfl⟩ := parseNumber_eq_ok.mp h
    exact .truncate hpos (Text.Brackets.readable_of_parse hn)
  · split at h
    · obtain rfl := Except.ok.inj h
      exact .time _
    · obtain rfl := Except.ok.inj h
      exact .unknown hparse

/-- **The name of a transform** that was read is read as that transform. -/
theorem parse_render {name : String} {t : Transform} (h : parse name = .ok t) :
    parse t.render = .ok t := (named_of_parse h).parse_render

/-- **A transform that was read** from a name is written as its name. -/
theorem write_of_parse {name : String} {t : Transform} (h : parse name = .ok t) :
    t.write = .ok t.render :=
  Numeral.write_of_readable (named_of_parse h).readable_numbers t.render

end PartitionPruning.Transform
