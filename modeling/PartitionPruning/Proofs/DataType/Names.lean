import PartitionPruning.DataType.Metadata
import PartitionPruning.Proofs.Numeral.Digits

/-!
# Names of types are read back

The name of a type is read as that type. The only names that are not read back are those with a number
that is too long.

* **`digits?_bracketed`** — the digits that stand in brackets behind a word are found,
* **`Brackets.readable_of_parse`** — no number that was found there is too long to be read again,
* **`findDecimalDigits?_render`** — so are the digits of a precision and a scale,
* **`parse_render`** — the name of a type is read as that type, unless a number in it is too long.
-/

namespace PartitionPruning

namespace Text

/-! ## Rows of digits -/

/-- A row of digits ends where another character follows. -/
theorem span_toDigits (n : Nat) {c : Char} (h : isDecimalDigit c = false) (rest : List Char) :
    (Nat.toDigits 10 n ++ c :: rest).takeWhile isDecimalDigit = Nat.toDigits 10 n ∧
      (Nat.toDigits 10 n ++ c :: rest).dropWhile isDecimalDigit = c :: rest :=
  span_append (fun _ hd => Numeral.isDecimalDigit_of_isDigit (Numeral.isDigit_of_mem_toDigits hd))
    (by simpa using h)

namespace Brackets

/-- A word with a number in brackets behind it. -/
def written (word : String) (n : Nat) : String := word ++ "[" ++ toString n ++ "]"

/-- The characters of a word with a number in brackets. -/
theorem toList_written (word : String) (n : Nat) :
    (written word n).toList = word.toList ++ '[' :: (Nat.toDigits 10 n ++ [']']) := by
  simp [written]

/-- **The digits in brackets** are found. -/
theorem digits?_written (word : String) (n : Nat) :
    digits? word (written word n) = some (Nat.toDigits 10 n) := by
  obtain ⟨htake, hdrop⟩ := span_toDigits n (c := ']') (by decide) []
  rw [digits?, toList_written, afterWord?_self]
  simp [htake, hdrop]

/-- A written number is read back, unless it has more digits than one may be read from. -/
theorem parse_written (word : String) (n : Nat) :
    parse word (written word n) =
      if Numeral.Readable n then .ok n else .error .numeralTooLong := by
  rw [parse, digits?_written]
  exact Numeral.ofDigits_toDigits n

/-- Brackets are matched with a digit in them at least. -/
theorem digits?_ne_nil {word text : String} {digits : List Char}
    (h : digits? word text = some digits) : digits ≠ [] := by
  unfold digits? at h
  split at h
  · simp only [Option.ite_none_right_eq_some] at h
    exact Option.some.inj h.2 ▸ h.1.1
  · cases h

/-- **No number in brackets** that was read is too long to be read again. -/
theorem readable_of_parse {word text : String} {n : Nat} (h : parse word text = .ok n) :
    Numeral.Readable n := by
  unfold parse at h
  split at h
  · rename_i digits hdigits
    exact Numeral.readable_of_ofDigits (digits?_ne_nil hdigits) h
  · cases h

end Brackets

end Text

/-! ## Types -/

/-- Whether the numbers in the name of a type are short enough to be read. -/
def Primitive.Readable (p : Primitive) : Prop := ∀ n ∈ p.numbers, Numeral.Readable n

instance (p : Primitive) : Decidable p.Readable :=
  inferInstanceAs (Decidable (∀ n ∈ p.numbers, Numeral.Readable n))

/-- **The name of a type** is written under the condition under which it is read. -/
theorem Primitive.write_eq (p : Primitive) :
    p.write = if p.Readable then .ok p.render else .error .numeralTooLong := rfl

namespace DataType

/-- The plain names have neither brackets nor parentheses, so they are apart from those with numbers. -/
theorem bracket_notMem_plain :
    ∀ p ∈ Primitive.plain, '[' ∉ p.render.toList ∧ '(' ∉ p.render.toList := by decide

/-- A name with an opening bracket is not the name of a type without parameters. -/
theorem find?_plain_eq_none {name : String} (h : '[' ∈ name.toList ∨ '(' ∈ name.toList) :
    Primitive.plain.find? (·.render = name) = none := by
  rw [List.find?_eq_none]
  intro p hp heq
  obtain ⟨hsquare, hround⟩ := bracket_notMem_plain p hp
  obtain rfl := of_decide_eq_true heq
  exact h.elim hsquare hround

/-- A fixed type is written as its word with the length in brackets. -/
theorem render_fixed (length : Nat) :
    (Primitive.fixed length).render = Text.Brackets.written "fixed" length := by
  simp [Primitive.render, Text.Brackets.written]

/-- The characters of a decimal's name. -/
theorem toList_render_decimal (precision scale : Nat) :
    (Primitive.decimal precision scale).render.toList =
      "decimal(".toList ++ (Nat.toDigits 10 precision ++ ',' :: ' ' ::
        (Nat.toDigits 10 scale ++ [')'])) := by
  simp [Primitive.render]

/-- **The digits of a precision and a scale** are found. -/
theorem findDecimalDigits?_render (precision scale : Nat) :
    findDecimalDigits? (Primitive.decimal precision scale).render.toList =
      some (Nat.toDigits 10 precision, Nat.toDigits 10 scale) := by
  obtain ⟨hprecision, hcomma⟩ := Text.span_toDigits precision (c := ',') (by decide)
    (' ' :: (Nat.toDigits 10 scale ++ [')']))
  obtain ⟨hscale, hclose⟩ := Text.span_toDigits scale (c := ')') (by decide) []
  have hblank : (' ' :: (Nat.toDigits 10 scale ++ [')'])).dropWhile Text.isBlank =
      Nat.toDigits 10 scale ++ [')'] := by
    obtain ⟨d, ds, hcons, hd⟩ := Numeral.exists_toDigits_cons scale
    rw [hcons, List.cons_append, List.dropWhile_cons_of_pos (by decide),
      List.dropWhile_cons_of_neg (by simp [Numeral.isBlank_of_isDigit hd])]
  have hfound : decimalDigits? (Primitive.decimal precision scale).render.toList =
      some (Nat.toDigits 10 precision, Nat.toDigits 10 scale) := by
    rw [decimalDigits?, toList_render_decimal, Text.Brackets.afterWord?_self]
    simp only [hprecision, hcomma, hblank, hscale, hclose]
    simp
  obtain ⟨c, rest, hcons⟩ : ∃ c rest, (Primitive.decimal precision scale).render.toList = c :: rest :=
    ⟨_, _, toList_render_decimal precision scale⟩
  rw [hcons] at hfound ⊢
  rw [findDecimalDigits?, hfound, Option.some_or]

/-- **The name of a type** is read as that type, unless a number in it is too long. -/
theorem parse_render (p : Primitive) :
    parse p.render = if p.Readable then .ok (.primitive p) else .error .numeralTooLong := by
  cases p with
  | fixed length =>
    have hnone : Primitive.plain.find? (·.render = (Primitive.fixed length).render) = none :=
      find?_plain_eq_none (Or.inl (by simp [Primitive.render]))
    have hstart : "fixed".toList.isPrefixOf (Primitive.fixed length).render.toList := by
      rw [render_fixed, Text.Brackets.toList_written, List.isPrefixOf_iff_prefix]
      exact List.prefix_append ..
    rw [parse, hnone]
    simp only [hstart, if_true]
    rw [render_fixed, Text.Brackets.parse_written]
    by_cases h : Numeral.Readable length <;>
      simp [Primitive.Readable, Primitive.numbers, h, Except.map]
  | decimal precision scale =>
    have hnone : Primitive.plain.find? (·.render = (Primitive.decimal precision scale).render) =
        none :=
      find?_plain_eq_none (Or.inr (by simp [Primitive.render]))
    have hother : ¬ "fixed".toList.isPrefixOf (Primitive.decimal precision scale).render.toList := by
      rw [toList_render_decimal]
      simp
    have hstart : "decimal".toList.isPrefixOf
        (Primitive.decimal precision scale).render.toList := by
      rw [toList_render_decimal]
      simp
    rw [parse, hnone]
    simp only [hother, hstart, if_true]
    rw [parseDecimal, findDecimalDigits?_render]
    simp only [Numeral.ofDigits_toDigits]
    by_cases hp : Numeral.Readable precision <;> by_cases hs : Numeral.Readable scale <;>
      simp [Primitive.Readable, Primitive.numbers, hp, hs] <;> rfl
  | _ => rfl

end DataType

end PartitionPruning
