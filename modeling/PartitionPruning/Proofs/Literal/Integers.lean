import Mathlib.Data.List.TakeWhile
import PartitionPruning.Literal.Conversion
import PartitionPruning.Proofs.Numeral.Digits
import PartitionPruning.Proofs.Numeral.Rounding
import PartitionPruning.Proofs.Outcome

/-!
# Texts of integers as literals

The text of an integer is converted to an integer type by way of a double. What it is converted to is
therefore the integer with its 53 leading bits, rounded, and there is nothing when the double of the text
is infinite. An integer literal is converted as it is. The two agree on `int` as long as there is a double,
and on `long` only for the integers that are rounded to themselves and beyond the range of the type.

* **`parse?_render`** — the double of the text of an integer.
* **`convert_text`** — what the text of an integer is converted to.
* **`convert_text_iff`** — when that is what the integer is converted to.
-/

namespace PartitionPruning

open Numeral (signed isDigit_of_mem_toDigits)

/-! ## The text of an integer -/

namespace Binary64

open Numeral.Scientific (toAscii sameWord scan?)

/-- A character of the text of an integer. -/
def IntegerChar (c : Char) : Prop := c.isDigit ∨ c = '-'

/-- No character of an integer's text is a blank. -/
theorem IntegerChar.isNumeralBlank {c : Char} (h : IntegerChar c) : Text.isNumeralBlank c = false := by
  rcases h with h | rfl
  · rw [Text.isNumeralBlank, Numeral.isBlank_of_isDigit h, Bool.false_and]
  · decide

/-- No character of an integer's text is an underscore. -/
theorem IntegerChar.ne_underscore {c : Char} (h : IntegerChar c) : c ≠ '_' := by
  rintro rfl
  rcases h with h | h
  · simp at h
  · cases h

/-- The text of an integer is ASCII already. -/
theorem toAscii_of_forall {cs : List Char} (h : ∀ c ∈ cs, IntegerChar c) :
    toAscii cs = cs := by
  refine (List.map_congr_left fun c hc => ?_).trans (List.map_id cs)
  rcases h c hc with hdigit | rfl
  · rw [Numeral.digitValue?_of_isDigit hdigit]
    have hlow : '0'.toNat ≤ c.toNat := (Numeral.isDigit_iff.mp hdigit).1
    change Char.ofNat ('0'.toNat + (c.toNat - '0'.toNat)) = c
    rw [Nat.add_sub_cancel' hlow, Char.ofNat_toNat]
  · rfl

/-- There are no underscores to drop. -/
theorem dropUnderscores?_of_forall {cs : List Char} (h : ∀ c ∈ cs, c ≠ '_') (afterDigit : Bool) :
    dropUnderscores? afterDigit cs = some cs := by
  induction cs generalizing afterDigit with
  | nil => rfl
  | cons c cs ih =>
    rw [List.forall_mem_cons] at h
    rw [dropUnderscores?, if_neg h.1, ih h.2]
    · rfl
    · exact fun _ _ hc _ => h.1 hc

/-- A text that opens with a digit is none of the words for infinities and for no number. -/
theorem sameWord_of_isDigit {d : Char} (h : d.isDigit) (ds : List Char) {word : String} {w : Char}
    {ws : List Char} (hword : word.toList = w :: ws) (hw : w.isDigit = false) :
    sameWord (d :: ds) word = false := by
  have hlower : d.toLower = d := by
    have hhigh : d.val ≤ '9'.val := (Numeral.isDigit_iff.mp h).2
    refine dif_neg fun hupper => ?_
    exact absurd (UInt32.le_trans hupper.1 hhigh) (by decide)
  rw [sameWord, hword, List.map_cons, hlower, Bool.eq_false_iff]
  intro heq
  rw [(List.cons.inj (beq_iff_eq.mp heq)).1, hw] at h
  cases h

/-- Digits are scanned as the number they write, with no exponent. -/
theorem scan?_toDigits (c : Nat) : scan? (Nat.toDigits 10 c) = some (c, 0) := by
  have hdigits : ∀ d ∈ Nat.toDigits 10 c, Numeral.Scientific.isDigit d = true := by
    intro d hd
    rw [Numeral.Scientific.isDigit, Numeral.asciiDigit?_of_isDigit (isDigit_of_mem_toDigits hd)]
    rfl
  have htake := List.takeWhile_eq_self_iff.mpr hdigits
  have hdrop := List.dropWhile_eq_nil_iff.mpr hdigits
  have hvalue := Numeral.natOfDigits_toDigits c fun _ => Numeral.asciiDigit?_of_isDigit
  simp [scan?, htake, hdrop, hvalue]

/-- Digits have no sign in front. -/
theorem splitSign_toDigits (c : Nat) :
    Numeral.splitSign (Nat.toDigits 10 c) = (false, Nat.toDigits 10 c) := by
  obtain ⟨d, ds, hcons, hd⟩ := Numeral.exists_toDigits_cons c
  rw [hcons, Numeral.splitSign]
  · rintro rest heq
    rw [(List.cons.inj heq).1] at hd
    cases hd
  · rintro rest heq
    rw [(List.cons.inj heq).1] at hd
    cases hd

/-- **The double of an integer** is read from its sign and its digits. -/
theorem parse?_integer {text : String} {negative : Bool} {c : Nat}
    (h : text.toList = (if negative then ['-'] else []) ++ Nat.toDigits 10 c) :
    parse? text = some (ofScientific negative c 0) := by
  have hchars : ∀ d ∈ text.toList, IntegerChar d := by
    rw [h, List.forall_mem_append]
    refine ⟨fun d hd => Or.inr ?_, fun d hd => Or.inl (isDigit_of_mem_toDigits hd)⟩
    cases negative <;> simp at hd
    exact hd
  have hsplit : Numeral.splitSign text.toList = (negative, Nat.toDigits 10 c) := by
    rw [h]
    cases negative with
    | false => exact splitSign_toDigits c
    | true => rfl
  obtain ⟨d, ds, hcons, hd⟩ := Numeral.exists_toDigits_cons c
  have hword (word : String) {w : Char} {ws : List Char} (hword : word.toList = w :: ws)
      (hw : w.isDigit = false) : sameWord (Nat.toDigits 10 c) word = false := by
    rw [hcons]
    exact sameWord_of_isDigit hd ds hword hw
  -- there is nothing to strip, to translate or to drop, and no word for what is not finite
  rw [parse?, Text.stripChars_eq_self fun d hd => (hchars d hd).isNumeralBlank, toAscii_of_forall hchars,
    dropUnderscores?_of_forall fun d hd => (hchars d hd).ne_underscore]
  simp only [Option.bind_eq_bind, Option.bind_some, hsplit]
  rw [hword "inf" rfl rfl, hword "infinity" rfl rfl, hword "nan" rfl rfl, scan?_toDigits]
  rfl

/-- The integer that the double of an integer has as its value. -/
def nearestInt (n : Int) : Int := signed (n < 0) (BinaryFormat.nearest n.natAbs)

/-- On natural numbers the nearest float is that of the natural number. -/
theorem nearestInt_natCast (c : Nat) : nearestInt c = BinaryFormat.nearest c := by
  rw [nearestInt, Int.natAbs_natCast, decide_eq_false (by omega)]
  rfl

/-- The nearest float of the opposite number is the opposite float. -/
theorem nearestInt_neg (c : Nat) : nearestInt (-c) = -BinaryFormat.nearest c := by
  rcases Nat.eq_zero_or_pos c with rfl | hpos
  · decide
  · rw [nearestInt, Int.natAbs_neg, Int.natAbs_natCast, decide_eq_true (by omega)]
    rfl

section NearestInt

variable {n : Int}

/-- **The integers that keep their value** in a double. -/
theorem nearestInt_eq_self_iff : nearestInt n = n ↔ BinaryFormat.FitsSignificand n.natAbs := by
  rw [← BinaryFormat.nearest_eq_self_iff]
  obtain ⟨c, rfl | rfl⟩ := Int.eq_nat_or_neg n
  · rw [nearestInt_natCast, Int.natAbs_natCast, Int.natCast_inj]
  · rw [nearestInt_neg, Int.natAbs_neg, Int.natAbs_natCast, Int.neg_inj, Int.natCast_inj]

/-- Powers of two are floats, so no number above one is rounded below it. -/
theorem two_pow_le_nearestInt {k : Nat} (h : 2 ^ k ≤ n) : 2 ^ k ≤ nearestInt n := by
  have hpow : 0 < (2 : Int) ^ k := Int.pow_pos (by decide)
  obtain ⟨c, rfl⟩ := Int.eq_ofNat_of_zero_le (by omega : 0 ≤ n)
  rw [nearestInt_natCast]
  exact_mod_cast BinaryFormat.two_pow_le_nearest (by exact_mod_cast h)

/-- The same for negative numbers. -/
theorem nearestInt_le_neg_two_pow {k : Nat} (h : n ≤ -2 ^ k) : nearestInt n ≤ -2 ^ k := by
  have hpow : 0 < (2 : Int) ^ k := Int.pow_pos (by decide)
  obtain ⟨c, hc⟩ := Int.eq_ofNat_of_zero_le (by omega : 0 ≤ -n)
  obtain rfl : n = -c := by omega
  rw [nearestInt_neg]
  have hle : 2 ^ k ≤ BinaryFormat.nearest c :=
    BinaryFormat.two_pow_le_nearest (by exact_mod_cast Int.le_of_neg_le_neg h)
  exact Int.neg_le_neg (by exact_mod_cast hle)

/-- The tie below the smallest number of 64 bits is rounded to that number. -/
theorem nearestInt_lt_iff (h : n < -2 ^ 63) : nearestInt n < -2 ^ 63 ↔ n < -2 ^ 63 - 2 ^ 10 := by
  obtain ⟨c, hc⟩ := Int.eq_ofNat_of_zero_le (by omega : 0 ≤ -n)
  obtain rfl : n = -c := by omega
  have hnearest := BinaryFormat.two_pow_lt_nearest_iff (c := c) (by omega)
  rw [nearestInt_neg]
  omega

end NearestInt

end Binary64

/-! ## Conversion -/

/-- An integer is written with a sign when it is negative, and the digits of its magnitude. -/
theorem Whole.toList_render_number (n : Int) : (number n).render.toList =
    (if decide (n < 0) then ['-'] else []) ++ Nat.toDigits 10 n.natAbs := by
  cases n with
  | ofNat m =>
    change (Nat.repr m).toList = _
    simp
  | negSucc m =>
    change ("-" ++ Nat.repr (m + 1)).toList = _
    simp

namespace Literal

open BinaryFormat (integerLimit FitsSignificand)
open Binary64 (nearestInt)

/-- An integer is kept, or marked on the side it is off. -/
theorem clamp_number (t : Bounded) (low high n : Int) : clamp t low high (.number n) =
    if high < n then .aboveMax t else if n < low then .belowMin t else .long (.number n) := rfl

/-- Integers are clamped alike if they are the same or beyond the same end of the range. -/
theorem clamp_eq_iff {t : Bounded} {low high k n : Int} (h : low ≤ high) :
    clamp t low high (.number k) = clamp t low high (.number n) ↔
      k = n ∨ high < k ∧ high < n ∨ k < low ∧ n < low := by
  rw [clamp_number, clamp_number]
  split_ifs <;> simp <;> omega

/-- **The number of a text** is that of the double, which has none beyond the limit. -/
theorem integerOfText_render (n : Int) (type : DataType) :
    integerOfText (Whole.number n).render type =
      if n.natAbs < integerLimit then .ok (nearestInt n) else .error .outOfRange := by
  rw [integerOfText, Binary64.parse?_integer (Whole.toList_render_number n)]
  dsimp only
  by_cases hlimit : n.natAbs < integerLimit
  · obtain ⟨hnan, hinfinite, hvalue⟩ := Binary64.ofScientific_natural (n < 0) hlimit
    rw [hnan, hinfinite, hvalue, if_pos hlimit]
    rfl
  · obtain ⟨hnan, hinfinite⟩ := Binary64.isInfinite_infinity (n < 0)
    rw [Binary64.ofScientific_of_limit_le _ (Nat.le_of_not_lt hlimit), hnan, hinfinite, if_neg hlimit]
    rfl

/-- An integer's text converts to `int` through the nearest float, and fails where that is infinite. -/
theorem convert_text_int (n : Int) :
    (string (Whole.number n).render).convert (.primitive .int) =
      if n.natAbs < integerLimit then .ok (toInt (.number (nearestInt n))) else .error .outOfRange := by
  simp only [convert, convertText, integerOfText_render]
  split <;> rfl

/-- An integer's text converts to `long` through the nearest float, and fails where that is infinite. -/
theorem convert_text_long (n : Int) :
    (string (Whole.number n).render).convert (.primitive .long) =
      if n.natAbs < integerLimit then .ok (toLong (.number (nearestInt n))) else .error .outOfRange := by
  simp only [convert, convertText, integerOfText_render]
  split <;> rfl

/-- An integer beyond 53 bits is beyond the range of `int` before and after it is rounded. -/
theorem toInt_nearestInt (n : Int) : toInt (.number (nearestInt n)) = toInt (.number n) := by
  rw [toInt, toInt, clamp_eq_iff (by decide)]
  by_cases hhigh : 2 ^ 53 ≤ n
  · have := Binary64.two_pow_le_nearestInt hhigh
    omega
  by_cases hlow : n ≤ -2 ^ 53
  · have := Binary64.nearestInt_le_neg_two_pow hlow
    omega
  · exact Or.inl (Binary64.nearestInt_eq_self_iff.mpr ⟨n.natAbs, 0, (Nat.mul_one _).symm, by omega⟩)

/-- Rounding is seen in the range of `long`, and where a number below the range is rounded to its end. -/
theorem toLong_nearestInt_iff (n : Int) : toLong (.number (nearestInt n)) = toLong (.number n) ↔
    2 ^ 63 ≤ n ∨ n < -2 ^ 63 - 2 ^ 10 ∨ FitsSignificand n.natAbs := by
  -- above the range nothing is rounded into it, below it the tie is and what is nearer than that
  rw [toLong, toLong, clamp_eq_iff (by decide), ← Binary64.nearestInt_eq_self_iff]
  by_cases hhigh : 2 ^ 63 ≤ n
  · have := Binary64.two_pow_le_nearestInt hhigh
    constructor <;> intro <;> omega
  by_cases hlow : n < -2 ^ 63
  · have := Binary64.nearestInt_lt_iff hlow
    constructor <;> intro <;> omega
  · constructor <;> intro <;> omega

/-- **The text of an integer** is converted to `int` and `long` by way of its double: it is rounded to its
53 leading bits, and from half a unit below `2 ^ 1024` on there is nothing. So it is converted to `int` as
the integer itself is exactly below that limit. For `long` the integer has to be above the range or more
than `2 ^ 10` below it as well, or to have no more than 53 bits in front of its zeros. -/
theorem convert_text_iff (n : Int) :
    (string (Whole.number n).render).convert (.primitive .int) =
        (if n.natAbs < integerLimit then (long (.number (nearestInt n))).convert (.primitive .int)
          else .error .outOfRange) ∧
      (string (Whole.number n).render).convert (.primitive .long) =
        (if n.natAbs < integerLimit then (long (.number (nearestInt n))).convert (.primitive .long)
          else .error .outOfRange) ∧
      ((string (Whole.number n).render).convert (.primitive .int) =
          (long (.number n)).convert (.primitive .int) ↔ n.natAbs < integerLimit) ∧
      ((string (Whole.number n).render).convert (.primitive .long) =
          (long (.number n)).convert (.primitive .long) ↔
        n.natAbs < integerLimit ∧
          (2 ^ 63 ≤ n ∨ n < -2 ^ 63 - 2 ^ 10 ∨ FitsSignificand n.natAbs)) := by
  refine ⟨convert_text_int n, convert_text_long n, ?_, ?_⟩
  · rw [convert_text_int]
    change _ = Except.ok (toInt (.number n)) ↔ _
    split_ifs with hlimit <;> simp [hlimit, toInt_nearestInt]
  -- For `int` rounding never crosses a bound; for `long` it can, just above and just below the range.
  · rw [convert_text_long, ← toLong_nearestInt_iff]
    change _ = Except.ok (toLong (.number n)) ↔ _
    split_ifs with hlimit <;> simp [hlimit]

/-- The first integer of 54 bits that is rounded: its text is converted to the integer before it. -/
theorem convert_text_of_fifty_four_bits :
    (string "9007199254740993").convert (.primitive .long) =
        .ok (long (.number 9007199254740992)) ∧
      (long (.number 9007199254740993)).convert (.primitive .long) =
        .ok (long (.number 9007199254740993)) := by
  have hrender : (Whole.number 9007199254740993).render = "9007199254740993" := by decide
  have hlimit : (9007199254740993 : Int).natAbs < integerLimit :=
    Nat.lt_of_lt_of_le (by decide) BinaryFormat.two_pow_le_integerLimit
  have htext := convert_text_long 9007199254740993
  rw [hrender, if_pos hlimit] at htext
  refine ⟨htext.trans ?_, by decide⟩
  decide

end Literal

end PartitionPruning
