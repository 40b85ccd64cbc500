import Mathlib.Data.List.Basic
import Mathlib.Data.List.Induction
import PartitionPruning.DataType.Grammar
import PartitionPruning.Numeral.Power
import PartitionPruning.Numeral.Scientific

/-!
# Decimal numerals are read back

Numbers are written in base ten with ASCII digits and read in several places, by readers that differ in
the digits they know. All of them give the number back that was written, as long as it has no more
digits than the longest numeral that is read.

* **`natOfDigits_toDigits`** — a row of digits stands for the number that was written,
* **`eq_of_ofDigitChars`** — a row of digits is told by its length and its value,
* **`ofDigits_toDigits`** — the limit decides alone whether the number is read back,
* **`readable_of_ofDigits`** — no number that was read is too long to be read again.
-/

namespace PartitionPruning

/-- A run of characters of a class ends where another character follows. -/
theorem Text.span_append {p : Char → Bool} {run rest : List Char} (hrun : ∀ c ∈ run, p c = true)
    (hrest : ∀ c ∈ rest.head?, p c = false) :
    (run ++ rest).takeWhile p = run ∧ (run ++ rest).dropWhile p = rest := by
  rw [List.takeWhile_append_of_pos hrun, List.dropWhile_append_of_pos hrun]
  cases rest with
  | nil => simp
  | cons c rest => simp [hrest c (by simp)]

namespace Numeral

/-- Numbers of twenty digits are far from being too long. -/
theorem readable_of_lt {n : Nat} (h : n < 10 ^ (20 : Nat)) : Readable n := by
  have hcount : digitCount n ≤ 20 := (Nat.length_toDigits_le_iff (by decide) (by decide)).mpr h
  exact Nat.le_trans hcount (by decide)

/-- A number with more digits than the limit cannot be read. -/
theorem not_readable_of_le {n : Nat} (h : 10 ^ digitLimit ≤ n) : ¬ Readable n := by
  intro hlength
  have hlt := (Nat.length_toDigits_le_iff (by decide) (by decide)).mp hlength
  omega

/-! ## ASCII digits -/

/-- The ASCII digits stand between `0` and `9`. -/
theorem isDigit_iff {c : Char} : c.isDigit ↔ '0' ≤ c ∧ c ≤ '9' := by
  simp [Char.isDigit, Char.le_def]

/-- The value of an ASCII digit is its distance from `0`. -/
theorem asciiDigit?_of_isDigit {c : Char} (h : c.isDigit) :
    Text.asciiDigit? c = some (c.toNat - '0'.toNat) := by
  rw [Text.asciiDigit?, if_pos (isDigit_iff.mp h)]
  rfl

/-- An ASCII digit has the same value among the digits of all scripts. -/
theorem digitValue?_of_isDigit {c : Char} (h : c.isDigit) :
    Text.digitValue? c = some (c.toNat - '0'.toNat) := by
  rw [Text.digitValue?, if_pos (isDigit_iff.mp h)]
  rfl

/-- A digit is no blank. -/
theorem isBlank_of_isDigit {c : Char} (h : c.isDigit) : Text.isBlank c = false := by
  obtain ⟨hlow, hhigh⟩ := isDigit_iff.mp h
  have hlow : 0x30 ≤ c.toNat := hlow
  have hhigh : c.toNat ≤ 0x39 := hhigh
  simp only [Text.isBlank, Bool.or_eq_false_iff, Bool.and_eq_false_iff, decide_eq_false_iff_not]
  omega

/-- An ASCII digit is a decimal digit. -/
theorem isDecimalDigit_of_isDigit {c : Char} (h : c.isDigit) : Text.isDecimalDigit c := by
  simp [Text.isDecimalDigit, digitValue?_of_isDigit h]

/-- Numbers are written with ASCII digits. -/
theorem isDigit_of_mem_toDigits {n : Nat} {c : Char} (h : c ∈ Nat.toDigits 10 n) : c.isDigit :=
  Nat.isDigit_of_mem_toDigits (by decide) (by decide) h

/-- Every number has a digit. -/
theorem toDigits_ne_nil (n : Nat) : Nat.toDigits 10 n ≠ [] :=
  List.ne_nil_of_length_pos Nat.length_toDigits_pos

/-- A numeral starts with a digit. -/
theorem exists_toDigits_cons (n : Nat) : ∃ d ds, Nat.toDigits 10 n = d :: ds ∧ d.isDigit := by
  obtain ⟨d, ds, hcons⟩ := List.exists_cons_of_ne_nil (toDigits_ne_nil n)
  exact ⟨d, ds, hcons, isDigit_of_mem_toDigits (hcons ▸ List.mem_cons_self)⟩

/-! ## Reading what was written -/

/-- Digits are read to the number they write, whichever reading of a digit is used. -/
theorem natOfDigits_of_isDigit {digit? : Char → Option Nat} {cs : List Char}
    (h : ∀ c ∈ cs, digit? c = some (c.toNat - '0'.toNat)) :
    natOfDigits digit? cs = Nat.ofDigitChars 10 cs 0 := by
  rw [natOfDigits, Nat.ofDigitChars_eq_foldl]
  exact List.foldl_ext _ _ _ fun n c hc => by rw [h c hc, Option.getD_some]

/-- **A row of digits** stands for the number that was written, whichever other digits are known. -/
theorem natOfDigits_toDigits {digit? : Char → Option Nat} (n : Nat)
    (h : ∀ c, c.isDigit → digit? c = some (c.toNat - '0'.toNat)) :
    natOfDigits digit? (Nat.toDigits 10 n) = n := by
  rw [natOfDigits_of_isDigit fun c hc => h c (isDigit_of_mem_toDigits hc),
    Nat.ofDigitChars_toDigits (by decide) (by decide)]

/-- **Digits of one length and one value** are the same. -/
theorem eq_of_ofDigitChars {cs ds : List Char} (hcs : ∀ c ∈ cs, c.isDigit)
    (hds : ∀ d ∈ ds, d.isDigit) (hlength : cs.length = ds.length)
    (h : Nat.ofDigitChars 10 cs 0 = Nat.ofDigitChars 10 ds 0) : cs = ds := by
  induction cs using List.reverseRecOn generalizing ds with
  | nil => exact (List.length_eq_zero_iff.mp hlength.symm).symm
  | append_singleton cs c ih =>
    obtain ⟨ds, d, rfl⟩ := (List.eq_nil_or_concat' ds).resolve_left (by rintro rfl; simp at hlength)
    simp only [List.forall_mem_append, List.forall_mem_singleton] at hcs hds
    simp only [List.length_append, List.length_singleton, Nat.add_right_cancel_iff] at hlength
    rw [Nat.ofDigitChars_append, Nat.ofDigitChars_append, Nat.ofDigitChars_cons,
      Nat.ofDigitChars_cons, Nat.ofDigitChars_nil, Nat.ofDigitChars_nil] at h
    -- the last digits are the remainders of the values
    have hcode {c : Char} (hc : c.isDigit) : '0'.toNat ≤ c.toNat ∧ c.toNat ≤ '0'.toNat + 9 :=
      isDigit_iff.mp hc
    have hc := hcode hcs.2
    have hd := hcode hds.2
    have hlast : c = d := Char.toNat_inj.mp (by omega)
    rw [ih hcs.1 hds.1 hlength (by omega), hlast]

/-- **The numeral of a number** is read unless it is too long. -/
theorem ofDigits_toDigits (n : Nat) :
    ofDigits (Nat.toDigits 10 n) = if Readable n then .ok n else .error .numeralTooLong := by
  rw [ofDigits, natOfDigits_toDigits n fun _ => digitValue?_of_isDigit]
  rfl

/-! ## Numbers that were read -/

/-- So many digits read to a number below that power of ten. -/
theorem natOfDigits_lt {digit? : Char → Option Nat} (h : ∀ c d, digit? c = some d → d < 10)
    (cs : List Char) : natOfDigits digit? cs < 10 ^ cs.length := by
  induction cs using List.reverseRecOn with
  | nil => simp [natOfDigits]
  | append_singleton cs c ih =>
    have hlast : (digit? c).getD 0 < 10 := by
      cases hc : digit? c with
      | none => simp
      | some d => exact h c d hc
    rw [natOfDigits] at ih ⊢
    rw [List.foldl_append, List.length_append, List.length_singleton, Nat.pow_succ]
    simp only [List.foldl_cons, List.foldl_nil]
    omega

/-- So many digits write a number below that power of ten. -/
theorem ofDigitChars_lt {ds : List Char} (h : ∀ d ∈ ds, d.isDigit) :
    Nat.ofDigitChars 10 ds 0 < 10 ^ ds.length := by
  rw [← natOfDigits_of_isDigit fun d hd => digitValue?_of_isDigit (h d hd)]
  exact natOfDigits_lt (fun _ _ => Text.digitValue?_lt) ds

/-- **No number that was read** is too long to be read again. -/
theorem readable_of_ofDigits {digits : List Char} {n : Nat} (hne : digits ≠ [])
    (h : ofDigits digits = .ok n) : Readable n := by
  unfold ofDigits at h
  split at h
  · rename_i hlen
    obtain rfl := Except.ok.inj h
    have hpos := List.length_pos_iff.mpr hne
    have hlt : natOfDigits Text.digitValue? digits < 10 ^ digits.length :=
      natOfDigits_lt (fun _ _ => Text.digitValue?_lt) digits
    have hcount := (Nat.length_toDigits_le_iff (by decide) hpos).mpr hlt
    exact Nat.le_trans hcount hlen
  · cases h

end Numeral

end PartitionPruning
