import Mathlib
import PartitionPruning.Proofs.DataType.Acceptance
import PartitionPruning.Text.Pattern.Form

/-!
# Names of plain forms

A form may be any pattern, but those of types and transforms are plain words. The number of a name of such
a form is found by a search for a pattern, and by a look at the word, the brackets and the digits between
them. Both ways find the same digits and read the same number.

* **`Pattern.search_bracketed`** — the search for a word with a number in brackets finds the digits that
  stand there,
* **`Numeral.parse?_digits`** — a row of digits is read as the number that it stands for,
* **`NameForm.agree_number`** — the forms of types and transforms have the numbers that names are read with.
-/

namespace PartitionPruning

namespace Text

/-! ## Parts of the pattern -/

namespace Pattern

/-- One character. -/
def letter (c : Char) : Pattern := .char (.single .exact c.toNat)

/-- The decimal digits of any script. -/
def decimals : CharSet := ⟨false, [.named false .digit], .exact⟩

/-- Digits that are remembered as the first group. -/
def number : Pattern := .group 1 (.row [.times false 1 none (.char decimals)])

/-- The bracket behind the digits, with at most a line break behind it. -/
def closing : Pattern := .row [letter ']', .place .lastLineEnd]

/-- A word with a number in brackets. -/
def bracketed (word : List Char) : Pattern :=
  .row (.place .textStart :: (word.map letter ++ [letter '[', number, letter ']', .place .lastLineEnd]))

theorem contains_decimals (c : Char) : decimals.contains c = isDecimalDigit c := by
  simp [decimals, CharSet.contains, CharItem.contains, CharClass.contains, CharMode.exact]

theorem outcomes_letter (c d : Char) (before rest : List Char) (groups : List (Nat × List Char)) :
    (letter c).outcomes ⟨before, d :: rest, groups⟩ =
      if c = d then [⟨d :: before, rest, groups⟩] else [] := by
  have hsame : (CharSet.single .exact c.toNat).contains d = true ↔ c = d := by
    rw [CharSet.contains_single_exact, Char.toNat_inj]
  simp only [letter, outcomes, Found.step, hsame]

/-- The letters of a word are found one after another. -/
theorem outcomes_word (word : List Char) (ps : List Pattern) (before after : List Char)
    (groups : List (Nat × List Char)) :
    (row (word.map letter ++ ps)).outcomes ⟨before, after, groups⟩ =
      match Brackets.afterWord? word after with
      | some rest => (row ps).outcomes ⟨word.reverse ++ before, rest, groups⟩
      | none => [] := by
  -- The word is matched from the left, and what was read is kept in reverse.
  induction word generalizing before after with
  | nil => rfl
  | cons p word ih =>
    have hrow : row ((p :: word).map letter ++ ps) =
        .both (letter p) (row (word.map letter ++ ps)) := rfl
    rw [hrow, outcomes_both]
    cases after with
    | nil => rfl
    | cons c after =>
      rw [outcomes_letter, Brackets.afterWord?]
      split
      · rename_i hsame
        rw [List.flatMap_singleton, ih, ← hsame, List.reverse_cons, List.append_assoc]
        rfl
      · rfl

end Pattern

/-! ## Digits -/

namespace Found

variable {set : CharSet} {next : Found → List Found}

/-- **As many characters as possible** are found: with fewer of them nothing is found behind that cannot
start with one more. -/
theorem further_flatMap (hnext : ∀ f c rest, f.after = c :: rest → set.contains c = true → next f = [])
    (before after : List Char) (groups : List (Nat × List Char)) :
    (further (step set) false none ⟨before, after, groups⟩).flatMap next =
      next ⟨(after.takeWhile set.contains).reverse ++ before, after.dropWhile set.contains,
        groups⟩ := by
  induction after generalizing before with
  | nil => simp [further, step]
  | cons c rest ih =>
    rw [further]
    by_cases hc : set.contains c = true
    · have hfewer : next ⟨before, c :: rest, groups⟩ = [] := hnext _ c rest rfl hc
      simp [step, hc, ih, hfewer]
    · simp [step, hc]

/-- One character at least, and as many as possible. -/
theorem several_flatMap (hnext : ∀ f c rest, f.after = c :: rest → set.contains c = true → next f = [])
    (before after : List Char) (groups : List (Nat × List Char)) :
    (several (step set) false 1 none ⟨before, after, groups⟩).flatMap next =
      if after.takeWhile set.contains = [] then []
      else next ⟨(after.takeWhile set.contains).reverse ++ before, after.dropWhile set.contains,
        groups⟩ := by
  have hone (f : Found) : exactly (step set) 1 f = step set f := by simp [exactly]
  cases after with
  | nil => rfl
  | cons c rest =>
    rw [several, hone]
    by_cases hc : set.contains c = true
    · simp [step, hc, further_flatMap hnext]
    · simp [step, hc]

end Found

namespace Pattern

/-- The closing bracket is found where a name may end. -/
theorem outcomes_closing (before after : List Char) (groups : List (Nat × List Char)) :
    closing.outcomes ⟨before, after, groups⟩ =
      match after with
      | c :: rest =>
        if c = ']' ∧ (rest = [] ∨ rest = ['\n']) then [⟨c :: before, rest, groups⟩] else []
      | [] => [] := by
  have hrow : closing = both (letter ']') (both (.place .lastLineEnd) .nothing) := rfl
  rw [hrow, outcomes_both]
  cases after with
  | nil => rfl
  | cons c rest =>
    rw [outcomes_letter]
    by_cases hc : ']' = c
    · subst hc
      -- The bracket has to stand at the end of the last line, with at most a line break behind it.
      by_cases hend : rest = [] ∨ rest = ['\n']
      · simp [outcomes, Place.holds, hend]
      · simp [outcomes, Place.holds, hend]
    · rw [if_neg hc]
      exact (if_neg fun h => hc h.1.symm).symm

/-- No digit closes a number. -/
theorem outcomes_closing_of_decimal {f : Found} {c : Char} {rest : List Char} (h : f.after = c :: rest)
    (hc : decimals.contains c = true) : closing.outcomes f = [] := by
  obtain ⟨before, after, groups⟩ := f
  obtain rfl : after = c :: rest := h
  have hne : c ≠ ']' := by
    rintro rfl
    rw [contains_decimals] at hc
    exact absurd hc (by decide)
  rw [outcomes_closing]
  exact if_neg fun h => hne h.1

/-- **A number in brackets** is found where digits fill the brackets and the name ends behind them. -/
theorem outcomes_number (before after : List Char) (groups : List (Nat × List Char)) :
    (number.both closing).outcomes ⟨before, after, groups⟩ =
      if after.takeWhile isDecimalDigit = [] then []
      else closing.outcomes ⟨(after.takeWhile isDecimalDigit).reverse ++ before,
        after.dropWhile isDecimalDigit, (1, after.takeWhile isDecimalDigit) :: groups⟩ := by
  let f : Found := ⟨before, after, groups⟩
  have hnumber : number.outcomes f =
      (Found.several (Found.step decimals) false 1 none f).map (Found.remember 1 f) := by
    simp [number, row, outcomes]
  have hdecimals : decimals.contains = isDecimalDigit := funext contains_decimals
  have hlength : after.length - (after.dropWhile isDecimalDigit).length =
      (after.takeWhile isDecimalDigit).length := by
    have := congrArg List.length (List.takeWhile_append_dropWhile (p := isDecimalDigit) (l := after))
    rw [List.length_append] at this
    omega
  rw [outcomes_both, hnumber, List.flatMap_map, Found.several_flatMap, hdecimals]
  · split
    · rfl
    · -- what is remembered are the characters since the opening bracket
      simp [f, Found.remember, hlength]
  · intro g c rest h hc
    exact outcomes_closing_of_decimal (f := Found.remember 1 f g) h hc

/-- A pattern that starts at the start of the text is found nowhere else. -/
theorem searchFrom_textStart (p : Pattern) {before : List Char} (h : before ≠ []) (after : List Char) :
    (both (.place .textStart) p).searchFrom before after = none := by
  have hnone (before after : List Char) (h : before ≠ []) :
      (both (.place .textStart) p).outcomes ⟨before, after, []⟩ = [] := by
    simp [outcomes, Place.holds, h]
  induction after generalizing before with
  | nil => rw [searchFrom, hnone before [] h, List.head?_nil]
  | cons c rest ih =>
    rw [searchFrom, hnone before _ h, List.head?_nil]
    exact ih (List.cons_ne_nil c before)

/-- It is found at the start or not at all. -/
theorem search_textStart (p : Pattern) (text : String) :
    (both (.place .textStart) p).search text = (p.outcomes (.start text)).head? := by
  have hstart (after : List Char) :
      (both (.place .textStart) p).outcomes ⟨[], after, []⟩ = p.outcomes ⟨[], after, []⟩ := by
    simp [outcomes, Place.holds]
  rw [search, Found.start]
  cases text.toList with
  | nil => rw [searchFrom, hstart]
  | cons c rest =>
    rw [searchFrom, hstart, searchFrom_textStart p (List.cons_ne_nil c [])]
    cases (p.outcomes ⟨[], c :: rest, []⟩).head? <;> rfl

/-- **The search for a word with a number in brackets** finds the digits that stand there. -/
theorem search_bracketed (word name : String) :
    ((bracketed word.toList).search name).map (·.group? 1) =
      (Brackets.digits? word name).map some := by
  have hrow : row [letter '[', number, letter ']', .place .lastLineEnd] =
      both (letter '[') (number.both closing) := rfl
  rw [bracketed, row, List.foldr_cons, ← row, search_textStart, Found.start, outcomes_word,
    Brackets.digits?, hrow]
  cases Brackets.afterWord? word.toList name.toList with
  | none => rfl
  | some behind =>
    cases behind with
    | nil => rfl
    | cons c rest =>
      simp only [outcomes_both (letter '['), outcomes_letter]
      by_cases hc : '[' = c
      · subst hc
        simp only [if_true, List.flatMap_singleton, outcomes_number, outcomes_closing]
        -- The digits are matched as far as they go, and fewer of them leave a digit where the bracket
        -- should be.
        by_cases hnone : rest.takeWhile isDecimalDigit = []
        · simp [hnone]
        · cases htail : rest.dropWhile isDecimalDigit with
          | nil => simp [hnone]
          | cons d tail =>
            have hends : (d :: tail = [']'] ∨ d :: tail = [']', '\n']) ↔
                d = ']' ∧ (tail = [] ∨ tail = ['\n']) := by simp [and_or_left]
            simp only [hnone, hends, if_false, ne_eq, not_false_eq_true, true_and]
            split <;> rfl
      · rw [if_neg hc]
        split
        · rename_i h
          exact absurd (List.cons.inj (Option.some.inj h)).1.symm hc
        · rfl

end Pattern

end Text

/-! ## Numbers -/

namespace Numeral

/-- Digits behind a digit are read to the end. -/
theorem readDigits_of_decimal {cs : List Char} (h : ∀ c ∈ cs, Text.isDecimalDigit c = true)
    (value count : Nat) :
    readDigits Text.digitValue? 10 value count true cs =
      some (cs.foldl (fun n c => 10 * n + (Text.digitValue? c).getD 0) value, count + cs.length) := by
  induction cs generalizing value count with
  | nil => rfl
  | cons c rest ih =>
    rw [List.forall_mem_cons] at h
    obtain ⟨d, hd⟩ := Option.isSome_iff_exists.mp h.1
    have hne : c ≠ '_' := by
      rintro rfl
      exact absurd h.1 (by decide)
    rw [readDigits, if_neg hne, hd]
    simp only [ih h.2, List.foldl_cons, hd, Option.getD_some, List.length_cons]
    rw [Nat.add_assoc, Nat.add_comm 1]

/-- **A row of digits** is read as the number that it stands for, unless it is too long. -/
theorem parse?_digits (r : Row) :
    parse? (String.ofList r.chars) =
      if r.chars.length ≤ digitLimit then some (r.value : Int) else none := by
  obtain ⟨d, ds, hcons, hd⟩ := r.exists_cons
  have hds : ∀ c ∈ ds, Text.isDecimalDigit c = true := fun c hc =>
    r.decimal c (hcons ▸ List.mem_cons_of_mem d hc)
  have hstrip : Text.stripChars Text.isNumeralBlank r.chars = r.chars :=
    Text.stripChars_eq_self fun c hc => by
      simp [Text.isNumeralBlank, Text.isBlank_of_isDecimalDigit (r.decimal c hc)]
  have hsign : splitSign r.chars = (false, r.chars) := by
    rw [hcons]
    unfold splitSign
    split
    · rename_i heq
      obtain ⟨rfl, -⟩ := List.cons.inj heq
      exact absurd hd (by decide)
    · rename_i heq
      obtain ⟨rfl, -⟩ := List.cons.inj heq
      exact absurd hd (by decide)
    · rfl
  -- The digits are read from the first on, since neither a blank, a sign nor an underscore comes before
  -- it.
  have hread : readDigits Text.digitValue? 10 0 0 false r.chars =
      some (r.value, r.chars.length) := by
    obtain ⟨n, hn⟩ := Option.isSome_iff_exists.mp hd
    have hne : d ≠ '_' := by
      rintro rfl
      exact absurd hd (by decide)
    rw [Row.value, natOfDigits, hcons, readDigits, if_neg hne, hn]
    simp only [readDigits_of_decimal hds, List.foldl_cons, hn, Option.getD_some, List.length_cons]
    rw [Nat.zero_add, Nat.add_comm]
  simp only [parse?, String.toList_ofList, hstrip, hsign, hread, Option.bind_eq_bind,
    Option.bind_some, signed_false]

end Numeral

namespace Text.NameForm

/-- The forms of the names of types and transforms are plain words. -/
theorem parse_plain {word : String} (h : word ∈ ["fixed", "bucket", "truncate"]) :
    parse word = .ok ⟨word, .bracketed word.toList⟩ := by
  simp only [List.mem_cons, List.not_mem_nil, or_false] at h
  rcases h with rfl | rfl | rfl
  · cbv
  · cbv
  · cbv

/-- **The number of a name** of a plain form is the one in the brackets. -/
theorem agree_number {word : String} (h : word ∈ ["fixed", "bucket", "truncate"]) :
    ∃ form, parse word = .ok form ∧ ∀ name,
      Outcome.Agree (fun (n : Int) (m : Nat) => n = m) (form.number name)
        (Brackets.parse word name) := by
  refine ⟨_, parse_plain h, fun name => ?_⟩
  have hsearch := Pattern.search_bracketed word name
  rw [number, Brackets.parse]
  cases hdigits : Brackets.digits? word name with
  | none =>
    rw [hdigits, Option.map_none, Option.map_eq_none_iff] at hsearch
    rw [hsearch]
    trivial
  | some digits =>
    obtain ⟨r, rfl, _⟩ := Brackets.digits?_eq_some_iff.mp hdigits
    rw [hdigits, Option.map_some, Option.map_eq_some_iff] at hsearch
    obtain ⟨found, hfound, hgroup⟩ := hsearch
    simp only [hfound, hgroup, Numeral.parse?_digits, Numeral.ofDigits]
    -- Both readings refuse a row beyond the limit, each with a fault of its own.
    by_cases hshort : r.chars.length ≤ Numeral.digitLimit
    · rw [if_pos hshort, if_pos hshort]
      rfl
    · rw [if_neg hshort, if_neg hshort]
      trivial

end Text.NameForm

end PartitionPruning
