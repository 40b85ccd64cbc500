import PartitionPruning.Proofs.DataType.Names
import PartitionPruning.Proofs.Outcome
import Mathlib.Data.List.TakeWhile

/-!
# Which names are accepted as types

A name is accepted as a type if it is one of twelve words, a word with a length in brackets, or a word
with a precision and a scale in parentheses. More names are accepted than these: a line break may stand
behind a length, and any text may stand around a precision and a scale, as long as the whole starts as
the name of a decimal type; of several pairs the first one counts.

* **`Brackets.parse_eq_ok_iff`** — which texts are read as a word with a number in brackets,
* **`findDecimalDigits?_eq_some_iff`** — the digits that are found are those of the first pair,
* **`Tolerated.not_named`** — what is accepted besides the names is no name,
* **`DataType.parse_eq_ok_iff`** — which texts are read as types, and as which ones.
-/

namespace PartitionPruning

open Outcome (bind_eq_ok map_eq_ok pure_eq_ok)

/-! ## Rows of digits -/

namespace Text

/-- No run of ten decimal digits overlaps the blanks, in ASCII or beyond it. -/
theorem digitZeros_apart : ∀ z ∈ digitZeros, 0x21 ≤ z ∧
    (z + 10 ≤ 0x85 ∨ (0xA1 ≤ z ∧ z + 10 ≤ 0x1680) ∨ (0x1681 ≤ z ∧ z + 10 ≤ 0x2000) ∨
      0x3001 ≤ z) := by
  decide

/-- No decimal digit of any script is a blank. -/
theorem isBlank_of_isDecimalDigit {c : Char} (h : isDecimalDigit c = true) : isBlank c = false := by
  have hblank {z : Nat} (hz : z ∈ digitZeros) (hlow : z ≤ c.toNat) (hhigh : c.toNat < z + 10) :
      isBlank c = false := by
    have hapart := digitZeros_apart z hz
    simp only [isBlank, Bool.or_eq_false_iff, Bool.and_eq_false_iff, decide_eq_false_iff_not]
    omega
  unfold isDecimalDigit digitValue? at h
  split_ifs at h with hascii hwide
  · exact Numeral.isBlank_of_isDigit (Numeral.isDigit_iff.mpr hascii)
  · simp at h
  · rw [Option.isSome_map, List.find?_isSome] at h
    obtain ⟨z, hz, hrange⟩ := h
    simp only [Bool.and_eq_true, decide_eq_true_eq] at hrange
    exact hblank hz hrange.1 hrange.2

end Text

namespace Numeral

/-- A row of decimal digits of any script. -/
structure Row where
  chars : List Char
  nonempty : chars ≠ []
  decimal : ∀ c ∈ chars, Text.isDecimalDigit c = true

namespace Row

/-- The number that the digits stand for. -/
def value (r : Row) : Nat := natOfDigits Text.digitValue? r.chars

/-- Whether the row is short enough to be read. -/
def Short (r : Row) : Prop := r.chars.length ≤ digitLimit

instance (r : Row) : Decidable r.Short := inferInstanceAs (Decidable (_ ≤ _))

/-- A row of digits is a number exactly when it is short enough to be read. -/
theorem ofDigits_eq_ok_iff {r : Row} {n : Nat} :
    ofDigits r.chars = .ok n ↔ r.Short ∧ r.value = n := by
  rw [ofDigits, Short, value]
  split
  · rename_i hshort
    simp [hshort]
  · rename_i hlong
    simp [hlong]

/-- A row ends where another character follows. -/
theorem span (r : Row) {c : Char} (h : Text.isDecimalDigit c = false) (rest : List Char) :
    (r.chars ++ c :: rest).takeWhile Text.isDecimalDigit = r.chars ∧
      (r.chars ++ c :: rest).dropWhile Text.isDecimalDigit = c :: rest :=
  Text.span_append r.decimal (by simpa using h)

/-- The digits at the beginning of a text are a row, if there are any. -/
theorem exists_of_takeWhile {cs : List Char} (h : cs.takeWhile Text.isDecimalDigit ≠ []) :
    ∃ r : Row, r.chars = cs.takeWhile Text.isDecimalDigit ∧
      cs = r.chars ++ cs.dropWhile Text.isDecimalDigit :=
  ⟨⟨_, h, fun _ hc => List.mem_takeWhile_imp hc⟩, rfl, List.takeWhile_append_dropWhile.symm⟩

/-- A row of digits holds nothing else. -/
theorem notMem (r : Row) {c : Char} (h : Text.isDecimalDigit c = false) : c ∉ r.chars := by
  intro hc
  simp [r.decimal c hc] at h

/-- The digits that a number is written with. -/
def ofNat (n : Nat) : Row where
  chars := Nat.toDigits 10 n
  nonempty := toDigits_ne_nil n
  decimal _ hc := isDecimalDigit_of_isDigit (isDigit_of_mem_toDigits hc)

/-- The digits of a number write that number. -/
theorem value_ofNat (n : Nat) : (ofNat n).value = n :=
  natOfDigits_toDigits n fun _ => digitValue?_of_isDigit

/-- The digits of a number are short enough exactly when the number can be read. -/
theorem short_ofNat {n : Nat} : (ofNat n).Short ↔ Readable n := Iff.rfl

/-- A row of digits has a first one. -/
theorem exists_cons (r : Row) : ∃ d ds, r.chars = d :: ds ∧ Text.isDecimalDigit d = true := by
  obtain ⟨d, ds, hcons⟩ := List.exists_cons_of_ne_nil r.nonempty
  exact ⟨d, ds, hcons, r.decimal d (hcons ▸ List.mem_cons_self)⟩

end Row

end Numeral

open Numeral (Row)

/-! ## Numbers in brackets -/

namespace Text.Brackets

/-- A word with a row of digits in brackets behind it. -/
def around (word : String) (r : Row) : List Char := word.toList ++ '[' :: (r.chars ++ [']'])

/-- The written form of a number is one of the forms with brackets around a row of digits. -/
theorem around_ofNat (word : String) (n : Nat) :
    around word (.ofNat n) = (written word n).toList := by
  rw [toList_written, around, Row.ofNat]

/-- A name with a number in brackets does not end with a line break. -/
theorem around_append_ne {word other : String} (r r' : Row) :
    around word r ++ ['\n'] ≠ around other r' := by
  intro h
  have hlast := congrArg (fun cs => cs.reverse.head?) h
  simp [around] at hlast

/-- What comes after a word is what the text holds past it. -/
theorem afterWord?_eq_some_iff {word cs rest : List Char} :
    afterWord? word cs = some rest ↔ cs = word ++ rest := by
  refine ⟨fun h => ?_, fun h => h ▸ afterWord?_self rest⟩
  induction word generalizing cs with
  | nil => exact Option.some.inj h
  | cons p word ih =>
    cases cs with
    | nil => cases h
    | cons c cs =>
      rw [afterWord?, Option.ite_none_right_eq_some] at h
      rw [h.1, ih h.2, List.cons_append]

/-- **The digits in brackets**: they fill the brackets, and behind those stands at most a line break. -/
theorem digits?_eq_some_iff {word text : String} {ds : List Char} :
    digits? word text = some ds ↔
      ∃ r : Row, r.chars = ds ∧
        (text.toList = around word r ∨ text.toList = around word r ++ ['\n']) := by
  constructor
  · intro h
    unfold digits? at h
    split at h
    · rename_i rest hafter
      obtain ⟨⟨hne, htail⟩, hds⟩ := Option.ite_none_right_eq_some.mp h
      obtain rfl := Option.some.inj hds
      -- The digits are the longest row there is, so the bracket must come right behind it.
      obtain ⟨r, hchars, hrest⟩ := Row.exists_of_takeWhile hne
      have htext : text.toList = word.toList ++ '[' :: (r.chars ++ rest.dropWhile isDecimalDigit) := by
        rw [← hrest, afterWord?_eq_some_iff.mp hafter]
      refine ⟨r, hchars, htail.imp (fun h => ?_) fun h => ?_⟩ <;> simp [htext, around, h]
    · cases h
  · rintro ⟨r, rfl, htext | htext⟩
    · obtain ⟨htake, hdrop⟩ := r.span (c := ']') (by decide) []
      rw [digits?, htext, around, afterWord?_self]
      simp [htake, hdrop, r.nonempty]
    · obtain ⟨htake, hdrop⟩ := r.span (c := ']') (by decide) ['\n']
      rw [digits?, htext, around, List.append_assoc, afterWord?_self]
      simp [htake, hdrop, r.nonempty]

/-- **A number in brackets** is read if its digits are not too many. -/
theorem parse_eq_ok_iff {word text : String} {n : Nat} :
    parse word text = .ok n ↔
      ∃ r : Row, r.Short ∧ r.value = n ∧
        (text.toList = around word r ∨ text.toList = around word r ++ ['\n']) := by
  unfold parse
  constructor
  · intro h
    split at h
    · rename_i ds hds
      obtain ⟨r, rfl, htext⟩ := digits?_eq_some_iff.mp hds
      obtain ⟨hshort, hvalue⟩ := Row.ofDigits_eq_ok_iff.mp h
      exact ⟨r, hshort, hvalue, htext⟩
    · cases h
  · rintro ⟨r, hshort, hvalue, htext⟩
    rw [digits?_eq_some_iff.mpr ⟨r, rfl, htext⟩]
    exact Row.ofDigits_eq_ok_iff.mpr ⟨hshort, hvalue⟩

/-- What a name with a number in brackets starts with, and what stands in it. -/
theorem start_of_around {word text : String} {r : Row}
    (h : text.toList = around word r ∨ text.toList = around word r ++ ['\n']) :
    word.toList <+: text.toList ∧ '[' ∈ text.toList := by
  rcases h with h | h <;> simp [h, around]

end Text.Brackets

/-! ## A precision and a scale in parentheses -/

namespace DataType

/-- The word for decimals with a precision and a scale in parentheses behind it; blanks may stand in
front of the scale. -/
def decimalForm (precision scale : Row) (blanks : List Char) : List Char :=
  "decimal(".toList ++ (precision.chars ++ ',' :: (blanks ++ (scale.chars ++ [')'])))

/-- A decimal's form with more behind it is one list of characters. -/
theorem decimalForm_append (precision scale : Row) (blanks behind : List Char) :
    decimalForm precision scale blanks ++ behind =
      "decimal(".toList ++ (precision.chars ++ ',' :: (blanks ++ (scale.chars ++ ')' :: behind))) := by
  unfold decimalForm
  simp only [List.append_assoc, List.cons_append, List.nil_append]

/-- Whether a precision and a scale are found behind a beginning of a text. -/
def DecimalAt (cs before : List Char) (precision scale : Row) : Prop :=
  ∃ blanks behind, (∀ b ∈ blanks, Text.isBlank b = true) ∧
    cs = before ++ (decimalForm precision scale blanks ++ behind)

/-- Whether a place is not behind any other place where a precision and a scale are found. -/
def IsFirst (cs before : List Char) : Prop :=
  ∀ before' precision scale, DecimalAt cs before' precision scale → before.length ≤ before'.length

/-- Nothing comes before the front of a text. -/
theorem isFirst_nil (cs : List Char) : IsFirst cs [] := fun _ _ _ _ => Nat.zero_le _

/-- No form of a decimal stands in the empty text. -/
theorem not_decimalAt_nil {before : List Char} {precision scale : Row} :
    ¬ DecimalAt [] before precision scale := by
  rintro ⟨blanks, behind, -, h⟩
  rw [decimalForm_append] at h
  simp at h

/-- A form that stands further on in a text stands one place nearer in its tail. -/
theorem decimalAt_cons {c d : Char} {cs before : List Char} {precision scale : Row} :
    DecimalAt (c :: cs) (d :: before) precision scale ↔
      c = d ∧ DecimalAt cs before precision scale := by
  simp only [DecimalAt, List.cons_append, List.cons.injEq]
  exact ⟨fun ⟨blanks, behind, hblanks, hc, hcs⟩ => ⟨hc, blanks, behind, hblanks, hcs⟩,
    fun ⟨hc, blanks, behind, hblanks, hcs⟩ => ⟨blanks, behind, hblanks, hc, hcs⟩⟩

/-- The blanks in front of a scale end where its digits start. -/
theorem dropWhile_blanks {blanks : List Char} (hblanks : ∀ b ∈ blanks, Text.isBlank b = true)
    (scale : Row) (rest : List Char) :
    (blanks ++ (scale.chars ++ rest)).dropWhile Text.isBlank = scale.chars ++ rest := by
  obtain ⟨d, ds, hcons, hd⟩ := scale.exists_cons
  refine (Text.span_append hblanks ?_).2
  simpa [hcons] using Text.isBlank_of_isDecimalDigit hd

/-- Digits are taken from a form at the very front exactly when there is one. -/
theorem decimalDigits?_eq_some_iff {cs p s : List Char} :
    decimalDigits? cs = some (p, s) ↔
      ∃ precision scale : Row, precision.chars = p ∧ scale.chars = s ∧
        DecimalAt cs [] precision scale := by
  constructor
  · intro h
    unfold decimalDigits? at h
    split at h
    · cases h
    rename_i rest hafter
    dsimp only at h
    split at h
    · rename_i rest' hcomma
      split at h
      · rename_i behind hclose
        obtain ⟨⟨hp, hs⟩, heq⟩ := Option.ite_none_right_eq_some.mp h
        obtain ⟨rfl, rfl⟩ := Prod.mk.inj (Option.some.inj heq)
        -- the two rows of digits and the blanks between them are put together again
        obtain ⟨precision, hprecision, hrest⟩ := Row.exists_of_takeWhile hp
        obtain ⟨scale, hscale, hrest'⟩ := Row.exists_of_takeWhile hs
        refine ⟨precision, scale, hprecision, hscale, rest'.takeWhile Text.isBlank, behind,
          fun _ hb => List.mem_takeWhile_imp hb, ?_⟩
        rw [hcomma] at hrest
        rw [hclose] at hrest'
        have hblanks : rest' = rest'.takeWhile Text.isBlank ++ (scale.chars ++ ')' :: behind) := by
          rw [← hrest', List.takeWhile_append_dropWhile]
        rw [List.nil_append, decimalForm_append, Text.Brackets.afterWord?_eq_some_iff.mp hafter,
          hrest, ← hblanks]
      · cases h
    · cases h
  · rintro ⟨precision, scale, rfl, rfl, blanks, behind, hblanks, rfl⟩
    obtain ⟨hprecision, hcomma⟩ := precision.span (c := ',') (by decide)
      (blanks ++ (scale.chars ++ ')' :: behind))
    obtain ⟨hscale, hclose⟩ := scale.span (c := ')') (by decide) behind
    rw [List.nil_append, decimalForm_append, decimalDigits?, Text.Brackets.afterWord?_self]
    simp only [hprecision, hcomma, dropWhile_blanks hblanks, hscale, hclose]
    simp [precision.nonempty, scale.nonempty]

/-- A place behind a character is the first one if nothing is found at the character. -/
theorem isFirst_cons {c : Char} {cs before : List Char} :
    IsFirst (c :: cs) (c :: before) ↔ decimalDigits? (c :: cs) = none ∧ IsFirst cs before := by
  constructor
  · intro h
    refine ⟨?_, fun before' precision scale hat => ?_⟩
    · -- A form at the front would come before the one further on.
      rw [Option.eq_none_iff_forall_ne_some]
      rintro ⟨p, s⟩ hhere
      obtain ⟨precision, scale, -, -, hat⟩ := decimalDigits?_eq_some_iff.mp hhere
      simpa using h [] precision scale hat
    · simpa using h (c :: before') precision scale (decimalAt_cons.mpr ⟨rfl, hat⟩)
  · rintro ⟨hnone, h⟩ before' precision scale hat
    cases before' with
    | nil =>
      have hhere := decimalDigits?_eq_some_iff.mpr ⟨precision, scale, rfl, rfl, hat⟩
      simp [hnone] at hhere
    | cons d before' => simpa using h before' precision scale (decimalAt_cons.mp hat).2

/-- **The digits that are found** are those of the first precision and scale in the text. -/
theorem findDecimalDigits?_eq_some_iff {cs p s : List Char} :
    findDecimalDigits? cs = some (p, s) ↔
      ∃ before, ∃ precision scale : Row, precision.chars = p ∧ scale.chars = s ∧
        DecimalAt cs before precision scale ∧ IsFirst cs before := by
  induction cs with
  | nil => simp [findDecimalDigits?, not_decimalAt_nil]
  | cons c rest ih =>
    -- Either the form stands here, or none does and the search goes on.
    rw [findDecimalDigits?, Option.or_eq_some_iff, ih]
    constructor
    · rintro (hhere | ⟨hnone, before, precision, scale, hp, hs, hat, hfirst⟩)
      · obtain ⟨precision, scale, hp, hs, hat⟩ := decimalDigits?_eq_some_iff.mp hhere
        exact ⟨[], precision, scale, hp, hs, hat, isFirst_nil _⟩
      · exact ⟨c :: before, precision, scale, hp, hs, decimalAt_cons.mpr ⟨rfl, hat⟩,
          isFirst_cons.mpr ⟨hnone, hfirst⟩⟩
    · rintro ⟨before, precision, scale, hp, hs, hat, hfirst⟩
      cases before with
      | nil => exact Or.inl (decimalDigits?_eq_some_iff.mpr ⟨precision, scale, hp, hs, hat⟩)
      | cons d before =>
        obtain ⟨rfl, hrest⟩ := decimalAt_cons.mp hat
        obtain ⟨hnone, hlater⟩ := isFirst_cons.mp hfirst
        exact Or.inr ⟨hnone, before, precision, scale, hp, hs, hrest, hlater⟩

/-- A decimal is read from the first form in the name, with both rows short enough. -/
theorem parseDecimal_eq_ok_iff {name : String} {t : DataType} :
    parseDecimal name = .ok t ↔
      ∃ before precision scale, DecimalAt name.toList before precision scale ∧
        IsFirst name.toList before ∧ precision.Short ∧ scale.Short ∧
        .primitive (.decimal precision.value scale.value) = t := by
  unfold parseDecimal
  constructor
  · intro h
    split at h
    · cases h
    rename_i p s hfind
    obtain ⟨before, precision, scale, rfl, rfl, hat, hfirst⟩ :=
      findDecimalDigits?_eq_some_iff.mp hfind
    obtain ⟨m, hm, h⟩ := bind_eq_ok.mp h
    obtain ⟨n, hn, h⟩ := bind_eq_ok.mp h
    obtain ⟨hp, rfl⟩ := Row.ofDigits_eq_ok_iff.mp hm
    obtain ⟨hs, rfl⟩ := Row.ofDigits_eq_ok_iff.mp hn
    exact ⟨before, precision, scale, hat, hfirst, hp, hs, pure_eq_ok.mp h⟩
  · rintro ⟨before, precision, scale, hat, hfirst, hp, hs, rfl⟩
    rw [findDecimalDigits?_eq_some_iff.mpr ⟨before, precision, scale, rfl, rfl, hat, hfirst⟩]
    simp only [Row.ofDigits_eq_ok_iff.mpr ⟨hp, rfl⟩, Row.ofDigits_eq_ok_iff.mpr ⟨hs, rfl⟩]
    rfl

/-! ## Names of types -/

/-- The names of types. -/
inductive Named : List Char → Primitive → Prop
  | plain {p : Primitive} (h : p ∈ Primitive.plain) : Named p.render.toList p
  | fixed {length : Row} (h : length.Short) :
      Named (Text.Brackets.around "fixed" length) (.fixed length.value)
  | decimal {precision scale : Row} {blanks : List Char} (hp : precision.Short) (hs : scale.Short)
      (hblanks : ∀ b ∈ blanks, Text.isBlank b = true) :
      Named (decimalForm precision scale blanks) (.decimal precision.value scale.value)

/-- What is accepted besides the names of types. -/
inductive Tolerated : List Char → Primitive → Prop
  | lineBreak {length : Row} (h : length.Short) :
      Tolerated (Text.Brackets.around "fixed" length ++ ['\n']) (.fixed length.value)
  | surrounded {precision scale : Row} {before blanks behind : List Char} (hp : precision.Short)
      (hs : scale.Short) (hblanks : ∀ b ∈ blanks, Text.isBlank b = true)
      (hmore : before ≠ [] ∨ behind ≠ [])
      (hstart : "decimal".toList <+: before ++ (decimalForm precision scale blanks ++ behind))
      (hfirst : IsFirst (before ++ (decimalForm precision scale blanks ++ behind)) before) :
      Tolerated (before ++ (decimalForm precision scale blanks ++ behind))
        (.decimal precision.value scale.value)

/-- Every form of a decimal has an opening parenthesis. -/
theorem paren_mem_decimalForm {precision scale : Row} {blanks : List Char} :
    '(' ∈ decimalForm precision scale blanks := by
  unfold decimalForm
  simp

/-- The first closing parenthesis is the one that ends the form. -/
theorem dropWhile_decimalForm {precision scale : Row} {blanks : List Char}
    (hblanks : ∀ b ∈ blanks, Text.isBlank b = true) (behind : List Char) :
    (decimalForm precision scale blanks ++ behind).dropWhile (· ≠ ')') = ')' :: behind := by
  -- Word, digits, comma and blanks: nothing of it closes a parenthesis.
  have hfront : ∀ c ∈ "decimal(".toList ++ (precision.chars ++ ',' :: (blanks ++ scale.chars)),
      c ≠ ')' := by
    simp only [List.mem_append, List.mem_cons]
    rintro c (hc | hc | hc | hc | hc) rfl
    · exact absurd hc (by decide)
    · exact precision.notMem (by decide) hc
    · exact absurd hc (by decide)
    · exact absurd (hblanks _ hc) (by decide)
    · exact scale.notMem (by decide) hc
  have htext : decimalForm precision scale blanks ++ behind =
      ("decimal(".toList ++ (precision.chars ++ ',' :: (blanks ++ scale.chars))) ++
        ')' :: behind := by
    rw [decimalForm_append]
    simp only [List.append_assoc, List.cons_append]
  rw [htext]
  exact (Text.span_append (by simpa using hfront) (by simp)).2

/-- Nothing stands behind a precision and a scale that end with the text. -/
theorem eq_nil_of_decimalForm_append {precision scale precision' scale' : Row}
    {blanks blanks' behind : List Char} (hblanks : ∀ b ∈ blanks, Text.isBlank b = true)
    (hblanks' : ∀ b ∈ blanks', Text.isBlank b = true)
    (h : decimalForm precision scale blanks ++ behind = decimalForm precision' scale' blanks') :
    behind = [] := by
  have hclose : ')' :: behind = ')' :: [] := by
    rw [← dropWhile_decimalForm hblanks behind, h, ← dropWhile_decimalForm hblanks' [],
      List.append_nil]
  exact (List.cons.inj hclose).2

/-- **What is tolerated** is not a name. -/
theorem Tolerated.not_named {cs : List Char} {p q : Primitive} (h : Tolerated cs p) : ¬ Named cs q := by
  intro hnamed
  cases h with
  | @lineBreak length h =>
    have hopen : '[' ∈ Text.Brackets.around "fixed" length ++ ['\n'] := by
      simp [Text.Brackets.around]
    -- The text is made a variable, so that its names can be told apart by cases.
    generalize hcs : Text.Brackets.around "fixed" length ++ ['\n'] = cs at hnamed hopen
    cases hnamed with
    | plain hp => exact (bracket_notMem_plain _ hp).1 hopen
    | fixed h' => exact Text.Brackets.around_append_ne _ _ hcs
    | decimal hp hs hblanks =>
      have hhead := congrArg List.head? hcs
      unfold decimalForm at hhead
      simp [Text.Brackets.around] at hhead
  | @surrounded precision scale before blanks behind hp hs hblanks hmore hstart hfirst =>
    have hopen : '(' ∈ before ++ (decimalForm precision scale blanks ++ behind) := by
      simp [paren_mem_decimalForm]
    generalize hcs : before ++ (decimalForm precision scale blanks ++ behind) = cs at *
    cases hnamed with
    | plain hp => exact (bracket_notMem_plain _ hp).2 hopen
    | fixed h' => simp [Text.Brackets.around] at hstart
    | @decimal precision' scale' blanks' hp' hs' hblanks' =>
      -- The name's own form stands at the front, so the first form cannot come later.
      have hbefore : before = [] := by
        simpa using hfirst [] precision' scale' ⟨blanks', [], hblanks', by simp⟩
      subst hbefore
      have hbehind := eq_nil_of_decimalForm_append hblanks hblanks' hcs
      simp [hbehind] at hmore

/-- **Any text** may stand behind the name of a decimal type. -/
theorem tolerated_decimal_append {precision scale : Nat} {behind : List Char} (hmore : behind ≠ [])
    (hp : Numeral.Readable precision) (hs : Numeral.Readable scale) :
    Tolerated ((Primitive.decimal precision scale).render.toList ++ behind)
      (.decimal precision scale) := by
  -- The name with nothing in front of it, as the tolerated form wants it.
  have hname : (Primitive.decimal precision scale).render.toList ++ behind =
      [] ++ (decimalForm (.ofNat precision) (.ofNat scale) [' '] ++ behind) := by
    rw [toList_render_decimal, List.nil_append, decimalForm_append]
    simp [Row.ofNat]
  have hstart : "decimal".toList <+:
      [] ++ (decimalForm (.ofNat precision) (.ofNat scale) [' '] ++ behind) := by
    rw [← hname, toList_render_decimal]
    simp
  have hfirst : IsFirst ([] ++ (decimalForm (.ofNat precision) (.ofNat scale) [' '] ++ behind)) [] :=
    isFirst_nil _
  have hblanks : ∀ b ∈ [' '], Text.isBlank b = true := by simp [Text.isBlank]
  have htolerated := Tolerated.surrounded (Row.short_ofNat.mpr hp) (Row.short_ofNat.mpr hs) hblanks
    (Or.inr hmore) hstart hfirst
  rwa [Row.value_ofNat, Row.value_ofNat, ← hname] at htolerated

/-- A line break may stand behind the name of a fixed type. -/
theorem tolerated_fixed_append {length : Nat} (h : Numeral.Readable length) :
    Tolerated ((Primitive.fixed length).render.toList ++ ['\n']) (.fixed length) := by
  have htolerated := Tolerated.lineBreak (Row.short_ofNat.mpr h)
  rwa [Row.value_ofNat, Text.Brackets.around_ofNat, ← render_fixed] at htolerated

/-! ## Reading names -/

/-- A name with an opening bracket is read as a fixed or a decimal type, or not at all. -/
theorem parse_of_opening {name : String} (h : '[' ∈ name.toList ∨ '(' ∈ name.toList) :
    parse name =
      if "fixed".toList.isPrefixOf name.toList then
        (Text.Brackets.parse "fixed" name).map fun length => .primitive (.fixed length)
      else if "decimal".toList.isPrefixOf name.toList then parseDecimal name
      else .error (.unknownType name) := by
  rw [parse, find?_plain_eq_none h]

/-- A fixed type is read from its form, with a final line break or without. -/
theorem parse_of_around {name : String} {length : Row} (hshort : length.Short)
    (hname : name.toList = Text.Brackets.around "fixed" length ∨
      name.toList = Text.Brackets.around "fixed" length ++ ['\n']) :
    parse name = .ok (.primitive (.fixed length.value)) := by
  obtain ⟨hstart, hopen⟩ := Text.Brackets.start_of_around hname
  rw [parse_of_opening (Or.inl hopen), if_pos (List.isPrefixOf_iff_prefix.mpr hstart),
    Text.Brackets.parse_eq_ok_iff.mpr ⟨length, hshort, rfl, hname⟩, Outcome.map_ok]

/-- A decimal is read from a name that opens with the word and has a form somewhere. -/
theorem parse_of_decimalAt {name : String} {before : List Char} {precision scale : Row}
    (hstart : "decimal".toList <+: name.toList) (hat : DecimalAt name.toList before precision scale)
    (hfirst : IsFirst name.toList before) (hp : precision.Short) (hs : scale.Short) :
    parse name = .ok (.primitive (.decimal precision.value scale.value)) := by
  have hopen : '(' ∈ name.toList := by
    obtain ⟨blanks, behind, -, hname⟩ := hat
    simp [hname, paren_mem_decimalForm]
  have hother : ¬ "fixed".toList.isPrefixOf name.toList = true := by
    obtain ⟨rest, hname⟩ := hstart
    simp [← hname]
  rw [parse_of_opening (Or.inr hopen), if_neg hother,
    if_pos (List.isPrefixOf_iff_prefix.mpr hstart)]
  exact parseDecimal_eq_ok_iff.mpr ⟨before, precision, scale, hat, hfirst, hp, hs, rfl⟩

/-- Every name of a type is read to that type. -/
theorem Named.parse_eq {name : String} {p : Primitive} (h : Named name.toList p) :
    parse name = .ok (.primitive p) := by
  generalize hcs : name.toList = cs at h
  cases h with
  | plain hp =>
    have hreadable : ∀ p ∈ Primitive.plain, p.Readable := by decide
    rw [String.toList_inj.mp hcs, parse_render, if_pos (hreadable p hp)]
  | fixed hshort => exact parse_of_around hshort (Or.inl hcs)
  | @decimal precision scale blanks hp hs hblanks =>
    have hat : DecimalAt name.toList [] precision scale := ⟨blanks, [], hblanks, by simp [hcs]⟩
    refine parse_of_decimalAt ?_ hat (isFirst_nil _) hp hs
    rw [hcs]
    unfold decimalForm
    simp

/-- Every name that is tolerated for a type is read to that type. -/
theorem Tolerated.parse_eq {name : String} {p : Primitive} (h : Tolerated name.toList p) :
    parse name = .ok (.primitive p) := by
  generalize hcs : name.toList = cs at h
  cases h with
  | lineBreak hshort => exact parse_of_around hshort (Or.inr hcs)
  | surrounded hp hs hblanks hmore hstart hfirst =>
    exact parse_of_decimalAt (hcs ▸ hstart) ⟨_, _, hblanks, hcs⟩ (hcs ▸ hfirst) hp hs

/-- **Which texts are read as types**: the names, and what is tolerated besides them. -/
theorem parse_eq_ok_iff {name : String} {t : DataType} :
    parse name = .ok t ↔
      ∃ p, .primitive p = t ∧ (Named name.toList p ∨ Tolerated name.toList p) := by
  constructor
  · intro h
    unfold parse at h
    split at h
    · rename_i p hfind
      obtain rfl := Except.ok.inj h
      have hname : p.render = name := by simpa using List.find?_some hfind
      exact ⟨p, rfl, Or.inl (hname ▸ .plain (List.mem_of_find?_eq_some hfind))⟩
    split_ifs at h with hfixed hdecimal
    · obtain ⟨n, hn, rfl⟩ := map_eq_ok.mp h
      obtain ⟨length, hshort, rfl, hname | hname⟩ := Text.Brackets.parse_eq_ok_iff.mp hn
      · exact ⟨_, rfl, Or.inl (hname ▸ .fixed hshort)⟩
      · exact ⟨_, rfl, Or.inr (hname ▸ .lineBreak hshort)⟩
    · obtain ⟨before, precision, scale, ⟨blanks, behind, hblanks, hname⟩, hfirst, hp, hs, rfl⟩ :=
        parseDecimal_eq_ok_iff.mp h
      refine ⟨_, rfl, ?_⟩
      rw [List.isPrefixOf_iff_prefix] at hdecimal
      rw [hname] at hfirst hdecimal ⊢
      -- Nothing before and nothing behind is the name proper.
      by_cases hmore : before ≠ [] ∨ behind ≠ []
      · exact Or.inr (.surrounded hp hs hblanks hmore hdecimal hfirst)
      · obtain ⟨rfl, rfl⟩ : before = [] ∧ behind = [] := by simpa using hmore
        rw [List.nil_append, List.append_nil]
        exact Or.inl (.decimal hp hs hblanks)
  · rintro ⟨p, rfl, h | h⟩
    · exact h.parse_eq
    · exact h.parse_eq

end DataType

end PartitionPruning
