import Mathlib.Data.List.TakeWhile
import Mathlib.Tactic.SplitIfs
import PartitionPruning.Calendar.Iso
import PartitionPruning.Proofs.Numeral.Digits
import PartitionPruning.Proofs.Text.Bytes

/-!
# Texts of dates and times are read back

Dates, times of day and offsets are written in fields of digits of fixed width. The fraction of a second may
be left out when it is zero. A text of this kind is read field by field, so what was written is read back,
whatever follows it. An offset behind a time has no bearing on how the time is read.

* **`digits?_padded`** — a field of digits.
* **`dateParts?_chars`**, **`date?_render`** — dates.
* **`clock?_charsWith`**, **`clock?_next`** — the fields of a time and its fraction, whatever stands behind
  them.
* **`timeParts?_eq_some`** — how a time and its offset are put together.
* **`timeParts?_charsWith`**, **`timeParts?_append`**, **`time?_render`** — times of day, without and with an
  offset.
-/

namespace PartitionPruning

/-! ## Fields of digits -/

namespace Date

variable {width n : Nat} {c : Char}

/-- A padded number is digits alone. -/
theorem isDigit_of_mem_padded (h : c ∈ padded width n) : c.isDigit := by
  simp only [padded, List.mem_append, List.mem_replicate] at h
  rcases h with ⟨_, rfl⟩ | h
  · rfl
  · exact Numeral.isDigit_of_mem_toDigits h

/-- A number that fits is padded to exactly the width. -/
theorem length_padded (hwidth : 0 < width) (h : n < 10 ^ width) :
    (padded width n).length = width := by
  have hle := (Nat.length_toDigits_le_iff (by decide) hwidth).mpr h
  simp only [padded, List.length_append, List.length_replicate]
  omega

/-- Zeros in front of a number do not count. -/
theorem ofDigitChars_padded (width n : Nat) : Nat.ofDigitChars 10 (padded width n) 0 = n := by
  rw [padded, Nat.ofDigitChars_append, Nat.ofDigitChars_replicate_zero, Nat.mul_zero,
    Nat.ofDigitChars_toDigits (by decide) (by decide)]

/-- **A row of digits** is the field of its value. -/
theorem padded_ofDigitChars {ds : List Char} (h : ∀ d ∈ ds, d.isDigit) (hlength : ds.length = width)
    (hwidth : 0 < width) : padded width (Nat.ofDigitChars 10 ds 0) = ds := by
  subst hlength
  refine Numeral.eq_of_ofDigitChars (fun c hc => isDigit_of_mem_padded hc) h
    (length_padded hwidth (Numeral.ofDigitChars_lt h)) ?_
  rw [ofDigitChars_padded]

/-- A padded number has a digit. -/
theorem padded_ne_nil (width n : Nat) : padded width n ≠ [] := by
  simp [padded]

/-- A field of digits starts with a digit. -/
theorem exists_padded_cons (width n : Nat) :
    ∃ d ds, padded width n = d :: ds ∧ d.isDigit := by
  obtain ⟨d, ds, hcons⟩ := List.exists_cons_of_ne_nil (padded_ne_nil width n)
  exact ⟨d, ds, hcons, isDigit_of_mem_padded (hcons ▸ List.mem_cons_self)⟩

/-- A padded number is ASCII. -/
theorem padded_ascii (width n : Nat) : ∀ c ∈ padded width n, c.toNat < 128 := by
  intro c hc
  have hle : c.toNat ≤ '9'.toNat := (Numeral.isDigit_iff.mp (isDigit_of_mem_padded hc)).2
  exact Nat.lt_of_le_of_lt hle (by decide)

end Date

namespace Iso

open Date (padded length_padded isDigit_of_mem_padded ofDigitChars_padded)

/-- Digits are read to the number they write, and the reading stops behind them. -/
theorem digits?_append {cs : List Char} (h : ∀ c ∈ cs, c.isDigit) (value : Nat) (rest : List Char) :
    digits? value cs.length (cs ++ rest) = some (Nat.ofDigitChars 10 cs value, rest) := by
  induction cs generalizing value with
  | nil => rfl
  | cons c cs ih =>
    rw [List.length_cons, List.cons_append, digits?,
      Numeral.asciiDigit?_of_isDigit (h c List.mem_cons_self)]
    exact ih (fun d hd => h d (List.mem_cons_of_mem c hd)) _

/-- **A field of digits** is read back, whatever follows it. -/
theorem digits?_padded {width n : Nat} (hwidth : 0 < width) (h : n < 10 ^ width) (rest : List Char) :
    digits? 0 width (padded width n ++ rest) = some (n, rest) := by
  have hdigits : ∀ c ∈ padded width n, c.isDigit := fun c hc => isDigit_of_mem_padded hc
  have hread := digits?_append hdigits 0 rest
  rwa [length_padded hwidth h, ofDigitChars_padded] at hread

end Iso

/-! ## Dates -/

namespace Date

/-- The characters of the text of a date. -/
def chars (d : Date) : List Char :=
  padded 4 d.year ++ '-' :: padded 2 d.month ++ '-' :: padded 2 d.day

/-- A date is written with the characters of its three fields. -/
theorem render_eq (d : Date) : d.render = String.ofList d.chars := rfl

/-- No month is longer than 31 days. -/
theorem day_le_of_isValid {d : Date} (h : d.isValid = true) : d.day ≤ 31 := by
  simp only [isValid, Bool.and_eq_true, decide_eq_true_eq] at h
  have hshort : ∀ len ∈ monthLengths d.year, len ≤ 31 := by
    cases hleap : isLeap d.year <;> simp [monthLengths, hleap]
  rw [List.getD_eq_getElem?_getD] at h
  cases hlen : (monthLengths d.year)[d.month - 1]? with
  | none => simp [hlen] at h; omega
  | some len =>
    have := hshort len (List.mem_of_getElem? hlen)
    simp only [hlen, Option.getD_some] at h
    omega

/-- The fields of a date are wide enough. -/
theorem fields_lt_of_isValid {d : Date} (h : d.isValid = true) :
    d.year < 10 ^ (4 : Nat) ∧ d.month < 10 ^ (2 : Nat) ∧ d.day < 10 ^ (2 : Nat) := by
  have hday := day_le_of_isValid h
  simp only [isValid, Bool.and_eq_true, decide_eq_true_eq] at h
  have hyear : d.year ≤ 9999 := h.1.1.1.1.2
  omega

/-- The text of a date has ten characters. -/
theorem length_chars {d : Date} (h : d.isValid = true) : d.chars.length = 10 := by
  obtain ⟨hyear, hmonth, hday⟩ := fields_lt_of_isValid h
  simp only [chars, List.length_append, List.length_cons, length_padded (by decide) hyear,
    length_padded (by decide) hmonth, length_padded (by decide) hday]

/-- The day takes ten characters, and what follows starts behind one more. -/
theorem take_drop_chars {d : Date} (h : d.isValid = true) (c : Char) (rest : List Char) :
    (d.chars ++ c :: rest).take 10 = d.chars ∧ (d.chars ++ c :: rest).drop 11 = rest := by
  have hlength := length_chars h
  constructor
  · rw [← hlength, List.take_left]
  · rw [← List.drop_drop (i := 1) (j := 10), ← hlength, List.drop_left]
    rfl

/-- The text of a date is ASCII. -/
theorem chars_ascii (d : Date) : ∀ c ∈ d.chars, c.toNat < 128 := by
  simp only [chars, List.forall_mem_append, List.forall_mem_cons]
  exact ⟨⟨padded_ascii 4 d.year, by decide, padded_ascii 2 d.month⟩, by decide,
    padded_ascii 2 d.day⟩

end Date

namespace Iso

open Date (padded length_padded isDigit_of_mem_padded exists_padded_cons)

/-- **Dates** are read back, whatever follows them. -/
theorem dateParts?_chars {d : Date} (h : d.isValid = true) (rest : List Char) :
    dateParts? (d.chars ++ rest) = some d := by
  obtain ⟨hyear, hmonth, hday⟩ := Date.fields_lt_of_isValid h
  obtain ⟨m, ms, hcons, hdigit⟩ := exists_padded_cons 2 d.month
  have hword : m ≠ 'W' := by
    rintro rfl
    simp at hdigit
  have hchars : d.chars ++ rest =
      padded 4 d.year ++ '-' :: (padded 2 d.month ++ '-' :: (padded 2 d.day ++ rest)) := by
    simp [Date.chars]
  have hmonths := digits?_padded (by decide) hmonth ('-' :: (padded 2 d.day ++ rest))
  rw [hchars, dateParts?, digits?_padded (by decide) hyear]
  simp only [Option.bind_eq_bind, Option.bind_some]
  -- what follows the first hyphen is no week
  rw [hcons, List.cons_append] at hmonths ⊢
  split
  · rename_i heq
    exact absurd (List.cons.inj heq).1 hword
  · rw [hmonths]
    simp only [Option.bind_some, hyphen?, expect?, if_true, digits?_padded (by decide) hday,
      Date.ofParts?, h]

/-- **A date that was written** is read back. -/
theorem date?_render {d : Date} (h : d.isValid = true) : date? d.render = some d := by
  have hread := dateParts?_chars h []
  rw [List.append_nil] at hread
  rw [date?, Date.render_eq, octets_ofList d.chars_ascii]
  simp [Date.length_chars h, hread]

end Iso

/-! ## Times of day -/

namespace TimeOfDay

open Date (padded padded_ascii)

/-- How microseconds may be written behind the seconds: not at all when there are none, or in six digits
behind a mark. -/
inductive WritesMicro : Nat → List Char → Prop
  | nothing : WritesMicro 0 []
  | digits {mark : Char} (hmark : mark = '.' ∨ mark = ',') (micro : Nat) :
      WritesMicro micro (mark :: padded 6 micro)

/-- The characters of a time of day up to its seconds, and the fraction behind them. -/
def charsWith (t : TimeOfDay) (fraction : List Char) : List Char :=
  padded 2 t.hour ++ ':' :: padded 2 t.minute ++ ':' :: padded 2 t.second ++ fraction

/-- The characters of the fraction of a second, of which there are none when it is zero. -/
def fractionChars (t : TimeOfDay) : List Char :=
  if t.micro = 0 then [] else '.' :: padded 6 t.micro

/-- The characters of the text of a time of day. -/
def chars (t : TimeOfDay) : List Char :=
  padded 2 t.hour ++ ':' :: padded 2 t.minute ++ ':' :: padded 2 t.second ++ t.fractionChars

/-- A time is written with the fraction of its own microseconds. -/
theorem chars_eq (t : TimeOfDay) : t.chars = t.charsWith t.fractionChars := rfl

/-- A time is written with the characters of its fields and of its fraction, if there is one. -/
theorem render_eq (t : TimeOfDay) : t.render = String.ofList t.chars := by
  simp [render, chars, fractionChars]

/-- The fields of a time are narrow enough for their digits. -/
theorem fields_lt_of_isValid {t : TimeOfDay} (h : t.isValid = true) :
    t.hour < 10 ^ (2 : Nat) ∧ t.minute < 10 ^ (2 : Nat) ∧ t.second < 10 ^ (2 : Nat) ∧
      t.micro < 10 ^ (6 : Nat) := by
  simp only [isValid, Bool.and_eq_true, decide_eq_true_eq] at h
  omega

/-- The text of a time of day is one way to write its microseconds. -/
theorem writesMicro_fractionChars (t : TimeOfDay) : WritesMicro t.micro t.fractionChars := by
  rw [fractionChars]
  split
  · rename_i hzero
    rw [hzero]
    exact .nothing
  · exact .digits (Or.inl rfl) t.micro

section WritesMicro

variable {t : TimeOfDay} {micro : Nat} {fraction : List Char} {c : Char}

/-- A written fraction is ASCII. -/
theorem WritesMicro.ascii (h : WritesMicro micro fraction) : ∀ c ∈ fraction, c.toNat < 128 := by
  cases h with
  | nothing => simp
  | digits hmark =>
    refine List.forall_mem_cons.mpr ⟨?_, padded_ascii 6 micro⟩
    rcases hmark with rfl | rfl <;> decide

/-- A time written with any such fraction is ASCII. -/
theorem charsWith_ascii (h : WritesMicro micro fraction) :
    ∀ c ∈ t.charsWith fraction, c.toNat < 128 := by
  simp only [charsWith, List.forall_mem_append, List.forall_mem_cons]
  exact ⟨⟨⟨padded_ascii 2 t.hour, by decide, padded_ascii 2 t.minute⟩, by decide,
    padded_ascii 2 t.second⟩, h.ascii⟩

/-- No character of a padded number opens an offset. -/
theorem not_startsOffset_of_mem_padded {width n : Nat} (h : c ∈ padded width n) :
    (!Iso.startsOffset c) = true := by
  have hc := Date.isDigit_of_mem_padded h
  rw [Bool.not_eq_true', Iso.startsOffset]
  simp only [Bool.or_eq_false_iff, decide_eq_false_iff_not]
  -- neither sign is a digit, nor is the letter
  refine ⟨⟨?_, ?_⟩, ?_⟩ <;> rintro rfl <;> simp at hc

/-- No character of a time of day starts an offset. -/
theorem not_startsOffset (hfraction : WritesMicro micro fraction) (h : c ∈ t.charsWith fraction) :
    (!Iso.startsOffset c) = true := by
  -- Digits, colons and the mark of the fraction are all that a time is written with.
  have hmicros (hc : c ∈ fraction) : (!Iso.startsOffset c) = true := by
    cases hfraction with
    | nothing => simp at hc
    | digits hmark =>
      rcases List.mem_cons.mp hc with rfl | hc
      · rcases hmark with rfl | rfl <;> rfl
      · exact not_startsOffset_of_mem_padded hc
  simp only [charsWith, List.mem_append, List.mem_cons] at h
  rcases h with ((h | rfl | h) | rfl | h) | h
  · exact not_startsOffset_of_mem_padded h
  · rfl
  · exact not_startsOffset_of_mem_padded h
  · rfl
  · exact not_startsOffset_of_mem_padded h
  · exact hmicros h

end WritesMicro

end TimeOfDay

namespace Iso

open Date (padded length_padded isDigit_of_mem_padded exists_padded_cons)
open TimeOfDay (WritesMicro)

variable {next : Char} {colons : Option Bool} {fields : List Nat} {left n : Nat}

/-- A field that is followed by a colon. -/
theorem clock?_colon (hcolons : colons.getD true = true) (h : n < 10 ^ (2 : Nat)) {rest : List Char}
    (hrest : rest ≠ []) :
    clock? next colons fields (left + 1) (padded 2 n ++ ':' :: rest) =
      clock? next (some true) (fields ++ [n]) left rest := by
  obtain ⟨c, rest, rfl⟩ := List.exists_cons_of_ne_nil hrest
  rw [clock?, digits?_padded (by decide) h]
  simp [hcolons]

/-- The last field. -/
theorem clock?_end (h : n < 10 ^ (2 : Nat)) :
    clock? next colons fields (left + 1) (padded 2 n) =
      some ⟨fields ++ [n], 0, next == terminator⟩ := by
  have hread := digits?_padded (by decide) h []
  rw [List.append_nil] at hread
  rw [clock?, hread]
  rfl

/-- The last field and the fraction behind it. -/
theorem clock?_fraction (h : n < 10 ^ (2 : Nat)) {k : Nat} (hk : k < 10 ^ (6 : Nat)) {mark : Char}
    (hmark : mark = '.' ∨ mark = ',') :
    clock? next (some true) fields (left + 1) (padded 2 n ++ mark :: padded 6 k) =
      some ⟨fields ++ [n], k, next == terminator⟩ := by
  obtain ⟨d, ds, hcons, _⟩ := exists_padded_cons 6 k
  have hlength := length_padded (by decide) hk
  have hread := digits?_padded (by decide) hk []
  rw [List.append_nil] at hread
  have hfraction : fraction? (fields ++ [n]) next (padded 6 k) =
      some ⟨fields ++ [n], k, next == terminator⟩ := by
    rw [fraction?, hlength]
    simp [hread]
  have hcolon : mark ≠ ':' := by rcases hmark with rfl | rfl <;> decide
  rw [clock?, digits?_padded (by decide) h]
  -- A padded number has a first digit, so the clock does not stop behind the mark.
  rw [hcons] at hfraction ⊢
  simpa [hcolon, hmark] using hfraction

/-- **The clock** of a time of day. -/
theorem clock?_charsWith {t : TimeOfDay} (h : t.isValid = true) {fraction : List Char}
    (hfraction : WritesMicro t.micro fraction) (next : Char) :
    clock? next none [] 3 (t.charsWith fraction) =
      some ⟨[t.hour, t.minute, t.second], t.micro, next == terminator⟩ := by
  obtain ⟨hhour, hminute, hsecond, hmicro⟩ := t.fields_lt_of_isValid h
  have hchars : t.charsWith fraction =
      padded 2 t.hour ++ ':' :: (padded 2 t.minute ++ ':' :: (padded 2 t.second ++ fraction)) := by
    simp [TimeOfDay.charsWith]
  -- The last field is read with colons decided and with the fraction, if any, behind it.
  have hseconds : clock? next (some true) [t.hour, t.minute] 1 (padded 2 t.second ++ fraction) =
      some ⟨[t.hour, t.minute, t.second], t.micro, next == terminator⟩ := by
    generalize t.micro = micro at hfraction hmicro ⊢
    cases hfraction with
    | nothing => rw [List.append_nil, clock?_end hsecond]; rfl
    | digits hmark => exact clock?_fraction hsecond hmicro hmark
  have hne (n : Nat) (rest : List Char) : padded 2 n ++ rest ≠ [] :=
    List.append_ne_nil_of_left_ne_nil (Date.padded_ne_nil 2 n) rest
  rw [hchars, clock?_colon rfl hhour (hne _ _), clock?_colon rfl hminute (hne _ _)]
  exact hseconds

/-! ## What stands behind a time -/

/-- A fraction is read the same whatever byte comes behind the text; only whether it ended there may
differ. -/
theorem fraction?_next {cs : List Char} {c : Clock} (h : fraction? fields next cs = some c)
    (next' : Char) : ∃ ended, fraction? fields next' cs = some { c with ended } := by
  simp only [fraction?, Option.bind_eq_bind, Option.bind_eq_some_iff, Option.pure_def,
    Option.some.injEq] at h ⊢
  obtain ⟨⟨value, rest⟩, hdigits, rfl⟩ := h
  exact ⟨_, (value, rest), hdigits, rfl⟩

/-- **What stands behind a clock** decides only whether the text ends with it. -/
theorem clock?_next {cs : List Char} {c : Clock} (h : clock? next colons fields left cs = some c)
    (next' : Char) : ∃ ended, clock? next' colons fields left cs = some { c with ended } := by
  induction left generalizing colons fields cs with
  | zero => exact fraction?_next h next'
  | succ left ih =>
    rw [clock?] at h ⊢
    obtain ⟨⟨value, rest⟩, hdigits, h⟩ := Option.bind_eq_some_iff.mp h
    rw [hdigits, Option.bind_eq_bind, Option.bind_some]
    -- The byte behind the text is looked at only where the text has run out.
    match rest, h with
    | [], h | [_], h =>
      obtain rfl := Option.some.inj h
      exact ⟨_, rfl⟩
    | d :: e :: more, h =>
      dsimp only at h ⊢
      split_ifs at h ⊢
      · exact ih h
      · exact fraction?_next h next'
      · exact ih h

/-- The offset behind a time, which has to be the end of the text if there is none. -/
def zone? (ended : Bool) : List Char → Option (Option Int)
  | [] => if ended then some none else none
  | z :: zone =>
    if z = 'Z' then if zone.headD terminator = terminator then some (some 0) else none
    else do
      let zoneClock ← clock? terminator none [] 3 zone
      if zoneClock.ended then (offset? (z = '-') zoneClock).map some else none

/-- The time of day with the fields of a clock. -/
def Clock.time (c : Clock) : TimeOfDay := ⟨c.field 0, c.field 1, c.field 2, c.micro⟩

/-- A time is read in two parts: the clock up to where an offset starts, and the offset from there. -/
theorem timeParts?_eq (cs : List Char) :
    timeParts? cs =
      (clock? ((cs.dropWhile (!startsOffset ·)).headD terminator) none [] 3
          (cs.takeWhile (!startsOffset ·))).bind fun c =>
        (zone? c.ended (cs.dropWhile (!startsOffset ·))).bind fun offset =>
          if c.time.isValid then some (c.time, offset) else none := by
  rw [timeParts?]
  refine Option.bind_congr fun c _ => ?_
  -- No offset, the letter for universal time, or a sign with a clock of its own.
  cases cs.dropWhile (!startsOffset ·) with
  | nil => cases c.ended <;> rfl
  | cons z zone =>
    by_cases hz : z = 'Z'
    · by_cases hend : zone.headD terminator = terminator <;>
        simp only [zone?, hz, hend, if_true, if_false] <;> rfl
    · simp only [zone?, hz, if_false]
      cases clock? terminator none [] 3 zone with
      | none => rfl
      | some zoneClock =>
        obtain ⟨_, _, ended⟩ := zoneClock
        cases ended <;> rfl

section TimeParts

variable {cs : List Char} {t : TimeOfDay} {offset : Option Int}

/-- **A time and its offset** are read apart from each other, the offset from the first character on that
starts one. -/
theorem timeParts?_eq_some :
    timeParts? cs = some (t, offset) ↔
      ∃ c, clock? ((cs.dropWhile (!startsOffset ·)).headD terminator) none [] 3
          (cs.takeWhile (!startsOffset ·)) = some c ∧
        zone? c.ended (cs.dropWhile (!startsOffset ·)) = some offset ∧ c.time = t ∧
        t.isValid = true := by
  rw [timeParts?_eq]
  simp only [Option.bind_eq_some_iff, Option.ite_none_right_eq_some, Option.some.injEq,
    Prod.mk.injEq]
  constructor
  · rintro ⟨c, hc, o, ho, hvalid, rfl, rfl⟩
    exact ⟨c, hc, ho, rfl, hvalid⟩
  · rintro ⟨c, hc, ho, rfl, hvalid⟩
    exact ⟨c, hc, offset, ho, hvalid, rfl, rfl⟩

/-- There is an offset exactly when there is text for one. -/
theorem zone?_isSome {ended : Bool} {zone : List Char} (h : zone? ended zone = some offset) :
    offset.isSome ↔ zone ≠ [] := by
  cases zone with
  | nil =>
    rw [zone?] at h
    split_ifs at h
    simp [← Option.some.inj h]
  | cons z zone =>
    rw [zone?] at h
    split_ifs at h
    · simp [← Option.some.inj h]
    · obtain ⟨c, _, h⟩ := Option.bind_eq_some_iff.mp h
      split_ifs at h
      obtain ⟨o, _, rfl⟩ := Option.map_eq_some_iff.mp h
      simp

/-- **There is an offset** if a character starts one. -/
theorem isSome_offset_iff (h : timeParts? cs = some (t, offset)) :
    offset.isSome ↔ ∃ c ∈ cs, startsOffset c = true := by
  obtain ⟨c, _, hzone, _⟩ := timeParts?_eq_some.mp h
  rw [zone?_isSome hzone, ne_eq, List.dropWhile_eq_nil_iff]
  simp

/-- **An offset behind a time** has no bearing on the time. -/
theorem timeParts?_append (h : timeParts? cs = some (t, none)) {z : Char}
    (hsign : z = '+' ∨ z = '-') {zone : List Char} {c : Clock}
    (hclock : clock? terminator none [] 3 zone = some c) (hended : c.ended = true) {o : Int}
    (hoffset : offset? (z = '-') c = some o) :
    timeParts? (cs ++ z :: zone) = some (t, some o) := by
  -- A time that was read without an offset has nothing in it that would start one.
  have hnone : ∀ c ∈ cs, (!startsOffset c) = true := by
    have hno := (isSome_offset_iff h).not.mp (by simp)
    intro c hc
    cases hstarts : startsOffset c with
    | false => rfl
    | true => exact absurd ⟨c, hc, hstarts⟩ hno
  have hz : startsOffset z = true ∧ z ≠ 'Z' := by rcases hsign with rfl | rfl <;> decide
  have hfirst : ∀ c ∈ (z :: zone).head?, (!startsOffset c) = false := by simp [hz.1]
  have hspan := Text.span_append hnone hfirst
  obtain ⟨d, hd, _, htime, hvalid⟩ := timeParts?_eq_some.mp h
  rw [List.takeWhile_eq_self_iff.mpr hnone] at hd
  obtain ⟨ended, hd⟩ := clock?_next hd z
  refine timeParts?_eq_some.mpr ⟨{ d with ended }, ?_, ?_, htime, hvalid⟩
  · rw [hspan.1, hspan.2]
    exact hd
  · rw [hspan.2]
    simp [zone?, hz.2, hclock, hended, hoffset]

end TimeParts

/-! ## Offsets -/

/-- The characters of an offset: a sign, hours and minutes. -/
def offsetChars (negative : Bool) (hour minute : Nat) : List Char :=
  (if negative then '-' else '+') :: (padded 2 hour ++ ':' :: padded 2 minute)

/-- The microseconds of an offset. -/
def offsetMicros (negative : Bool) (hour minute : Nat) : Int :=
  if negative then -((hour * 60 + minute) * 60000000 : Nat) else ((hour * 60 + minute) * 60000000 : Nat)

variable {hour minute : Nat}

/-- A written offset is ASCII. -/
theorem offsetChars_ascii (negative : Bool) (hour minute : Nat) :
    ∀ c ∈ offsetChars negative hour minute, c.toNat < 128 := by
  simp only [offsetChars, List.forall_mem_append, List.forall_mem_cons]
  refine ⟨?_, Date.padded_ascii 2 hour, by decide, Date.padded_ascii 2 minute⟩
  cases negative <;> decide

/-- A written offset takes six characters. -/
theorem length_offsetChars (negative : Bool) (hhour : hour < 10 ^ (2 : Nat))
    (hminute : minute < 10 ^ (2 : Nat)) :
    (offsetChars negative hour minute).length = 6 := by
  rw [offsetChars, List.length_cons, List.length_append, List.length_cons,
    length_padded (by decide) hhour, length_padded (by decide) hminute]

/-- The clock of an offset has no seconds. -/
theorem clock?_offset (hhour : hour < 10 ^ (2 : Nat)) (hminute : minute < 10 ^ (2 : Nat)) :
    clock? terminator none [] 3 (padded 2 hour ++ ':' :: padded 2 minute) =
      some ⟨[hour, minute], 0, true⟩ := by
  rw [clock?_colon rfl hhour (Date.padded_ne_nil 2 minute)]
  exact clock?_end hminute

/-- The fields of an offset are read back to its microseconds, sign included. -/
theorem offset?_fields (negative : Bool) (hhour : hour < 24) (hminute : minute < 60) :
    offset? negative ⟨[hour, minute], 0, true⟩ = some (offsetMicros negative hour minute) := by
  simp only [offset?, Clock.field, List.getD_cons_zero, List.getD_cons_succ, List.getD_nil,
    Nat.add_zero, offsetMicros, TimeOfDay.microsPerDay]
  by_cases hzero : (hour * 60 + minute) * 60 = 0
  · have hsum : hour * 60 + minute = 0 := by omega
    rw [if_pos hzero, hsum]
    cases negative <;> rfl
  · have hmicros : (hour * 60 + minute) * 60 * 1000000 = (hour * 60 + minute) * 60000000 := by omega
    rw [if_neg hzero, hmicros, if_pos (by omega)]

/-! ## Times with what follows them -/

/-- **A time of day** is read back. -/
theorem timeParts?_charsWith {t : TimeOfDay} (h : t.isValid = true) {fraction : List Char}
    (hfraction : WritesMicro t.micro fraction) :
    timeParts? (t.charsWith fraction) = some (t, none) := by
  have hends : ∀ c ∈ ([] : List Char).head?, (!startsOffset c) = false := by simp
  have hspan := Text.span_append (fun c hc => t.not_startsOffset hfraction hc) hends
  rw [List.append_nil] at hspan
  refine timeParts?_eq_some.mpr ⟨⟨[t.hour, t.minute, t.second], t.micro, true⟩, ?_, ?_, rfl, h⟩
  · rw [hspan.1, hspan.2]
    exact clock?_charsWith h hfraction terminator
  · rw [hspan.2]
    rfl

/-- **A time of day with an offset** is read back. -/
theorem timeParts?_offset {cs : List Char} {t : TimeOfDay} (h : timeParts? cs = some (t, none))
    (negative : Bool) (hhour : hour < 24) (hminute : minute < 60) :
    timeParts? (cs ++ offsetChars negative hour minute) =
      some (t, some (offsetMicros negative hour minute)) := by
  have hclock : clock? terminator none [] 3 (padded 2 hour ++ ':' :: padded 2 minute) = _ :=
    clock?_offset (by omega) (by omega)
  have hoffset := offset?_fields negative hhour hminute
  cases negative with
  | false => exact timeParts?_append h (Or.inl rfl) hclock rfl hoffset
  | true => exact timeParts?_append h (Or.inr rfl) hclock rfl hoffset

/-- **A time of day that was written** is read back. -/
theorem time?_render {t : TimeOfDay} (h : t.isValid = true) : time? t.render = some t := by
  have hfraction := t.writesMicro_fractionChars
  obtain ⟨d, ds, hcons, hdigit⟩ := exists_padded_cons 2 t.hour
  rw [time?, t.render_eq, t.chars_eq, octets_ofList (t.charsWith_ascii hfraction)]
  have hhead : ∀ cs, t.charsWith t.fractionChars ≠ 'T' :: cs := by
    intro cs hT
    rw [TimeOfDay.charsWith, hcons] at hT
    rw [(List.cons.inj hT).1] at hdigit
    exact absurd hdigit (by decide)
  split
  · exact absurd ‹_› (hhead _)
  · rw [timeParts?_charsWith h hfraction]
    rfl

end Iso

end PartitionPruning
