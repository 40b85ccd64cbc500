import PartitionPruning.Proofs.Calendar.Moments

/-!
# What was read was written

The shape of a timestamp admits digits of any script, while its parts are read from bytes, among which only
ASCII digits are digits. A text that has the shape and whose parts are read is therefore made of ASCII
fields, and these are the fields of the date and of the time that were read.

* **`digits?_bytes`** — digits that are read as bytes are ASCII digits.
* **`exists_fields`** — a text with the shape of a timestamp is made of rows of digits.
* **`dateParts?_bytes`** — a date between hyphens is the text of the date that is read.
* **`clock?_bytes`** — hours, minutes and seconds between colons are the fields of the clock.
* **`clock?_plain`**, **`clock?_plain_inv`** — pairs of digits without colons.
-/

namespace PartitionPruning

namespace Iso

open Date (padded length_padded isDigit_of_mem_padded padded_ofDigitChars)

/-! ## The bytes of digits -/

/-- A hyphen is one byte. -/
theorem bytes_hyphen (cs : List Char) : bytes ('-' :: cs) = '-' :: bytes cs :=
  bytes_cons_ascii (by decide) cs

/-- A byte read as a digit is an ASCII digit and has that digit's value. -/
theorem isDigit_of_asciiDigit? {c : Char} {d : Nat} (h : Text.asciiDigit? c = some d) :
    c.isDigit ∧ d = c.toNat - '0'.toNat := by
  unfold Text.asciiDigit? at h
  split at h
  · rename_i hc
    exact ⟨Numeral.isDigit_iff.mpr hc, (Option.some.inj h).symm⟩
  · cases h

/-- An ASCII digit is one byte. -/
theorem ascii_of_isDigit {c : Char} (h : c.isDigit) : c.toNat < 128 :=
  Nat.lt_of_le_of_lt (Numeral.isDigit_iff.mp h).2 (by decide)

/-- Only an ASCII digit has a first byte that is read as a digit. -/
theorem isDigit_of_bytesOf {c b : Char} {bs : List Char} (h : bytesOf c = b :: bs) {d : Nat}
    (hd : Text.asciiDigit? b = some d) : c.isDigit := by
  have hb := (isDigit_of_asciiDigit? hd).1
  by_cases hc : c.toNat < 128
  · rw [bytesOf_ascii hc] at h
    rwa [(List.cons.inj h).1]
  · have hwide := not_ascii_of_mem_bytesOf (Nat.le_of_not_lt hc) (h ▸ List.mem_cons_self)
    exact absurd (ascii_of_isDigit hb) (Nat.not_lt.mpr hwide)

/-- **Digits that are read as bytes** are ASCII digits, also when the bytes are cut off somewhere behind
them. -/
theorem digits?_bytes {ds : List Char} {k : Nat} (hk : ds.length ≤ k) {value : Nat}
    {tail rest : List Char} {n : Nat}
    (h : digits? value ds.length ((bytes ds ++ tail).take k) = some (n, rest)) :
    (∀ d ∈ ds, d.isDigit) ∧ n = Nat.ofDigitChars 10 ds value ∧ rest = tail.take (k - ds.length) := by
  induction ds generalizing k value with
  | nil =>
    obtain ⟨rfl, rfl⟩ := Prod.mk.inj (Option.some.inj h)
    exact ⟨by simp, rfl, rfl⟩
  | cons d ds ih =>
    obtain ⟨k, rfl⟩ : ∃ k', k = k' + 1 := ⟨k - 1, by simp at hk; omega⟩
    obtain ⟨b, bs, hbytes⟩ := List.exists_cons_of_ne_nil (bytesOf_ne_nil d)
    rw [bytes_cons, hbytes, List.cons_append, List.cons_append, List.take_succ_cons,
      List.length_cons, digits?] at h
    split at h
    -- A byte that is a digit is a whole character, so the induction goes on at a character's border.
    · rename_i v hv
      have hdigit := isDigit_of_bytesOf hbytes hv
      rw [bytesOf_ascii (ascii_of_isDigit hdigit)] at hbytes
      obtain ⟨rfl, rfl⟩ := List.cons.inj hbytes
      obtain ⟨hdigits, rfl, rfl⟩ := ih (by simp at hk; omega) h
      refine ⟨List.forall_mem_cons.mpr ⟨hdigit, hdigits⟩, ?_, by simp⟩
      rw [Nat.ofDigitChars_cons, (isDigit_of_asciiDigit? hv).2]
    · cases h

/-- Digits that are read off the bytes of as many characters were all ASCII digits. A digit of another
script takes several bytes, none of them a digit. -/
theorem digits?_bytes_append {ds : List Char} {value : Nat} {tail rest : List Char} {n : Nat}
    (h : digits? value ds.length (bytes ds ++ tail) = some (n, rest)) :
    (∀ d ∈ ds, d.isDigit) ∧ n = Nat.ofDigitChars 10 ds value ∧ rest = tail := by
  have htake : (bytes ds ++ tail).take (tail.length + (bytes ds).length + ds.length) =
      bytes ds ++ tail := List.take_of_length_le (by simp; omega)
  rw [← htake] at h
  obtain ⟨hdigits, hn, hrest⟩ := digits?_bytes (by omega) h
  refine ⟨hdigits, hn, ?_⟩
  rw [hrest, List.take_of_length_le (by omega)]

/-- The bytes of a digit of any script start no offset, and none of them has a meaning of its own. -/
theorem isDigit_or_wide {c b : Char} (hc : Text.isDecimalDigit c = true) (h : b ∈ bytesOf c) :
    b.isDigit ∨ 128 ≤ b.toNat := by
  by_cases hascii : c.toNat < 128
  · rw [bytesOf_ascii hascii, List.mem_singleton] at h
    subst h
    rw [Text.isDecimalDigit, Text.digitValue?] at hc
    split at hc
    · rename_i hdigit
      exact Or.inl (Numeral.isDigit_iff.mpr hdigit)
    · simp at hc
  · exact Or.inr (not_ascii_of_mem_bytesOf (Nat.le_of_not_lt hascii) h)

/-- The bytes of decimal digits are ASCII digits, or belong to a wide character. -/
theorem isDigit_or_wide_of_mem_bytes {ds : List Char} (h : ∀ d ∈ ds, Text.isDecimalDigit d = true)
    {b : Char} (hb : b ∈ bytes ds) : b.isDigit ∨ 128 ≤ b.toNat := by
  obtain ⟨d, hd, hb⟩ := List.mem_flatMap.mp hb
  exact isDigit_or_wide (h d hd) hb

/-- No byte of a row of digits is an ASCII character other than a digit. -/
theorem ne_of_isDigit_or_wide {b c : Char} (hb : b.isDigit ∨ 128 ≤ b.toNat)
    (hc : c.isDigit = false) (hascii : c.toNat < 128) : b ≠ c := by
  rintro rfl
  rcases hb with hb | hb
  · rw [hc] at hb
    cases hb
  · omega

/-! ## Shapes -/

/-- As many digits as are asked for, of any script. -/
def DigitRow (width : Nat) (ds : List Char) : Prop :=
  ds.length = width ∧ ∀ d ∈ ds, Text.isDecimalDigit d = true

/-- A shape that opens with zeros takes a row of that many decimal digits. -/
theorem dropShape?_digits_inv {width : Nat} {shape cs rest : List Char}
    (h : dropShape? (List.replicate width '0' ++ shape) cs = some rest) :
    ∃ ds more, DigitRow width ds ∧ cs = ds ++ more ∧ dropShape? shape more = some rest := by
  -- On the zeros that are left in the shape.
  induction width generalizing cs with
  | zero => exact ⟨[], cs, ⟨rfl, by simp⟩, rfl, h⟩
  | succ width ih =>
    rw [List.replicate_succ, List.cons_append] at h
    cases cs with
    | nil => cases h
    | cons c cs =>
      rw [dropShape?] at h
      simp only [if_true] at h
      split at h
      · rename_i hc
        obtain ⟨ds, more, ⟨hlength, hds⟩, rfl, hmore⟩ := ih h
        exact ⟨c :: ds, more, ⟨congrArg Nat.succ hlength, List.forall_mem_cons.mpr ⟨hc, hds⟩⟩, rfl,
          hmore⟩
      · cases h

/-- A shape of zeros and then a separator takes a row of digits and that separator. -/
theorem dropShape?_row_inv {width : Nat} {c : Char} (hc : c ≠ '0') {shape cs rest : List Char}
    (h : dropShape? (List.replicate width '0' ++ c :: shape) cs = some rest) :
    ∃ ds more, DigitRow width ds ∧ cs = ds ++ c :: more ∧ dropShape? shape more = some rest := by
  obtain ⟨ds, more, hds, rfl, hmore⟩ := dropShape?_digits_inv h
  cases more with
  | nil => cases hmore
  | cons d more =>
    rw [dropShape?] at hmore
    simp only [if_neg hc, decide_eq_true_eq] at hmore
    split at hmore
    · rename_i hd
      subst hd
      exact ⟨ds, more, hds, rfl, hmore⟩
    · cases hmore

/-- **The rows of digits** of a text that starts with a day and a time to the second. -/
structure Fields (text : String) (rest : List Char) where
  (year month day hour minute second : List Char)
  year_row : DigitRow 4 year
  month_row : DigitRow 2 month
  day_row : DigitRow 2 day
  hour_row : DigitRow 2 hour
  minute_row : DigitRow 2 minute
  second_row : DigitRow 2 second
  toList_eq : text.toList = year ++ '-' :: (month ++ '-' :: (day ++ 'T' ::
    (hour ++ ':' :: (minute ++ ':' :: (second ++ rest)))))

/-- A text of the shape of a moment splits into its six fields of digits and the rest. -/
theorem exists_fields {text : String} {rest : List Char} (h : afterSeconds? text = some rest) :
    Nonempty (Fields text rest) := by
  rw [afterSeconds?] at h
  change dropShape? (List.replicate 4 '0' ++ '-' :: (List.replicate 2 '0' ++ '-' ::
    (List.replicate 2 '0' ++ 'T' :: (List.replicate 2 '0' ++ ':' :: (List.replicate 2 '0' ++ ':' ::
      (List.replicate 2 '0' ++ [])))))) _ = _ at h
  -- one row after the other, each with the character behind it
  obtain ⟨ys, _, hys, htext, hmonth⟩ := dropShape?_row_inv (by decide) h
  obtain ⟨ms, _, hms, rfl, hday⟩ := dropShape?_row_inv (by decide) hmonth
  obtain ⟨ds, _, hds, rfl, hhour⟩ := dropShape?_row_inv (by decide) hday
  obtain ⟨hs, _, hhs, rfl, hminute⟩ := dropShape?_row_inv (by decide) hhour
  obtain ⟨mins, _, hmins, rfl, hsecond⟩ := dropShape?_row_inv (by decide) hminute
  obtain ⟨ss, _, hss, rfl, hrest⟩ := dropShape?_digits_inv hsecond
  obtain rfl := Option.some.inj hrest
  exact ⟨⟨ys, ms, ds, hs, mins, ss, hys, hms, hds, hhs, hmins, hss, htext⟩⟩

/-- The bytes of such a text are those of its fields, with the separators between them. -/
theorem Fields.octets_eq {text : String} {rest : List Char} (fields : Fields text rest) :
    octets text = bytes fields.year ++ '-' :: (bytes fields.month ++ '-' ::
      (bytes fields.day ++ 'T' :: (bytes fields.hour ++ ':' :: (bytes fields.minute ++ ':' ::
        (bytes fields.second ++ bytes rest))))) := by
  rw [Iso.octets_eq, fields.toList_eq]
  simp only [bytes_append, bytes_hyphen, bytes_cons_ascii (c := ':') (by decide),
    bytes_cons_ascii (c := 'T') (by decide)]

/-! ## Dates -/

variable {tail : List Char}

/-- **A date between hyphens** is the text of the date that is read. -/
theorem dateParts?_bytes {ys ms ds : List Char} (hys : DigitRow 4 ys) (hms : DigitRow 2 ms)
    (hds : DigitRow 2 ds) {d : Date}
    (h : dateParts? ((bytes ys ++ '-' :: (bytes ms ++ '-' :: (bytes ds ++ tail))).take 10) =
      some d) :
    d.isValid = true ∧ d.chars = ys ++ '-' :: ms ++ '-' :: ds := by
  obtain ⟨hys, _⟩ := hys
  obtain ⟨hms, hm⟩ := hms
  obtain ⟨hds, _⟩ := hds
  obtain ⟨⟨year, rest⟩, hyear, h⟩ := Option.bind_eq_some_iff.mp h
  rw [← hys] at hyear
  obtain ⟨hyd, rfl, rfl⟩ := digits?_bytes (by omega) hyear
  rw [hys] at h
  simp only [Nat.reduceSub, List.take_succ_cons] at h
  -- a digit follows the hyphen, which starts no week
  split at h
  · rename_i r heq
    obtain ⟨m, ms, rfl⟩ := List.exists_cons_of_ne_nil (l := ms) (by rintro rfl; simp at hms)
    obtain ⟨b, bs, hb⟩ := List.exists_cons_of_ne_nil (bytesOf_ne_nil m)
    have hdigit := isDigit_or_wide (hm m List.mem_cons_self) (hb ▸ List.mem_cons_self)
    rw [bytes_cons, hb, List.cons_append, List.cons_append, List.take_succ_cons] at heq
    exact absurd (List.cons.inj heq).1 (ne_of_isDigit_or_wide hdigit rfl (by decide))
  · obtain ⟨⟨month, rest⟩, hmonth, h⟩ := Option.bind_eq_some_iff.mp h
    rw [← hms] at hmonth
    obtain ⟨hmd, rfl, rfl⟩ := digits?_bytes (by omega) hmonth
    rw [hms] at h
    simp only [Nat.reduceSub, List.take_succ_cons, hyphen?, expect?, if_true] at h
    obtain ⟨rest, hrest, h⟩ := Option.bind_eq_some_iff.mp h
    obtain rfl := Option.some.inj hrest
    obtain ⟨⟨day, rest⟩, hday, h⟩ := Option.bind_eq_some_iff.mp h
    rw [← hds] at hday
    obtain ⟨hdd, rfl, rfl⟩ := digits?_bytes (by omega) hday
    rw [Date.ofParts?] at h
    split at h
    · rename_i hvalid
      obtain rfl := Option.some.inj h
      refine ⟨hvalid, ?_⟩
      rw [Date.chars, padded_ofDigitChars hyd hys (by decide), padded_ofDigitChars hmd hms (by decide),
        padded_ofDigitChars hdd hds (by decide)]
    · cases h

/-! ## Clocks -/

/-- Reading some digits and then some more is reading them together. -/
theorem digits?_add (m n value : Nat) (cs : List Char) :
    digits? value (m + n) cs = (digits? value m cs).bind fun read => digits? read.1 n read.2 := by
  induction m generalizing value cs with
  | zero => rw [Nat.zero_add]; rfl
  | succ m ih =>
    rw [Nat.succ_add]
    cases cs with
    | nil => rfl
    | cons c cs =>
      rw [digits?, digits?]
      cases Text.asciiDigit? c with
      | none => rfl
      | some d => exact ih _ _

/-- Bytes that run out leave a field unread. -/
theorem digits?_short (ds : List Char) (value k : Nat) :
    digits? value (ds.length + (k + 1)) (bytes ds) = none := by
  rw [digits?_add]
  cases h : digits? value ds.length (bytes ds) with
  | none => rfl
  | some read =>
    obtain ⟨n, rest⟩ := read
    rw [← List.append_nil (bytes ds)] at h
    obtain ⟨_, _, rfl⟩ := digits?_bytes_append h
    rfl

section Clock

variable {next : Char} {colons : Option Bool} {fields : List Nat} {left : Nat} {c : Clock}

/-- A field before a colon that is read was two ASCII digits, and decides that the fields are separated
by colons. -/
theorem clock?_colon_bytes {ds : List Char} (hds : ds.length = 2) (htail : tail ≠ [])
    (hcolons : colons.getD true = true)
    (h : clock? next colons fields (left + 1) (bytes ds ++ ':' :: tail) = some c) :
    (∀ d ∈ ds, d.isDigit) ∧
      clock? next (some true) (fields ++ [Nat.ofDigitChars 10 ds 0]) left tail = some c := by
  obtain ⟨⟨n, rest⟩, hread, h⟩ := Option.bind_eq_some_iff.mp h
  rw [← hds] at hread
  obtain ⟨hdigits, rfl, rfl⟩ := digits?_bytes_append hread
  obtain ⟨e, tail, rfl⟩ := List.exists_cons_of_ne_nil htail
  exact ⟨hdigits, by simpa [hcolons] using h⟩

/-- A last field that is read was two ASCII digits. -/
theorem clock?_end_bytes {ds : List Char} (hds : ds.length = 2)
    (h : clock? next colons fields (left + 1) (bytes ds) = some c) :
    (∀ d ∈ ds, d.isDigit) ∧ c = ⟨fields ++ [Nat.ofDigitChars 10 ds 0], 0, next == terminator⟩ := by
  obtain ⟨⟨n, rest⟩, hread, h⟩ := Option.bind_eq_some_iff.mp h
  rw [← hds, ← List.append_nil (bytes ds)] at hread
  obtain ⟨hdigits, rfl, rfl⟩ := digits?_bytes_append hread
  exact ⟨hdigits, (Option.some.inj h).symm⟩

/-- **The clock between colons** has the fields of its text. -/
theorem clock?_bytes {hs ms ss : List Char} (hhs : DigitRow 2 hs) (hms : DigitRow 2 ms)
    (hss : DigitRow 2 ss)
    (h : clock? next none [] 3 (bytes hs ++ ':' :: (bytes ms ++ ':' :: bytes ss)) = some c) :
    c.micro = 0 ∧ padded 2 (c.field 0) = hs ∧ padded 2 (c.field 1) = ms ∧
      padded 2 (c.field 2) = ss := by
  obtain ⟨hhours, h⟩ := clock?_colon_bytes hhs.1 (by simp) rfl h
  have hne : bytes ss ≠ [] := bytes_ne_nil (by rintro rfl; cases hss.1)
  obtain ⟨hminutes, h⟩ := clock?_colon_bytes hms.1 hne rfl h
  obtain ⟨hseconds, rfl⟩ := clock?_end_bytes hss.1 h
  exact ⟨rfl, padded_ofDigitChars hhours hhs.1 (by decide), padded_ofDigitChars hminutes hms.1 (by decide),
    padded_ofDigitChars hseconds hss.1 (by decide)⟩

/-! ## Pairs of digits -/

/-- Fields of two digits, one right behind the other. -/
def plain (ns : List Nat) : List Char := ns.flatMap (padded 2)

/-- The basic form of a time is its fields one behind the other, two digits each. -/
theorem plain_cons (n : Nat) (ns : List Nat) : plain (n :: ns) = padded 2 n ++ plain ns :=
  List.flatMap_cons ..

/-- The basic form of a time is digits alone. -/
theorem isDigit_of_mem_plain {ns : List Nat} {d : Char} (h : d ∈ plain ns) : d.isDigit := by
  obtain ⟨n, _, hn⟩ := List.mem_flatMap.mp h
  exact isDigit_of_mem_padded hn

/-- The basic form of a time takes two digits for every field. -/
theorem length_plain {ns : List Nat} (h : ∀ n ∈ ns, n < 10 ^ (2 : Nat)) :
    (plain ns).length = 2 * ns.length := by
  induction ns with
  | nil => rfl
  | cons n ns ih =>
    rw [List.forall_mem_cons] at h
    rw [plain_cons, List.length_append, length_padded (by decide) h.1, ih h.2, List.length_cons]
    omega

/-- A field that two more characters follow, none of which is a mark. -/
theorem clock?_pair (hcolons : colons.getD false = false) {cs rest : List Char} {n : Nat}
    (hlength : 2 ≤ rest.length) (hrest : ∀ b ∈ rest, b.isDigit ∨ 128 ≤ b.toNat)
    (hread : digits? 0 2 cs = some (n, rest)) :
    clock? next colons fields (left + 1) cs =
      clock? next (some false) (fields ++ [n]) left rest := by
  match rest, hlength with
  | b :: e :: more, _ =>
    have hb := hrest b List.mem_cons_self
    have hcolon : b ≠ ':' := ne_of_isDigit_or_wide hb rfl (by decide)
    have hdot : b ≠ '.' := ne_of_isDigit_or_wide hb rfl (by decide)
    have hcomma : b ≠ ',' := ne_of_isDigit_or_wide hb rfl (by decide)
    rw [clock?, hread]
    simp [hcolon, hdot, hcomma, hcolons]

/-- **Pairs of digits** are read back. -/
theorem clock?_plain {ns : List Nat} (hne : ns ≠ []) (hlt : ∀ n ∈ ns, n < 10 ^ (2 : Nat))
    (hlength : ns.length ≤ left) (hcolons : colons.getD false = false) :
    clock? next colons fields left (plain ns) = some ⟨fields ++ ns, 0, next == terminator⟩ := by
  -- whether colons separate the fields is open at the first pair and settled from the second one on
  induction ns generalizing colons fields left with
  | nil => exact absurd rfl hne
  | cons n ns ih =>
    obtain ⟨left, rfl⟩ : ∃ k, left = k + 1 := ⟨left - 1, by simp at hlength; omega⟩
    rw [List.forall_mem_cons] at hlt
    rw [plain_cons]
    cases ns with
    | nil =>
      rw [plain, List.flatMap_nil, List.append_nil]
      exact clock?_end hlt.1
    | cons m ns =>
      have hmore : 2 ≤ (plain (m :: ns)).length := by
        rw [length_plain hlt.2, List.length_cons]
        omega
      rw [clock?_pair hcolons hmore (fun b hb => Or.inl (isDigit_of_mem_plain hb))
          (digits?_padded (by decide) hlt.1 _),
        ih (by simp) hlt.2 (by simpa using hlength) rfl, List.append_assoc, List.singleton_append]

/-- Fields that are read open with two bytes of the text. -/
theorem exists_pair {ds : List Char} (hne : ds ≠ [])
    (h : clock? next colons fields (left + 1) (bytes ds) = some c) :
    ∃ pair more, ds = pair ++ more ∧ pair.length = 2 := by
  by_cases htwo : 2 ≤ ds.length
  · exact ⟨ds.take 2, ds.drop 2, (List.take_append_drop 2 ds).symm, by simp [htwo]⟩
  · have hone : ds.length = 1 := by
      have := List.length_pos_iff.mpr hne
      omega
    -- a single character is too short for a field, whatever its bytes are
    have hshort := digits?_short ds 0 0
    rw [hone] at hshort
    rw [clock?, hshort] at h
    cases h

/-- A pair of digits is the last field, or the clock goes on behind it without colons. -/
theorem clock?_pair_inv {pair more : List Char} (hpair : pair.length = 2)
    (hmore : ∀ d ∈ more, Text.isDecimalDigit d = true) (hcolons : colons.getD false = false)
    (hended : c.ended = true)
    (h : clock? next colons fields (left + 1) (bytes (pair ++ more)) = some c) :
    (∀ d ∈ pair, d.isDigit) ∧
      (more = [] ∧ c = ⟨fields ++ [Nat.ofDigitChars 10 pair 0], 0, next == terminator⟩ ∨
        more ≠ [] ∧ clock? next (some false) (fields ++ [Nat.ofDigitChars 10 pair 0]) left (bytes more) =
          some c) := by
  by_cases hnil : more = []
  · subst hnil
    rw [List.append_nil] at h
    obtain ⟨hdigits, rfl⟩ := clock?_end_bytes hpair h
    exact ⟨hdigits, Or.inl ⟨rfl, rfl⟩⟩
  · obtain ⟨⟨n, rest⟩, hread, hrest⟩ := Option.bind_eq_some_iff.mp h
    have hpairRead := hread
    rw [bytes_append, ← hpair] at hpairRead
    obtain ⟨hdigits, rfl, rfl⟩ := digits?_bytes_append hpairRead
    have hwide (b : Char) (hb : b ∈ bytes more) := isDigit_or_wide_of_mem_bytes hmore hb
    refine ⟨hdigits, Or.inr ⟨hnil, ?_⟩⟩
    obtain ⟨b, rest, hcons⟩ := List.exists_cons_of_ne_nil (bytes_ne_nil hnil)
    cases rest with
    | nil =>
      -- a single byte is left, which is not the end of the text
      rw [hcons] at hrest hwide
      obtain rfl := Option.some.inj hrest
      have hb := ne_of_isDigit_or_wide (hwide b List.mem_cons_self) (c := terminator) rfl (by decide)
      exact absurd (beq_iff_eq.mp hended) hb
    | cons e rest =>
      rwa [clock?_pair hcolons (by rw [hcons]; simp) hwide hread] at h

/-- **Digits that are read to their end** without colons are pairs of digits. -/
theorem clock?_plain_inv {ds : List Char} (hne : ds ≠ [])
    (hds : ∀ d ∈ ds, Text.isDecimalDigit d = true) (hlength : ds.length ≤ 2 * left)
    (hcolons : colons.getD false = false) (hended : c.ended = true)
    (h : clock? next colons fields left (bytes ds) = some c) :
    ∃ ns, ns ≠ [] ∧ (∀ n ∈ ns, n < 10 ^ (2 : Nat)) ∧ ns.length ≤ left ∧ ds = plain ns ∧
      c.fields = fields ++ ns ∧ c.micro = 0 := by
  induction left generalizing colons fields ds with
  | zero => exact absurd (List.length_eq_zero_iff.mp (Nat.le_zero.mp hlength)) hne
  | succ left ih =>
    -- The clock takes two bytes at a time; that they are two characters has to be shown before the
    -- field is split off.
    obtain ⟨pair, more, rfl, hpair⟩ := exists_pair hne h
    have hmore : ∀ d ∈ more, Text.isDecimalDigit d = true :=
      fun d hd => hds d (List.mem_append_right pair hd)
    obtain ⟨hdigits, hcase⟩ := clock?_pair_inv hpair hmore hcolons hended h
    have hlt := Numeral.ofDigitChars_lt hdigits
    rw [hpair] at hlt
    have hfield := padded_ofDigitChars hdigits hpair (by decide)
    rcases hcase with ⟨rfl, rfl⟩ | ⟨hnil, hrest⟩
    · exact ⟨[Nat.ofDigitChars 10 pair 0], by simp, by simpa using hlt, by simp,
        by simp [plain, hfield], rfl, rfl⟩
    · obtain ⟨ns, _, hns, hcount, rfl, hfields, hmicro⟩ :=
        ih hnil hmore (by simp at hlength; omega) rfl hrest
      refine ⟨Nat.ofDigitChars 10 pair 0 :: ns, by simp, List.forall_mem_cons.mpr ⟨hlt, hns⟩,
        Nat.succ_le_succ hcount, ?_, by simp [hfields], hmicro⟩
      rw [plain_cons, hfield]

end Clock

/-! ## Timestamps -/

/-- A row of digits is read past when an offset is looked for. -/
theorem DigitRow.not_startsOffset {width : Nat} {ds : List Char} (h : DigitRow width ds) :
    ∀ b ∈ bytes ds, (!startsOffset b) = true := by
  intro b hb
  have hwide := isDigit_or_wide_of_mem_bytes h.2 hb
  have hplus : b ≠ '+' := ne_of_isDigit_or_wide hwide rfl (by decide)
  have hminus : b ≠ '-' := ne_of_isDigit_or_wide hwide rfl (by decide)
  have hletter : b ≠ 'Z' := ne_of_isDigit_or_wide hwide rfl (by decide)
  simp [startsOffset, hplus, hminus, hletter]

/-- What opens an offset is one byte. -/
theorem ascii_of_startsOffset {c : Char} (h : startsOffset c = true) : c.toNat < 128 := by
  simp only [startsOffset, Bool.or_eq_true, decide_eq_true_eq] at h
  rcases h with (rfl | rfl) | rfl <;> decide

/-- **A time that is read** with an offset right behind its seconds has the fields of its text. -/
theorem timeParts?_bytes {hs ms ss zone : List Char} {mark : Char} {t : TimeOfDay}
    {offset : Option Int} (hhs : DigitRow 2 hs) (hms : DigitRow 2 ms) (hss : DigitRow 2 ss)
    (hmark : startsOffset mark = true)
    (h : timeParts? (bytes hs ++ ':' :: (bytes ms ++ ':' :: (bytes ss ++ mark :: zone))) =
      some (t, offset)) :
    t.isValid = true ∧ t.micro = 0 ∧ t.charsWith [] = hs ++ ':' :: ms ++ ':' :: ss ++ [] ∧
      zone? true (mark :: zone) = some offset := by
  obtain ⟨c, hclock, hzone, rfl, hvalid⟩ := timeParts?_eq_some.mp h
  -- nothing in front of the mark starts an offset, so the clock takes exactly the three rows
  have hfront : ∀ b ∈ bytes hs ++ ':' :: (bytes ms ++ ':' :: bytes ss), (!startsOffset b) = true := by
    simp only [List.forall_mem_append, List.forall_mem_cons]
    exact ⟨hhs.not_startsOffset, rfl, hms.not_startsOffset, rfl, hss.not_startsOffset⟩
  have hfirst : ∀ b ∈ (mark :: zone).head?, (!startsOffset b) = false := by simp [hmark]
  obtain ⟨htake, hdrop⟩ := Text.span_append hfront hfirst
  simp only [List.append_assoc, List.cons_append] at htake hdrop
  rw [htake, hdrop] at hclock
  rw [hdrop] at hzone
  obtain ⟨hmicro, hhour, hminute, hsecond⟩ := clock?_bytes hhs hms hss hclock
  refine ⟨hvalid, hmicro, ?_, hzone⟩
  rw [← hhour, ← hminute, ← hsecond]
  rfl

/-- **A timestamp that is read** with an offset right behind its seconds is that of a written day and
time. -/
theorem exists_stamp {text : String} {mark : Char} {digits : List Char} {x : Timestamp}
    (h : afterSeconds? text = some (mark :: digits)) (hmark : startsOffset mark = true)
    (hparts : parts? text = some x) :
    ∃ s : Stamp, s.fraction = [] ∧ text = s.followedBy (mark :: digits) ∧ x.date = s.date ∧
      x.time = s.time ∧ zone? true (mark :: bytes digits) = some x.offset := by
  obtain ⟨fields⟩ := exists_fields h
  obtain ⟨d, hdate, hparts⟩ := Option.bind_eq_some_iff.mp hparts
  obtain ⟨⟨t, offset⟩, htime, hparts⟩ := Option.bind_eq_some_iff.mp hparts
  obtain rfl := Option.some.inj hparts
  rw [fields.octets_eq, bytes_cons_ascii (ascii_of_startsOffset hmark)] at hdate htime
  -- the day is read from ASCII digits, so the time starts behind eleven bytes
  obtain ⟨hvalid, hday⟩ := dateParts?_bytes fields.year_row fields.month_row fields.day_row hdate
  have hdayBytes (rest : List Char) : bytes fields.year ++ '-' :: (bytes fields.month ++ '-' ::
      (bytes fields.day ++ rest)) = d.chars ++ rest := by
    rw [← bytes_ascii d.chars_ascii, hday]
    simp [bytes_append, bytes_hyphen]
  rw [hdayBytes, (Date.take_drop_chars hvalid _ _).2] at htime
  obtain ⟨htvalid, hmicro, hchars, hzone⟩ :=
    timeParts?_bytes fields.hour_row fields.minute_row fields.second_row hmark htime
  have hwrites : TimeOfDay.WritesMicro t.micro [] := by
    rw [hmicro]
    exact .nothing
  refine ⟨⟨d, t, [], hvalid, htvalid, hwrites⟩, rfl, ?_, rfl, rfl, hzone⟩
  rw [← String.toList_inj, fields.toList_eq, Stamp.followedBy, String.toList_ofList, hday, hchars]
  simp

end Iso

end PartitionPruning
