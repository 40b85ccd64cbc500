import PartitionPruning.Literal.Conversion
import PartitionPruning.Proofs.Calendar.Readings
import PartitionPruning.Proofs.Outcome

/-!
# Which offsets are accepted

A timestamp with an offset needs one in its text. The types without an offset do not rule one out: a
sign and two, four or six digits behind the seconds have the shape of a fraction, as its mark may be any
character, and the reader takes them for an offset, which is applied. Every other offset of a timestamp is
rejected. A time of day is read with whatever offset stands behind it, which is dropped.

* **`PlainZone`** — the offsets that pass for a fraction.
* **`parseLocal_plain`**, **`exists_plainZone`** — exactly these are accepted in timestamps without offset.
* **`parseTime_eq_ok`** — the offset of a time has no bearing on it.
* **`convert_offset_iff`** — the three types together.
-/

namespace PartitionPruning

namespace Iso

open Date (padded)

/-! ## Characters that start an offset -/

/-- A character of the text starts an offset. -/
def HasOffset (cs : List Char) : Prop := ∃ c ∈ cs, startsOffset c = true

instance (cs : List Char) : Decidable (HasOffset cs) :=
  decidable_of_iff (cs.any startsOffset = true) List.any_eq_true

/-- A decimal digit of any script does not open an offset. -/
theorem not_startsOffset_of_isDecimalDigit {c : Char} (h : Text.isDecimalDigit c = true) :
    startsOffset c = false := by
  cases hstarts : startsOffset c with
  | false => rfl
  | true =>
    simp only [startsOffset, Bool.or_eq_true, decide_eq_true_eq] at hstarts
    rcases hstarts with (rfl | rfl) | rfl <;> exact absurd h (by decide)

/-- **The bytes of a text** start an offset where its characters do. -/
theorem hasOffset_octets (text : String) : HasOffset (octets text) ↔ HasOffset text.toList := by
  rw [octets_eq]
  constructor
  · rintro ⟨b, hb, hstarts⟩
    obtain ⟨c, hc, hb⟩ := List.mem_flatMap.mp hb
    have hascii : c.toNat < 128 := by
      by_contra hwide
      exact absurd (ascii_of_startsOffset hstarts)
        (Nat.not_lt.mpr (not_ascii_of_mem_bytesOf (Nat.le_of_not_lt hwide) hb))
    rw [bytesOf_ascii hascii, List.mem_singleton] at hb
    exact ⟨c, hc, hb ▸ hstarts⟩
  · rintro ⟨c, hc, hstarts⟩
    refine ⟨c, List.mem_flatMap.mpr ⟨c, hc, ?_⟩, hstarts⟩
    rw [bytesOf_ascii (ascii_of_startsOffset hstarts)]
    exact List.mem_cons_self

namespace Fields

variable {text : String} {rest : List Char} (fields : Fields text rest)

/-- Past the date and the separator stand the three fields of the time, colons between them, and what is
left. -/
theorem drop_eq : text.toList.drop 11 =
    fields.hour ++ ':' :: (fields.minute ++ ':' :: (fields.second ++ rest)) := by
  have hsplit : text.toList =
      (fields.year ++ '-' :: fields.month ++ '-' :: fields.day ++ ['T']) ++
        (fields.hour ++ ':' :: (fields.minute ++ ':' :: (fields.second ++ rest))) := by
    rw [fields.toList_eq]
    simp
  rw [hsplit]
  apply List.drop_left'
  simp [fields.year_row.1, fields.month_row.1, fields.day_row.1]

end Fields

/-- **An offset in a timestamp** stands behind the seconds. -/
theorem hasOffset_iff {text : String} {rest : List Char} (h : afterSeconds? text = some rest) :
    HasOffset (text.toList.drop 11) ↔ HasOffset rest := by
  obtain ⟨fields⟩ := exists_fields h
  have hrow {width : Nat} {ds : List Char} (h : DigitRow width ds) {c : Char} (hc : c ∈ ds) :
      startsOffset c = false := not_startsOffset_of_isDecimalDigit (h.2 c hc)
  -- What starts an offset is neither a digit nor a colon, so it can only be in the rest.
  rw [fields.drop_eq]
  constructor
  · rintro ⟨c, hc, hstarts⟩
    simp only [List.mem_append, List.mem_cons] at hc
    rcases hc with hc | rfl | hc | rfl | hc | hc
    · simp [hrow fields.hour_row hc] at hstarts
    · cases hstarts
    · simp [hrow fields.minute_row hc] at hstarts
    · cases hstarts
    · simp [hrow fields.second_row hc] at hstarts
    · exact ⟨c, hc, hstarts⟩
  · rintro ⟨c, hc, hstarts⟩
    exact ⟨c, by simp [hc], hstarts⟩

/-! ## Offsets without colons -/

/-- The seconds of hours, minutes and seconds, of which the last ones may be left out. -/
def seconds (fields : List Nat) : Nat :=
  (fields.getD 0 0 * 60 + fields.getD 1 0) * 60 + fields.getD 2 0

/-- An offset that is written without colons, in up to three fields of two digits. It is less than a day,
while minutes and seconds may be beyond 59. -/
structure PlainZone where
  negative : Bool
  fields : List Nat
  fields_ne_nil : fields ≠ []
  length_le : fields.length ≤ 3
  fields_lt : ∀ n ∈ fields, n < 10 ^ (2 : Nat)
  seconds_lt : seconds fields < 86400

namespace PlainZone

variable (z : PlainZone)

def sign : Char := if z.negative then '-' else '+'

def chars : List Char := z.sign :: plain z.fields

def text : String := String.ofList z.chars

/-- The signed length of the offset. -/
def micros : Int := if z.negative then -(seconds z.fields * 1000000) else seconds z.fields * 1000000

/-- An offset that matched the shape opens with one of the two signs. -/
theorem sign_eq : z.sign = '+' ∨ z.sign = '-' := by
  rw [sign]
  cases z.negative
  · exact Or.inl rfl
  · exact Or.inr rfl

/-- The characters of a matched offset are ASCII. -/
theorem chars_ascii : ∀ c ∈ z.chars, c.toNat < 128 := by
  refine List.forall_mem_cons.mpr ⟨?_, fun c hc => ascii_of_isDigit (isDigit_of_mem_plain hc)⟩
  rcases z.sign_eq with h | h <;> rw [h] <;> decide

/-- A sign and pairs of digits have the shape of a fraction. -/
theorem isFraction_chars : isFraction z.chars = true := by
  have hdigits : (plain z.fields).all Text.isDecimalDigit = true := by
    rw [List.all_eq_true]
    exact fun c hc => Numeral.isDecimalDigit_of_isDigit (isDigit_of_mem_plain hc)
  have hlength := length_plain z.fields_lt
  have hpos := List.length_pos_iff.mpr z.fields_ne_nil
  have hle := z.length_le
  rw [chars, isFraction, hdigits]
  simp only [Bool.and_true, Bool.and_eq_true, decide_eq_true_eq]
  refine ⟨⟨?_, by omega⟩, by omega⟩
  rcases z.sign_eq with h | h <;> rw [h] <;> decide

end PlainZone

/-- **The offset of a clock** without microseconds: there is one if the clock is less than a day. -/
theorem offset?_eq_some {negative ended : Bool} {fields : List Nat} {o : Int} :
    offset? negative ⟨fields, 0, ended⟩ = some o ↔
      seconds fields < 86400 ∧
        (if negative then -(seconds fields * 1000000 : Int) else seconds fields * 1000000) = o := by
  change (if seconds fields = 0 then some 0 else
    if seconds fields * 1000000 + 0 < 86400000000 then
      some (if negative = true then -((seconds fields * 1000000 + 0 : Nat) : Int)
        else (seconds fields * 1000000 + 0 : Nat)) else none) = some o ↔ _
  split_ifs <;> simp <;> omega

/-! ## Timestamps -/

/-- **A fraction that starts an offset** is an offset without colons. -/
theorem exists_plainZone {mark : Char} {digits : List Char} {ended : Bool} {offset : Option Int}
    (hmark : startsOffset mark = true) (hfraction : isFraction (mark :: digits) = true)
    (h : zone? ended (mark :: bytes digits) = some offset) :
    ∃ z : PlainZone, z.chars = mark :: digits ∧ offset = some z.micros := by
  simp only [isFraction, Bool.and_eq_true, List.all_eq_true, decide_eq_true_eq] at hfraction
  obtain ⟨⟨⟨_, hdigits⟩, hpos⟩, hle⟩ := hfraction
  have hne : digits ≠ [] := List.ne_nil_of_length_pos hpos
  rw [zone?] at h
  split_ifs at h with hz hend
  · -- a digit follows the letter, which is not the end of the text
    obtain ⟨b, bs, hcons⟩ := List.exists_cons_of_ne_nil (bytes_ne_nil hne)
    have hb := isDigit_or_wide_of_mem_bytes hdigits (hcons ▸ List.mem_cons_self)
    rw [hcons, List.headD_cons] at hend
    exact absurd hend (ne_of_isDigit_or_wide hb rfl (by decide))
  · -- a sign: the clock behind it has to take all digits
    obtain ⟨c, hclock, h⟩ := Option.bind_eq_some_iff.mp h
    split_ifs at h with hended
    obtain ⟨o, hoffset, rfl⟩ := Option.map_eq_some_iff.mp h
    obtain ⟨ns, hns, hlt, hcount, rfl, hfields, hmicro⟩ :=
      clock?_plain_inv hne hdigits (by omega) rfl hended hclock
    obtain ⟨fields, micro, ended⟩ := c
    obtain rfl : fields = ns := hfields
    obtain rfl : micro = 0 := hmicro
    obtain ⟨hseconds, rfl⟩ := offset?_eq_some.mp hoffset
    refine ⟨⟨mark = '-', fields, hns, hcount, hlt, hseconds⟩, ?_, rfl⟩
    rw [PlainZone.chars, PlainZone.sign]
    simp only [startsOffset, Bool.or_eq_true, decide_eq_true_eq] at hmark
    rcases hmark with (rfl | rfl) | rfl
    · rfl
    · rfl
    · exact absurd rfl hz

namespace Stamp

/-- **A timestamp with an offset without colons** is read, and the offset is applied. -/
theorem parseLocal_plain (s : Stamp) (hs : s.fraction = []) (z : PlainZone) :
    Epoch.parseLocal (s.text ++ z.text) = .ok (s.micros - z.micros) := by
  -- The shape takes the sign for the point of a fraction, and the digits behind it for the fraction.
  have hshape : isLocalShape (s.followedBy z.chars) = true := by
    rw [isLocalShape, s.afterSeconds?_followedBy, hs]
    exact z.isFraction_chars
  have hclock : clock? terminator none [] 3 (plain z.fields) = some ⟨z.fields, 0, true⟩ :=
    clock?_plain z.fields_ne_nil z.fields_lt z.length_le rfl
  have hsign : decide (z.sign = '-') = z.negative := by
    rw [PlainZone.sign]
    cases z.negative <;> rfl
  have hoffset : offset? (z.sign = '-') ⟨z.fields, 0, true⟩ = some z.micros := by
    rw [hsign]
    exact offset?_eq_some.mpr ⟨z.seconds_lt, rfl⟩
  have htime := timeParts?_append (timeParts?_charsWith s.isValid_time s.writesMicro) z.sign_eq
    hclock rfl hoffset
  rw [Epoch.parseLocal, PlainZone.text, s.text_append, if_pos hshape,
    s.parts?_followedBy z.chars_ascii htime]
  rfl

end Stamp

/-! ## Times of day -/

/-- The bytes of the text of a time, without the letter that may stand in front. -/
def timeBytes (text : String) : List Char :=
  match octets text with
  | 'T' :: rest => rest
  | cs => cs

/-- Reading a time is reading its parts and forgetting the offset. -/
theorem time?_eq (text : String) : time? text = (timeParts? (timeBytes text)).map (·.1) := rfl

/-- Of the bytes of a text only a leading `T` is dropped before a time is read. -/
theorem timeBytes_of_octets {text : String} {c : Char} {cs : List Char}
    (h : octets text = c :: cs) : timeBytes text = if c = 'T' then cs else c :: cs := by
  rw [timeBytes, h]
  split
  · rename_i heq
    obtain ⟨rfl, rfl⟩ := List.cons.inj heq
    rfl
  · rename_i hne
    rw [if_neg fun hc => hne cs (by rw [hc])]

/-- The bytes past a nonempty text are read as they stand: the separator is looked for in front only. -/
theorem timeBytes_append {text : String} (h : octets text ≠ []) (tail : String) :
    timeBytes (text ++ tail) = timeBytes text ++ octets tail := by
  obtain ⟨c, cs, hcons⟩ := List.exists_cons_of_ne_nil h
  have happend : octets (text ++ tail) = c :: (cs ++ octets tail) := by
    rw [octets_append, hcons, List.cons_append]
  rw [timeBytes_of_octets hcons, timeBytes_of_octets happend]
  split <;> rfl

/-- Dropping the separator neither hides nor makes an offset. -/
theorem hasOffset_timeBytes (text : String) : HasOffset (timeBytes text) ↔ HasOffset text.toList := by
  rw [← hasOffset_octets]
  cases h : octets text with
  | nil => rw [timeBytes, h]
  | cons c cs =>
    rw [timeBytes_of_octets h]
    split
    · rename_i hc
      subst hc
      simp [HasOffset, startsOffset]
    · exact Iff.rfl

end Iso

namespace Epoch

open Iso (HasOffset Stamp Zone PlainZone timeParts? timeBytes)

variable {text : String} {n : Int}

/-- A reading gives a result when there is something to read. -/
theorem map_readable_eq_ok {α : Type} {x : Option α} {f : α → Int} :
    (readable x).map f = .ok n ↔ ∃ a, x = some a ∧ f a = n := by
  cases x <;> simp [readable, Except.map]

/-- A time text is read to the microseconds of its fields; an offset behind them is not looked at. -/
theorem parseTime_eq_ok : parseTime text = .ok n ↔
    ∃ t o, timeParts? (timeBytes text) = some (t, o) ∧ (t.micros : Int) = n := by
  rw [parseTime, map_readable_eq_ok, Iso.time?_eq]
  simp only [Option.map_eq_some_iff]
  constructor
  · rintro ⟨_, ⟨⟨t, o⟩, hread, rfl⟩, hn⟩
    exact ⟨t, o, hread, hn⟩
  · rintro ⟨t, o, hread, hn⟩
    exact ⟨t, ⟨(t, o), hread, rfl⟩, hn⟩

/-- **A time is read** with whatever offset stands behind it, which has no bearing on it. -/
theorem parseTime_offset_iff : parseTime text = .ok n ∧ HasOffset text.toList ↔
    ∃ t o, timeParts? (timeBytes text) = some (t, some o) ∧ (t.micros : Int) = n := by
  rw [parseTime_eq_ok, ← Iso.hasOffset_timeBytes]
  constructor
  · rintro ⟨⟨t, offset, hread, hn⟩, hoffset⟩
    obtain ⟨o, rfl⟩ := Option.isSome_iff_exists.mp ((Iso.isSome_offset_iff hread).mpr hoffset)
    exact ⟨t, o, hread, hn⟩
  · rintro ⟨t, o, hread, hn⟩
    exact ⟨⟨t, some o, hread, hn⟩, (Iso.isSome_offset_iff hread).mp rfl⟩

/-- **An offset behind a time** is dropped. -/
theorem parseTime_append (h : parseTime text = .ok n) (hno : ¬ HasOffset text.toList) (z : Zone) :
    parseTime (text ++ z.text) = .ok n := by
  obtain ⟨t, offset, hread, hn⟩ := parseTime_eq_ok.mp h
  rw [← Iso.hasOffset_timeBytes] at hno
  obtain rfl : offset = none :=
    Option.not_isSome_iff_eq_none.mp fun hsome => hno ((Iso.isSome_offset_iff hread).mp hsome)
  have hne : Iso.octets text ≠ [] := by
    intro hnil
    rw [timeBytes, hnil] at hread
    cases hread
  refine parseTime_eq_ok.mpr ⟨t, some z.micros, ?_, hn⟩
  rw [Iso.timeBytes_append hne, Zone.text, Zone.chars,
    Iso.octets_ofList (Iso.offsetChars_ascii z.negative z.hour z.minute)]
  exact Iso.timeParts?_offset hread z.negative z.hour_lt z.minute_lt

/-- **An offset without colons** is all that a timestamp is read with when it should have none. -/
theorem parseLocal_offset_iff :
    parseLocal text = .ok n ∧ HasOffset (text.toList.drop 11) ↔
      ∃ (s : Stamp) (z : PlainZone), s.fraction = [] ∧ text = s.text ++ z.text ∧
        s.micros - z.micros = n := by
  constructor
  · rintro ⟨h, hoffset⟩
    rw [parseLocal] at h
    split_ifs at h with hshape
    obtain ⟨x, hparts, rfl⟩ := map_readable_eq_ok.mp h
    obtain ⟨rest, hafter, hfraction⟩ := (Option.any_eq_true _ _).mp hshape
    obtain ⟨c, hc, hstarts⟩ := (Iso.hasOffset_iff hafter).mp hoffset
    -- only the mark of the fraction can start an offset
    obtain ⟨mark, digits, rfl⟩ := List.exists_cons_of_ne_nil (List.ne_nil_of_mem hc)
    have hmark : Iso.startsOffset mark = true := by
      rcases List.mem_cons.mp hc with rfl | hc
      · exact hstarts
      · simp only [Iso.isFraction, Bool.and_eq_true, List.all_eq_true] at hfraction
        have hno := Iso.not_startsOffset_of_isDecimalDigit (hfraction.1.1.2 c hc)
        rw [hno] at hstarts
        cases hstarts
    obtain ⟨s, hs, rfl, hdate, htime, hzone⟩ := Iso.exists_stamp hafter hmark hparts
    obtain ⟨z, hz, hoffset⟩ := Iso.exists_plainZone hmark hfraction hzone
    refine ⟨s, z, hs, ?_, ?_⟩
    · rw [PlainZone.text, s.text_append, hz]
    · rw [Timestamp.micros, hdate, htime, hoffset]
      rfl
  · rintro ⟨s, z, hs, rfl, rfl⟩
    refine ⟨s.parseLocal_plain hs z, ?_⟩
    rw [PlainZone.text, s.text_append, Iso.hasOffset_iff (s.afterSeconds?_followedBy _)]
    exact ⟨z.sign, by simp [PlainZone.chars], by rcases z.sign_eq with h | h <;> rw [h] <;> rfl⟩

/-- **A timestamp with offset** is not read without one. -/
theorem hasOffset_of_parseZoned (h : parseZoned text = .ok n) : HasOffset (text.toList.drop 11) := by
  rw [parseZoned] at h
  split_ifs at h with hshape
  obtain ⟨rest, hafter, hzone⟩ := (Option.any_eq_true _ _).mp hshape
  rw [Bool.and_eq_true] at hzone
  rw [Iso.hasOffset_iff hafter]
  -- the last six characters start with a sign
  cases hdrop : rest.drop (rest.length - 6) with
  | nil => simp [hdrop, Iso.isOffset] at hzone
  | cons sign zone =>
    have hmem : sign ∈ rest := List.mem_of_mem_drop (hdrop ▸ List.mem_cons_self)
    refine ⟨sign, hmem, ?_⟩
    have hsign := hzone.2
    simp only [hdrop, Iso.isOffset, Bool.and_eq_true, Bool.or_eq_true, decide_eq_true_eq] at hsign
    rcases hsign.1 with rfl | rfl <;> rfl

end Epoch

/-! ## Literals -/

namespace Literal

open Iso (HasOffset Stamp Zone PlainZone timeParts? timeBytes)

variable {text : String} {l : Literal}

/-- A string becomes a `time` literal exactly when it is read as a time. -/
theorem convert_time_eq_ok : (string text).convert (.primitive .time) = .ok l ↔
    ∃ n, Epoch.parseTime text = .ok n ∧ .time (.number n) = l := by
  simp only [convert, convertText]
  cases Epoch.parseTime text <;> simp

/-- A string becomes a `timestamp` literal exactly when it is read as a local moment. -/
theorem convert_timestamp_eq_ok : (string text).convert (.primitive .timestamp) = .ok l ↔
    ∃ n, Epoch.parseLocal text = .ok n ∧ .timestamp (.number n) = l := by
  simp only [convert, convertText, Outcome.bind_eq_ok, Outcome.pure_eq_ok]

/-- A string becomes a `timestamptz` literal exactly when it is read as a moment with a zone. -/
theorem convert_timestamptz_eq_ok : (string text).convert (.primitive .timestamptz) = .ok l ↔
    ∃ n, Epoch.parseZoned text = .ok n ∧ .timestamp (.number n) = l := by
  simp only [convert, convertText, Outcome.bind_eq_ok, Outcome.pure_eq_ok]

/-- **Which offsets are accepted.** A timestamp with an offset is only read from a text with one. A
timestamp without offset is read from a text with one exactly if the offset has no colons and stands right
behind the seconds, and the offset is applied to it. A time is read from a text with an offset exactly if
the reader of times finds both in it, and the offset is dropped: any offset may be put behind a time, and
the literal stays the same. -/
theorem convert_offset_iff (text : String) (l : Literal) :
    ((string text).convert (.primitive .timestamptz) = .ok l → HasOffset (text.toList.drop 11)) ∧
      ((string text).convert (.primitive .timestamp) = .ok l ∧ HasOffset (text.toList.drop 11) ↔
        ∃ (s : Stamp) (z : PlainZone), s.fraction = [] ∧ text = s.text ++ z.text ∧
          l = .timestamp (.number (s.micros - z.micros))) ∧
      ((string text).convert (.primitive .time) = .ok l ∧ HasOffset text.toList ↔
        ∃ t o, timeParts? (timeBytes text) = some (t, some o) ∧ l = .time (.number t.micros)) ∧
      ((string text).convert (.primitive .time) = .ok l ∧ ¬ HasOffset text.toList →
        ∀ z : Zone, (string (text ++ z.text)).convert (.primitive .time) = .ok l) := by
  rw [convert_timestamptz_eq_ok, convert_timestamp_eq_ok, convert_time_eq_ok]
  refine ⟨?_, ⟨?_, ?_⟩, ⟨?_, ?_⟩, ?_⟩
  · rintro ⟨n, hn, rfl⟩
    exact Epoch.hasOffset_of_parseZoned hn
  · rintro ⟨⟨n, hn, rfl⟩, hoffset⟩
    obtain ⟨s, z, hs, htext, rfl⟩ := Epoch.parseLocal_offset_iff.mp ⟨hn, hoffset⟩
    exact ⟨s, z, hs, htext, rfl⟩
  · rintro ⟨s, z, hs, htext, rfl⟩
    obtain ⟨hn, hoffset⟩ := Epoch.parseLocal_offset_iff.mpr ⟨s, z, hs, htext, rfl⟩
    exact ⟨⟨_, hn, rfl⟩, hoffset⟩
  · rintro ⟨⟨n, hn, rfl⟩, hoffset⟩
    obtain ⟨t, o, hread, rfl⟩ := Epoch.parseTime_offset_iff.mp ⟨hn, hoffset⟩
    exact ⟨t, o, hread, rfl⟩
  · rintro ⟨t, o, hread, rfl⟩
    obtain ⟨hn, hoffset⟩ := Epoch.parseTime_offset_iff.mpr ⟨t, o, hread, rfl⟩
    exact ⟨⟨_, hn, rfl⟩, hoffset⟩
  · rintro ⟨⟨n, hn, rfl⟩, hno⟩ z
    exact convert_time_eq_ok.mpr ⟨n, Epoch.parseTime_append hn hno z, rfl⟩

/-- A timestamp with an offset of seven hours has one in its text, and behind a time such an offset is
dropped. -/
theorem convert_offset_iff_seven :
    (string "2017-08-18T14:21:01+07:00").convert (.primitive .timestamptz) =
        .ok (.timestamp (.number 1503040861000000)) ∧
      HasOffset ("2017-08-18T14:21:01+07:00".toList.drop 11) ∧
      (string "14:21:01").convert (.primitive .time) = .ok (.time (.number 51661000000)) ∧
      ¬ HasOffset "14:21:01".toList ∧
      (string "14:21:01+07:00").convert (.primitive .time) = .ok (.time (.number 51661000000)) := by
  -- An afternoon seven hours east of Greenwich.
  let s : Stamp := ⟨⟨2017, 8, 18⟩, ⟨14, 21, 1, 0⟩, [], by decide, by decide, .nothing⟩
  let z : Zone := ⟨false, 7, 0, by decide, by decide⟩
  have hstamp : s.text ++ z.text = "2017-08-18T14:21:01+07:00" := by decide
  have hinstant : s.micros - z.micros = 1503040861000000 := by decide
  have hzoned := Epoch.parseZoned_text s z
  rw [hstamp, hinstant] at hzoned
  have htimestamp := convert_timestamptz_eq_ok.mpr ⟨_, hzoned, rfl⟩
  have hrender : s.time.render = "14:21:01" := by decide
  have htext : "14:21:01" ++ z.text = "14:21:01+07:00" := by decide
  have hmicros : (s.time.micros : Int) = 51661000000 := by decide
  have hparse := Epoch.parseTime_render s.isValid_time
  rw [hrender, hmicros] at hparse
  have hread : (string "14:21:01").convert (.primitive .time) = .ok (.time (.number 51661000000)) :=
    convert_time_eq_ok.mpr ⟨_, hparse, rfl⟩
  have hno : ¬ HasOffset "14:21:01".toList := by decide
  exact ⟨htimestamp, (convert_offset_iff "2017-08-18T14:21:01+07:00" _).1 htimestamp, hread, hno,
    htext ▸ (convert_offset_iff "14:21:01" _).2.2.2 ⟨hread, hno⟩ z⟩

/-- A timestamp that should have no offset is read with one, which is applied: seven hours are taken off
the time in the text. A time is read with an offset too, which is dropped. -/
theorem convert_of_plain_offset :
    (string "2017-08-18T14:21:01+07").convert (.primitive .timestamp) =
        .ok (.timestamp (.number 1503040861000000)) ∧
      HasOffset ("2017-08-18T14:21:01+07".toList.drop 11) ∧
      (string "14:21:01+07:00").convert (.primitive .time) = .ok (.time (.number 51661000000)) ∧
      HasOffset "14:21:01+07:00".toList := by
  let s : Stamp := ⟨⟨2017, 8, 18⟩, ⟨14, 21, 1, 0⟩, [], by decide, by decide, .nothing⟩
  let seven : PlainZone := ⟨false, [7], by decide, by decide, by decide, by decide⟩
  let z : Zone := ⟨false, 7, 0, by decide, by decide⟩
  have htimestamp : s.text ++ seven.text = "2017-08-18T14:21:01+07" := by decide
  have hmicros : s.micros - seven.micros = 1503040861000000 := by decide
  have htime : s.time.render ++ z.text = "14:21:01+07:00" := by decide
  have htimeMicros : (s.time.micros : Int) = 51661000000 := by decide
  have hno : ¬ HasOffset s.time.render.toList := by decide
  have hlocal := s.parseLocal_plain rfl seven
  have hdropped := Epoch.parseTime_append (Epoch.parseTime_render s.isValid_time) hno z
  rw [htimestamp, hmicros] at hlocal
  rw [htime, htimeMicros] at hdropped
  exact ⟨convert_timestamp_eq_ok.mpr ⟨_, hlocal, rfl⟩, by decide,
    convert_time_eq_ok.mpr ⟨_, hdropped, rfl⟩, by decide⟩

end Literal

end PartitionPruning
