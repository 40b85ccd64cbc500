import PartitionPruning.Calendar.Timestamp
import PartitionPruning.Numeral.Power
import PartitionPruning.Text.Digit

/-!
# Reading ISO 8601 texts

Dates are read in the forms `yyyy-mm-dd`, `yyyymmdd`, `yyyy-Www-d`, `yyyyWwwd` and without the day of
the week; times as hours, minutes and seconds, with colons throughout or without, with a fraction
of which six digits count, and with an offset from universal time. Texts are taken as their bytes
in UTF-8, so that only ASCII digits are digits here.

For timestamps the exact shape of the text is asked for first: `Iso.isLocalShape` and
`Iso.isZonedShape` tell `yyyy-mm-ddThh:mm:ss` with an optional fraction, without or with an offset.
`Iso.parts?` then reads it.
-/

namespace PartitionPruning.Iso

/-- The bytes of a text as characters below 256. -/
def octets (s : String) : List Char := s.toUTF8.toList.map fun b => Char.ofNat b.toNat

/-- Reads exactly `n` digits after those of `value`. -/
def digits? (value : Nat) : (n : Nat) → List Char → Option (Nat × List Char)
  | 0, cs => some (value, cs)
  | _ + 1, [] => none
  | n + 1, c :: rest => match Text.asciiDigit? c with
    | some d => digits? (10 * value + d) n rest
    | none => none

/-- Drops a character that has to stand here. -/
def expect? (c : Char) : List Char → Option (List Char)
  | [] => none
  | d :: rest => if d = c then some rest else none

/-- Drops a hyphen when the parts of the text are separated. -/
def hyphen? (separated : Bool) (cs : List Char) : Option (List Char) :=
  if separated then expect? '-' cs else some cs

/-- Reads a date from its bytes, without regard to what follows it. -/
def dateParts? (cs : List Char) : Option Date := do
  let (year, rest) ← digits? 0 4 cs
  let (separated, rest) := match rest with
    | '-' :: r => (true, r)
    | r => (false, r)
  match rest with
  | 'W' :: r =>
    let (week, r) ← digits? 0 2 r
    if r = [] then Date.ofWeek? year week 1
    else
      let r ← hyphen? separated r
      let (day, _) ← digits? 0 1 r
      Date.ofWeek? year week day
  | r =>
    let (month, r) ← digits? 0 2 r
    let r ← hyphen? separated r
    let (day, _) ← digits? 0 2 r
    Date.ofParts? year month day

/-- Reads a date; the text has seven, eight or ten bytes. -/
def date? (s : String) : Option Date :=
  let cs := octets s
  if cs.length = 7 ∨ cs.length = 8 ∨ cs.length = 10 then dateParts? cs else none

/-- Hours, minutes, seconds and microseconds as read, and whether the text ended with them. -/
structure Clock where
  fields : List Nat
  micro : Nat
  ended : Bool

/-- The number of a field, zero when it was left out. -/
def Clock.field (c : Clock) (i : Nat) : Nat := c.fields.getD i 0

/-- The end of a text, seen as a character. -/
def terminator : Char := Char.ofNat 0

/-- Reads a fraction: of up to six digits each counts, further ones are skipped. `next` is the
character behind the text. -/
def fraction? (fields : List Nat) (next : Char) (cs : List Char) : Option Clock := do
  let width := min 6 cs.length
  let (value, rest) ← digits? 0 width cs
  let rest := rest.dropWhile fun c => (Text.asciiDigit? c).isSome
  pure ⟨fields, value * 10 ^ (6 - width), rest.headD next == terminator⟩

/-- Reads up to `left` more fields of two digits and then a fraction. Whether colons separate the
fields is known after the first one. `next` is the character behind the text. -/
def clock? (next : Char) (colons : Option Bool) (fields : List Nat) :
    (left : Nat) → List Char → Option Clock
  | 0, cs => fraction? fields next cs
  | left + 1, cs => do
    let (value, rest) ← digits? 0 2 cs
    let fields := fields ++ [value]
    match rest with
    | [] => pure ⟨fields, 0, next == terminator⟩
    | [c] => pure ⟨fields, 0, c == terminator⟩
    | c :: more =>
      let separated := colons.getD (c = ':')
      if separated && c = ':' then clock? next (some separated) fields left more
      else if c = '.' || c = ',' then fraction? fields next more
      else if !separated then clock? next (some separated) fields left (c :: more)
      else none

def startsOffset (c : Char) : Bool := c = '+' || c = '-' || c = 'Z'

/-- The offset of a number of seconds and microseconds; it is less than a day. -/
def offset? (negative : Bool) (c : Clock) : Option Int :=
  let seconds := (c.field 0 * 60 + c.field 1) * 60 + c.field 2
  if seconds = 0 then some 0
  else
    let n := seconds * 1000000 + c.micro
    if n < TimeOfDay.microsPerDay then some (if negative then -(n : Int) else n) else none

/-- Reads a time of day with an optional offset from its bytes. -/
def timeParts? (cs : List Char) : Option (TimeOfDay × Option Int) := do
  let clockText := cs.takeWhile (!startsOffset ·)
  let zoneText := cs.dropWhile (!startsOffset ·)
  let c ← clock? (zoneText.headD terminator) none [] 3 clockText
  let offset ← match zoneText with
    | [] => if c.ended then some none else none
    | z :: zone =>
      if z = 'Z' then if zone.headD terminator = terminator then some (some 0) else none
      else do
        let zoneClock ← clock? terminator none [] 3 zone
        if zoneClock.ended then (offset? (z = '-') zoneClock).map some else none
  let t : TimeOfDay := ⟨c.field 0, c.field 1, c.field 2, c.micro⟩
  if t.isValid then some (t, offset) else none

/-- Reads a time of day; an offset is read but has no bearing on it. -/
def time? (s : String) : Option TimeOfDay :=
  let cs := match octets s with
    | 'T' :: rest => rest
    | cs => cs
  (timeParts? cs).map (·.1)

/-! ### Timestamps -/

/-- Drops the start of a text that follows a pattern, in which `0` stands for a digit of any script
and every other character for itself. -/
def dropShape? : (shape cs : List Char) → Option (List Char)
  | [], cs => some cs
  | _ :: _, [] => none
  | p :: shape, c :: rest =>
    if (if p = '0' then Text.isDecimalDigit c else c = p) then dropShape? shape rest else none

/-- Whether a text is empty or a mark of any kind and one to six digits. -/
def isFraction : List Char → Bool
  | [] => true
  | mark :: digits =>
    mark ≠ '\n' && digits.all Text.isDecimalDigit && 1 ≤ digits.length && digits.length ≤ 6

/-- Whether a text is a sign, two digits, a colon and two digits. -/
def isOffset : List Char → Bool
  | [] => false
  | sign :: rest => (sign = '+' || sign = '-') && dropShape? "00:00".toList rest == some []

/-- What follows the seconds of a timestamp, if the text starts with the day and the time to the
second. -/
def afterSeconds? (s : String) : Option (List Char) :=
  dropShape? "0000-00-00T00:00:00".toList s.toList

/-- Whether a text has the shape of a timestamp without an offset. -/
def isLocalShape (s : String) : Bool := (afterSeconds? s).any isFraction

/-- Whether a text has the shape of a timestamp with an offset. -/
def isZonedShape (s : String) : Bool :=
  (afterSeconds? s).any fun rest =>
    isFraction (rest.take (rest.length - 6)) && isOffset (rest.drop (rest.length - 6))

/-- Reads the day and the time of a text of one of the two shapes. -/
def parts? (s : String) : Option Timestamp := do
  let cs := octets s
  let date ← dateParts? (cs.take 10)
  let (time, offset) ← timeParts? (cs.drop 11)
  pure ⟨date, time, offset⟩

end PartitionPruning.Iso
