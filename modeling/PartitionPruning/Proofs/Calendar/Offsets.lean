import PartitionPruning.Literal.Conversion
import PartitionPruning.Proofs.Calendar.Moments

/-!
# Offsets denote instants

A text of a day, a time and an offset denotes a moment of universal time: the moment that the text has
without its offset, less the offset. The moment may lie on another day than the text says, in another
month or year, and even before the first or behind the last year of the calendar, as only the day in the
text has to be one of the calendar.

The time from the start of 1970 to a timestamp is a difference of days, of seconds and of microseconds,
from which the parts are carried over so that only the days can be negative. The count of microseconds
put together from these parts is the difference itself.

* **`Duration.count_normal`** — carrying keeps the count.
* **`Timestamp.count_elapsed`** — the count of a timestamp is that of the time since the start of 1970.
* **`instant_of_text`** — a text with an offset, its timestamp and its literal.
-/

namespace PartitionPruning

open TimeOfDay (microsPerDay)

/-! ## Durations -/

/-- A duration in days, seconds and microseconds. -/
structure Duration where
  days : Int
  seconds : Int
  micros : Int
  deriving DecidableEq, Repr

namespace Duration

/-- The duration with at most a day of seconds and a second of microseconds; what is beyond is carried
over, and what is missing is borrowed. -/
def normal (days seconds micros : Int) : Duration :=
  let carried := seconds + micros / 1000000
  ⟨days + carried / 86400, carried % 86400, micros % 1000000⟩

def sub (x y : Duration) : Duration :=
  normal (x.days - y.days) (x.seconds - y.seconds) (x.micros - y.micros)

/-- The duration in microseconds. -/
def count (x : Duration) : Int := (x.days * 86400 + x.seconds) * 1000000 + x.micros

/-- **Carrying** keeps the count. -/
theorem count_normal (days seconds micros : Int) :
    (normal days seconds micros).count = (days * 86400 + seconds) * 1000000 + micros := by
  simp only [normal, count]
  omega

/-- Taking durations from each other takes their counts of microseconds from each other. -/
theorem count_sub (x y : Duration) : (x.sub y).count = x.count - y.count := by
  rw [sub, count_normal]
  simp only [count]
  omega

end Duration

namespace Timestamp

/-- The time from the start of 1970 to a timestamp, in universal time when an offset is given. -/
def elapsed (t : Timestamp) : Duration :=
  (Duration.normal t.date.number ((t.time.hour * 60 + t.time.minute) * 60 + t.time.second : Nat)
    t.time.micro).sub (.normal 0 0 (t.offset.getD 0))

/-- **The count of a timestamp** is put together from the time since the start of 1970. -/
theorem count_elapsed (t : Timestamp) : t.elapsed.count = t.micros := by
  rw [elapsed, Duration.count_sub, Duration.count_normal, Duration.count_normal, micros,
    TimeOfDay.micros]
  simp only [microsPerDay]
  omega

end Timestamp

/-! ## Instants -/

namespace Iso.Stamp

/-- The timestamp of a day and a time with an offset. -/
def timestamp (s : Stamp) (z : Zone) : Timestamp := ⟨s.date, s.time, some z.micros⟩

/-- The instant that a day and a time with an offset denote, in microseconds of universal time. -/
def instant (s : Stamp) (z : Zone) : Int := s.micros - z.micros

end Iso.Stamp

namespace Literal

open Iso (Stamp Zone)

/-- A stamp's text in some zone becomes the literal of its instant. -/
theorem convert_zoned (s : Stamp) (z : Zone) :
    (string (s.text ++ z.text)).convert (.primitive .timestamptz) =
      .ok (.timestamp (.number (s.instant z))) := by
  simp only [convert, convertText]
  rw [Epoch.parseZoned_text]
  rfl

/-- **Offsets denote instants.** The text of a day and a time without an offset is read as its microseconds
from the start of 1970, and with an offset as the instant that is the offset less. The timestamp with this
offset has the same count, and its literal is that of the text. Two texts of one instant are converted to
one literal, whatever their offsets. -/
theorem instant_of_text (s : Stamp) (z : Zone) :
    Epoch.parseLocal s.text = .ok s.micros ∧
      Epoch.parseZoned (s.text ++ z.text) = .ok (s.micros - z.micros) ∧
      (s.timestamp z).elapsed.count = s.micros - z.micros ∧
      ofValue (.timestamp (s.timestamp z)) =
        (string (s.text ++ z.text)).convert (.primitive .timestamptz) ∧
      ∀ (s' : Stamp) (z' : Zone), s.instant z = s'.instant z' →
        ∃ n, (string (s.text ++ z.text)).convert (.primitive .timestamptz) = .ok (.timestamp n) ∧
          (string (s'.text ++ z'.text)).convert (.primitive .timestamptz) = .ok (.timestamp n) := by
  refine ⟨Epoch.parseLocal_text s, Epoch.parseZoned_text s z, ?_, ?_, ?_⟩
  · rw [Timestamp.count_elapsed]
    rfl
  · rw [convert_zoned]
    rfl
  · intro s' z' h
    exact ⟨_, convert_zoned s z, h ▸ convert_zoned s' z'⟩

/-- Two texts of the first day of the calendar that denote one instant, which lies fourteen hours before it. -/
theorem instant_of_text_first_day :
    ∃ (s s' : Stamp) (z z' : Zone), s.text ++ z.text = "0001-01-01T00:00:00+14:00" ∧
      s'.text ++ z'.text = "0001-01-01T09:30:00.000000+23:30" ∧ s.instant z = s'.instant z' ∧
      Epoch.parseZoned "0001-01-01T00:00:00+14:00" = .ok (-62135647200000000) ∧
      ∃ n, (string "0001-01-01T00:00:00+14:00").convert (.primitive .timestamptz) =
          .ok (.timestamp n) ∧
        (string "0001-01-01T09:30:00.000000+23:30").convert (.primitive .timestamptz) =
          .ok (.timestamp n) := by
  -- Both moments are before the first instant of the calendar in universal time, which arithmetic does
  -- not mind.
  let s : Stamp := ⟨⟨1, 1, 1⟩, ⟨0, 0, 0, 0⟩, [], by decide, by decide, .nothing⟩
  let s' : Stamp := ⟨⟨1, 1, 1⟩, ⟨9, 30, 0, 0⟩, ".000000".toList, by decide, by decide,
    .digits (Or.inl rfl) 0⟩
  let z : Zone := ⟨false, 14, 0, by decide, by decide⟩
  let z' : Zone := ⟨false, 23, 30, by decide, by decide⟩
  have hs : s.text ++ z.text = "0001-01-01T00:00:00+14:00" := by decide
  have hs' : s'.text ++ z'.text = "0001-01-01T09:30:00.000000+23:30" := by decide
  have hinstant : s.instant z = s'.instant z' := by decide
  have hmicros : s.micros - z.micros = -62135647200000000 := by decide
  obtain ⟨_, hread, _, _, hsame⟩ := instant_of_text s z
  have hliterals := hsame s' z' hinstant
  rw [hs, hmicros] at hread
  rw [hs] at hliterals
  rw [hs'] at hliterals
  exact ⟨s, s', z, z', hs, hs', hinstant, hread, hliterals⟩

end Literal

end PartitionPruning
