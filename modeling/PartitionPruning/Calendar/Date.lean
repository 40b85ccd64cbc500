/-!
# Dates

The proleptic Gregorian calendar from year 1 to year 9999. A date has a number, counted from
1970-01-01; `Date.number` and `Date.ofNumber?` go back and forth. Years and months have ordinals
that count from 1970 in the same way, and so do the weeks of the ISO calendar have their days.
-/

namespace PartitionPruning

/-- A day of the calendar. -/
structure Date where
  year : Nat
  month : Nat
  day : Nat
  deriving DecidableEq, Repr

namespace Date

/-! ### The calendar -/

/-- Whether a year has a leap day. -/
def isLeap (year : Nat) : Bool := year % 4 = 0 && (year % 100 ≠ 0 || year % 400 = 0)

def monthLengths (year : Nat) : List Nat :=
  [31, if isLeap year then 29 else 28, 31, 30, 31, 30, 31, 31, 30, 31, 30, 31]

/-- The days of the years 1 up to the year before. -/
def daysBeforeYear (year : Nat) : Nat :=
  let p := year - 1
  365 * p + p / 4 - p / 100 + p / 400

/-- The days of the months before a month of a year. -/
def daysBeforeMonth (year month : Nat) : Nat :=
  ((monthLengths year).take (month - 1)).foldl (· + ·) 0

def lastYear : Nat := 9999

def isValid (d : Date) : Bool :=
  1 ≤ d.year && d.year ≤ lastYear && 1 ≤ d.month && d.month ≤ 12 && 1 ≤ d.day &&
    d.day ≤ (monthLengths d.year).getD (d.month - 1) 0

def ofParts? (year month day : Nat) : Option Date :=
  let d : Date := ⟨year, month, day⟩
  if d.isValid then some d else none

/-- How many days the first of January of year 1 lies before 1970-01-01. -/
def epochOffset : Nat := 719162

/-- The number of the day, counted from 1970-01-01. -/
def number (d : Date) : Int :=
  ((daysBeforeYear d.year + daysBeforeMonth d.year d.month + (d.day - 1) : Nat) : Int) - epochOffset

/-- The month, counted from `first`, and the day in it for a day counted from zero. -/
def locate (first : Nat) : List Nat → Nat → Nat × Nat
  | [], n => (first, n + 1)
  | len :: rest, n => if n < len then (first, n + 1) else locate (first + 1) rest (n - len)

/-- The year and the day in it, both counted from zero, for a day counted from the first of January
of year 1. Cycles of 400, 100, 4 and 1 years are split off in turn; the last century of a long cycle
and the last year of a short one are a day longer. -/
def splitYear (n : Nat) : Nat × Nat :=
  let cycles := n / 146097
  let inCycle := n % 146097
  let centuries := min 3 (inCycle / 36524)
  let inCentury := inCycle - centuries * 36524
  let fours := inCentury / 1461
  let inFour := inCentury % 1461
  let years := min 3 (inFour / 365)
  (400 * cycles + 100 * centuries + 4 * fours + years, inFour - years * 365)

/-- The date of a day counted from the first of January of year 1. -/
def ofDay (n : Nat) : Date :=
  let (year, day) := splitYear n
  let (month, dayOfMonth) := locate 1 (monthLengths (year + 1)) day
  ⟨year + 1, month, dayOfMonth⟩

def firstNumber : Int := -719162

def lastNumber : Int := 2932896

/-- The date of a day number, none outside the calendar. -/
def ofNumber? (n : Int) : Option Date :=
  if firstNumber ≤ n ∧ n ≤ lastNumber then some (ofDay (n + epochOffset).toNat) else none

/-! ### Ordinals of years and months -/

def yearOrdinal (d : Date) : Int := (d.year : Int) - 1970

def monthOrdinal (d : Date) : Int := ((d.year : Int) - 1970) * 12 + ((d.month : Int) - 1)

/-! ### Weeks -/

/-- The day of the week, Monday being zero. -/
def weekday (d : Date) : Nat := ((d.number + 3) % 7).toNat

/-- Whether a year of the ISO calendar has a fifty-third week: it starts on a Thursday, or on a
Wednesday when it is a leap year. -/
def hasLongYear (year : Nat) : Bool :=
  let first := weekday ⟨year, 1, 1⟩
  first = 3 || (first = 2 && isLeap year)

/-- The number of the Monday of the first week of a year, the week that holds the first Thursday. -/
def firstMonday (year : Nat) : Int :=
  let first : Date := ⟨year, 1, 1⟩
  let back := (first.weekday : Int)
  if first.weekday ≤ 3 then first.number - back else first.number - back + 7

/-- The date of a day of an ISO week; days count from 1 on Monday. -/
def ofWeek? (year week day : Nat) : Option Date :=
  if 1 ≤ year ∧ year ≤ lastYear ∧ 1 ≤ week ∧ (week ≤ 52 ∨ (week = 53 ∧ hasLongYear year = true)) ∧
      1 ≤ day ∧ day ≤ 7 then
    ofNumber? (firstMonday year + ((week : Int) - 1) * 7 + ((day : Int) - 1))
  else none

/-! ### Text -/

/-- A number in at least `width` digits. -/
def padded (width n : Nat) : List Char :=
  let digits := Nat.toDigits 10 n
  List.replicate (width - digits.length) '0' ++ digits

def render (d : Date) : String :=
  String.ofList (padded 4 d.year ++ '-' :: padded 2 d.month ++ '-' :: padded 2 d.day)

/-- A year of any sign in at least four places. -/
def renderYear (year : Int) : String :=
  String.ofList (if year < 0 then '-' :: padded 3 year.natAbs else padded 4 year.natAbs)

def renderYearOrdinal (n : Int) : String := renderYear (1970 + n)

def renderMonthOrdinal (n : Int) : String :=
  renderYear (1970 + n / 12) ++ String.ofList ('-' :: padded 2 (1 + n % 12).toNat)

end Date

end PartitionPruning
