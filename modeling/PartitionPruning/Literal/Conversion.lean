import PartitionPruning.Literal.Basic

/-!
# Converting literals

A literal is converted to the type of the column that it is compared with. Numbers beyond the range of
the type become marks, texts are read in the form of the type, and byte sequences have to have the
length of a fixed type.
-/

namespace PartitionPruning

namespace Literal

/-- The integer as a literal of a type with a range of integers. -/
def clamp (t : Bounded) (low high : Int) (n : Whole) : Literal :=
  if high < n.toInt then .aboveMax t else if n.toInt < low then .belowMin t else .long n

def toInt (n : Whole) : Literal := clamp .int (-2147483648) 2147483647 n

def toLong (n : Whole) : Literal := clamp .long (-9223372036854775808) 9223372036854775807 n

def doubleOfInt (n : Int) : Except Fault Binary64 :=
  match Binary64.ofInt? n with
  | some x => .ok x
  | none => .error .outOfRange

def toFloat (x : Binary64) : Except Fault Literal :=
  match Value.greater (.float x) Bounded.float.max, Value.less (.float x) Bounded.float.min with
  | .ok true, _ => .ok (.aboveMax .float)
  | _, .ok true => .ok (.belowMin .float)
  | _, _ => ofNumber (.float x)

/-- The integer with some zeros behind the point. -/
def decimalOfInt (n : Int) (scale : Nat) : Literal :=
  .decimal (.finite (n < 0) (n.natAbs * 10 ^ scale) (-scale))

/-- The double rounded to some places behind the point. -/
def decimalOfDouble (x : Binary64) (scale : Nat) : Except Fault Literal :=
  match x.toDecimal.quantize? (-scale) with
  | some d => .ok (.decimal d)
  | none => .error .undefinedDecimal

/-- The decimal if it has the scale of the type; `shown` is the literal in the fault. -/
def decimalOfScale (d : Decimal) (shown : String) (precision scale : Nat) : Except Fault Literal :=
  match d.scale? with
  | none => .error .unreadable
  | some s =>
    if scale = s then .ok (.decimal d)
    else .error (.failedConversion shown (.primitive (.decimal precision scale)))

def convertLong (n : Whole) : DataType → Except Fault Literal
  | .primitive .long => .ok (toLong n)
  | .primitive .int => .ok (toInt n)
  | .primitive .float => do ofNumber (.float (← doubleOfInt n.toInt))
  | .primitive .double => do ofDouble .double (← doubleOfInt n.toInt)
  | .primitive .date => .ok (.date n)
  | .primitive .time => .ok (.time n)
  | .primitive .timestamp | .primitive .timestamptz => .ok (.timestamp n)
  | .primitive (.decimal _ scale) => .ok (decimalOfInt n.toInt scale)
  | t => .error (.noConversion "LongLiteral" t)

/-- The integer that a numeral in a string has in front of the point. -/
def integerOfText (s : String) (type : DataType) : Except Fault Int :=
  match Binary64.parse? s with
  | none => .error (.failedConversion s type)
  | some x =>
    if x.isNaN then .error (.failedConversion s type)
    else if x.isInfinite then .error .outOfRange
    else .ok x.truncate

/-- Whether a text is a word when case is ignored; a long s counts as an s. -/
def isWord (word s : String) : Bool :=
  (s.toList.map fun c => if c.toNat = 0x17F then 's' else c.toLower) = word.toList

def convertText (s : String) (type : DataType) : Except Fault Literal :=
  let read (f : String → Except Fault Int) (make : Whole → Literal) : Except Fault Literal :=
    match f s with
    | .ok n => .ok (make (.number n))
    | .error _ => .error (.failedConversion s type)
  match type with
  | .primitive .string => .ok (.string s)
  | .primitive .int => do pure (toInt (.number (← integerOfText s type)))
  | .primitive .long => do pure (toLong (.number (← integerOfText s type)))
  | .primitive .date => read Epoch.parseDay .date
  | .primitive .time => read Epoch.parseTime .time
  | .primitive .timestamp => do pure (.timestamp (.number (← Epoch.parseLocal s)))
  | .primitive .timestamptz => do pure (.timestamp (.number (← Epoch.parseZoned s)))
  | .primitive .uuid => match Uuid.parse? s with
    | some u => .ok (.uuid u)
    | none => .error .unreadable
  | .primitive (.decimal precision scale) => match Decimal.parse? s with
    | some d => decimalOfScale d s precision scale
    | none => .error .undefinedDecimal
  | .primitive .boolean =>
    if isWord "true" s then .ok (.boolean true)
    else if isWord "false" s then .ok (.boolean false)
    else .error (.failedConversion s type)
  | t => .error (.noConversion "StringLiteral" t)

def convert (l : Literal) (type : DataType) : Except Fault Literal :=
  match l, type with
  | .boolean _, .primitive .boolean => .ok l
  | .long n, t => convertLong n t
  | .float _, .primitive .float => .ok l
  | .float x, .primitive .double => ofDouble .double x
  | .float x, .primitive (.decimal _ scale) => decimalOfDouble x scale
  | .double _, .primitive .double => .ok l
  | .double x, .primitive .float => toFloat x
  | .double x, .primitive (.decimal _ scale) => decimalOfDouble x scale
  | .date _, .primitive .date => .ok l
  | .time _, .primitive .time => .ok l
  | .timestamp _, .primitive .timestamp => .ok l
  | .timestamp _, .primitive .timestamptz => .ok l
  | .timestamp n, .primitive .date => do pure (.date (.number (← Epoch.dayOfMicros n.toInt)))
  | .decimal d, .primitive (.decimal precision scale) =>
    decimalOfScale d d.render precision scale
  | .string s, t => convertText s t
  | .uuid _, .primitive .uuid => .ok l
  | .fixed bs, .primitive (.fixed length) =>
    if bs.length = length then .ok l
    else .error (.failedConversion (Text.quoteBytes bs) (.primitive (.fixed length)))
  | .fixed bs, .primitive .binary => .ok (.binary bs)
  | .binary _, .primitive .binary => .ok l
  | .binary bs, .primitive (.fixed length) =>
    if length = bs.length then .ok (.fixed bs)
    else .error (.lengthMismatch (.primitive (.fixed length)) length bs.length)
  | .aboveMax t, _ => .error (.markerConversion (className (.aboveMax t)))
  | .belowMin t, _ => .error (.markerConversion (className (.belowMin t)))
  | l, t => .error (.noConversion l.className t)

/-- An integer within the range of a type is no mark for one beyond it. -/
theorem clamp_inRange {t : Bounded} {low high : Int} {n : Whole} (h₁ : low ≤ n.toInt)
    (h₂ : n.toInt ≤ high) : clamp t low high n = .long n := by
  simp only [clamp]
  rw [if_neg (by omega), if_neg (by omega)]

end Literal

end PartitionPruning
