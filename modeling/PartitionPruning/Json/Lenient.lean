import PartitionPruning.Json.Basic

/-!
# Lenient readings of scalars

Metadata may give an integer as a truth value, as a number without fraction or as a numeral in a
string, and a truth value as a number or as one of the usual words. Texts have to be strings. Where
any document may stand for a truth value, only one that holds nothing is false.
-/

namespace PartitionPruning.Json

/-! ### Integers in strings -/

/-- Whether a character may follow the zeros in front of a numeral. -/
def startsNumber (c : Char) : Bool := c = '-' || ('1' ≤ c && c ≤ '9')

/-- What follows the character `last`, a zero or an underscore at the beginning of a numeral. Further
ones are dropped up to the first significant digit or a minus sign; the last character before a point
or before the end is kept. -/
def withoutZeros? (last : Char) : List Char → Option (List Char)
  | [] => some [last]
  | c :: rest =>
    if c = '0' || c = '_' then withoutZeros? c rest
    else if startsNumber c then some (c :: rest)
    else if c = '.' then some (last :: c :: rest)
    else none

/-- The numeral without zeros in front. -/
def significant? : List Char → Option (List Char)
  | [] => none
  | c :: rest =>
    if c = '0' then withoutZeros? c rest else if startsNumber c then some (c :: rest) else none

def withoutZeroFraction (cs : List Char) : List Char :=
  match cs.dropWhile (· ≠ '.') with
  | _ :: zeros => if zeros ≠ [] ∧ zeros.all (· = '0') then cs.takeWhile (· ≠ '.') else cs
  | [] => cs

/-- Whether every underscore behind `last` stands between two other characters. -/
def separatesBehind (last : Char) : List Char → Bool
  | [] => last ≠ '_'
  | c :: rest => !(last = '_' && c = '_') && separatesBehind c rest

/-- Whether every underscore stands between two other characters. -/
def separates (cs : List Char) : Bool := separatesBehind '_' cs

/-- The numeral without underscores, if they only separate. -/
def withoutSeparators (cs : List Char) : List Char :=
  if separates cs then cs.filter (· ≠ '_') else cs

/-- The integer of a plain numeral: a sign and digits, none of them a zero in front of others. -/
def plainInteger? (cs : List Char) : Option Int :=
  let (negative, digits) := match cs with
    | '-' :: rest => (true, rest)
    | rest => (false, rest)
  if digits ≠ [] && digits.all (Text.asciiDigit? · |>.isSome) &&
      (digits.head? ≠ some '0' || digits.length = 1) && cs.length ≤ Numeral.digitLimit then
    some (Numeral.signed negative (Numeral.natOfDigits Text.asciiDigit? digits))
  else none

/-- An integer numeral in a string. Blanks around it, a plus sign, zeros in front and a fraction of
zeros do not count, and underscores may separate the digits. -/
def integerText? (s : String) : Option Int := do
  let cs := Text.stripChars Text.isNumeralBlank s.toList
  let numeral ← significant? (if cs.head? = some '+' then cs.tail else cs)
  plainInteger? (withoutSeparators (withoutZeroFraction numeral))

/-! ### Scalars -/

/-- Whether a number is finite and has no fraction. -/
def isIntegral (x : Binary64) : Bool :=
  !x.isNaN && !x.isInfinite && x.magnitude.1 % 2 ^ (-x.magnitude.2).toNat = 0

/-- A number without fraction that an integer of 64 bits can hold. -/
def integerOfFloat? (x : Binary64) : Option Int :=
  if isIntegral x && x.truncate.natAbs < 2 ^ (63 : Nat) then some x.truncate else none

/-- The integer that a number or a truth value equals. -/
def whole? : Json → Option Int
  | .int n => some n
  | .bool b => some (if b then 1 else 0)
  | .float x => if isIntegral x then some x.truncate else none
  | _ => none

def integer? : Json → Option Int
  | .int n => some n
  | .bool b => some (if b then 1 else 0)
  | .float x => integerOfFloat? x
  | .string s => integerText? s
  | _ => none

def trueWords : List String := ["1", "on", "t", "true", "y", "yes"]

def falseWords : List String := ["0", "off", "f", "false", "n", "no"]

/-- The truth value that a word stands for. -/
def boolOfWord? (word : String) : Option Bool :=
  if trueWords.contains word then some true
  else if falseWords.contains word then some false
  else none

def boolean? : Json → Option Bool
  | .bool b => some b
  | .int n => if n = 0 then some false else if n = 1 then some true else none
  | .float x =>
    if isIntegral x then
      if x.truncate = 0 then some false else if x.truncate = 1 then some true else none
    else none
  | .string s => boolOfWord? (s.map Char.toLower)
  | _ => none

def text? : Json → Option String
  | .string s => some s
  | _ => none

/-! ### Documents as truth values -/

/-- Whether a document holds nothing: it is null, false, zero or empty. -/
def holdsNothing : Json → Bool
  | .null => true
  | .bool b => !b
  | .int n => n = 0
  | .float x => !x.isNaN && x.magnitude.1 = 0
  | .string s => s.isEmpty
  | .array items => items.isEmpty
  | .object members => members.isEmpty

end PartitionPruning.Json
