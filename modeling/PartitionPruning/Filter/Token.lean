import PartitionPruning.Filter.Basic
import PartitionPruning.Text.Tabs

/-!
# Tokens of filters

The text of a filter is a row of names, literals, comparisons and marks, with blanks between them
where words would run together.

A name is a row of parts joined by points; a part is a plain word or stands between double quotes. A
word that is a whole name may be a keyword instead, in any case and in a place where it does not
continue a numeral. A literal in single quotes is taken as it is, only that a doubled quote is one
quote; a numeral with a point is a decimal number, one without an integer.

`Token.scan` never fails: a character that starts no token is one of its own, which no filter
contains.
-/

namespace PartitionPruning

/-- A word with a meaning of its own. -/
inductive Keyword where
  | and
  | or
  | not
  | is
  | in
  | like
  | null
  | nan
  | true
  | false
  deriving DecidableEq, Repr

namespace Keyword

def all : List Keyword := [.and, .or, .not, .is, .in, .like, .null, .nan, .true, .false]

def text : Keyword → String
  | .and => "AND"
  | .or => "OR"
  | .not => "NOT"
  | .is => "IS"
  | .in => "IN"
  | .like => "LIKE"
  | .null => "NULL"
  | .nan => "NAN"
  | .true => "TRUE"
  | .false => "FALSE"

/-- The upper case of a letter of a keyword; the dotless i and the long s have one, too. -/
def upper (c : Char) : Char :=
  if c.toNat = 0x131 then 'I' else if c.toNat = 0x17F then 'S' else c.toUpper

/-- The keyword that a word is when case is ignored. -/
def ofWord? (word : List Char) : Option Keyword :=
  let letters := word.map upper
  all.find? (·.text.toList = letters)

end Keyword

/-- A part of a name. -/
inductive NamePart where
  | plain (word : List Char)
  | quoted (text : List Char)
  deriving DecidableEq, Repr

/-- A token of a filter. An integer of too many digits has no value. -/
inductive Token where
  | name (parts : List NamePart) (continues : Bool)
  | string (s : String)
  | decimal (d : Decimal)
  | integer (n : Option Int)
  | compare (op : Comparison)
  | opening
  | closing
  | comma
  | other
  deriving DecidableEq, Repr

/-! ### Words and names -/

namespace NamePart

/-- Whether a character is a letter that only keywords may hold. -/
def isKeywordLetter (c : Char) : Bool := c.toNat = 0x131 || c.toNat = 0x17F

/-- Whether a word may start with the character. -/
def isStart (c : Char) : Bool := c.isAlpha || c = '_' || isKeywordLetter c

/-- Whether a word may hold the character. -/
def isInner (c : Char) : Bool := c.isAlphanum || c = '_' || c = '$' || isKeywordLetter c

/-- The text of a part, if it may be part of a column's name. -/
def column? : NamePart → Option (List Char)
  | .plain word => if word.any isKeywordLetter then none else some word
  | .quoted text => some text

/-- The character that a letter behind a backslash stands for between double quotes. -/
def blankEscape? (c : Char) : Option Char :=
  if c = 't' then some '\t'
  else if c = 'n' then some '\n'
  else if c = 'f' then some '\x0c'
  else if c = 'r' then some '\r'
  else none

/-- Reads what stands between double quotes, behind the first one. -/
def scanQuoted? : List Char → Option (List Char × List Char)
  | [] => none
  | '\x22' :: '\x22' :: rest =>
    (scanQuoted? rest).map fun (text, rest) => ('\x22' :: text, rest)
  | '\x22' :: rest => some ([], rest)
  | '\x5c' :: c :: rest =>
    match blankEscape? c with
    | some blank => (scanQuoted? rest).map fun (text, rest) => (blank :: text, rest)
    | none => (scanQuoted? (c :: rest)).map fun (text, rest) => ('\x5c' :: text, rest)
  | c :: rest =>
    if c = '\n' ∨ c = '\r' then none
    else (scanQuoted? rest).map fun (text, rest) => (c :: text, rest)

/-- Reads a part of a name. -/
def scan? : List Char → Option (NamePart × List Char)
  | [] => none
  | c :: rest =>
    if c = '\x22' then (scanQuoted? rest).map fun (text, rest) => (.quoted text, rest)
    else if isStart c then
      some (.plain (c :: rest.takeWhile isInner), rest.dropWhile isInner)
    else none

/-- Reads the parts that follow behind points, where `left` bounds their number. -/
def scanMore : (left : Nat) → List Char → List NamePart × List Char
  | left + 1, '.' :: cs => match scan? cs with
    | some (part, rest) =>
      let (parts, rest) := scanMore left rest
      (part :: parts, rest)
    | none => ([], '.' :: cs)
  | _, cs => ([], cs)

end NamePart

namespace Token

def keyword? : Token → Option Keyword
  | .name [.plain word] false => Keyword.ofWord? word
  | _ => none

def column? : Token → Option String
  | .name parts _ =>
    (parts.mapM NamePart.column?).map fun texts =>
      ".".intercalate (texts.map String.ofList)
  | _ => none

/-- Whether a token is a name that starts with the word for negation. -/
def startsWithNot : Token → Bool
  | .name (.plain word :: _) false => Keyword.ofWord? word = some .not
  | _ => false

/-! ### Literals -/

/-- Reads what stands between single quotes, behind the first one. A backslash stays where it is and
takes the next character with it; behind a backslash and an `x` there has to be a hexadecimal digit. -/
def scanText? : List Char → Option (List Char × List Char)
  | [] => none
  | '\x27' :: '\x27' :: rest => (scanText? rest).map fun (text, rest) => ('\x27' :: text, rest)
  | '\x27' :: rest => some ([], rest)
  | '\x5c' :: 'x' :: c :: rest =>
    if (Text.Hex.value? c).isSome then
      (scanText? rest).map fun (text, rest) => ('\x5c' :: 'x' :: c :: text, rest)
    else none
  | '\x5c' :: c :: rest =>
    if c = 'x' then none
    else (scanText? rest).map fun (text, rest) => ('\x5c' :: c :: text, rest)
  | c :: rest =>
    if c = '\n' ∨ c = '\r' ∨ c = '\x5c' then none
    else (scanText? rest).map fun (text, rest) => (c :: text, rest)

/-- The integer of some digits, unless there are too many of them. -/
def integerOf (negative : Bool) (digits : List Char) : Option Int :=
  match Numeral.ofDigits digits with
  | .ok n => some (Numeral.signed negative n)
  | .error _ => none

/-- The decimal number of the digits in front of the point and behind it. -/
def decimalOf (negative : Bool) (whole part : List Char) : Decimal :=
  .finite negative (Numeral.natOfDigits Text.digitValue? (whole ++ part)) (-(part.length : Int))

/-- Reads an unsigned numeral; also tells whether a word may not follow it directly. -/
def scanUnsigned? (negative : Bool) (cs : List Char) : Option (Token × Bool × List Char) :=
  let whole := cs.takeWhile Text.isDecimalDigit
  let touches (digits : List Char) : Bool := digits.getLast?.any NamePart.isInner
  match cs.dropWhile Text.isDecimalDigit with
  | '.' :: rest =>
    let part := rest.takeWhile Text.isDecimalDigit
    if whole = [] ∧ part = [] then none
    else some (.decimal (decimalOf negative whole part), touches part,
      rest.dropWhile Text.isDecimalDigit)
  | rest => if whole = [] then none else some (.integer (integerOf negative whole), touches whole, rest)

/-- Reads a numeral with an optional sign. -/
def scanNumeral? (cs : List Char) : Option (Token × Bool × List Char) :=
  let (negative, body) := Numeral.splitSign cs
  scanUnsigned? negative body

def scanComparison? : List Char → Option (Comparison × List Char)
  | '<' :: '=' :: rest => some (.lessOrEqual, rest)
  | '<' :: '>' :: rest => some (.notEqual, rest)
  | '<' :: rest => some (.less, rest)
  | '>' :: '=' :: rest => some (.greaterOrEqual, rest)
  | '>' :: rest => some (.greater, rest)
  | '=' :: '=' :: rest => some (.equal, rest)
  | '=' :: rest => some (.equal, rest)
  | '!' :: '=' :: rest => some (.notEqual, rest)
  | _ => none

/-- Reads a mark or a literal in quotes, which starts with the given character. -/
def scanMark? (c : Char) (rest : List Char) : Option (Token × List Char) :=
  if c = '(' then some (.opening, rest)
  else if c = ')' then some (.closing, rest)
  else if c = ',' then some (.comma, rest)
  else if c = '\x27' then
    (scanText? rest).map fun (text, rest) => (.string (String.ofList text), rest)
  else (scanComparison? (c :: rest)).map fun (op, rest) => (.compare op, rest)

/-! ### Rows of tokens -/

/-- Whether a character only separates tokens. -/
def isBlank (c : Char) : Bool := c = ' ' || c = '\n' || c = '\t' || c = '\r'

/-- Reads the token that starts with a character, which is no blank. `continues` tells whether a word
in this place would continue a numeral; the result tells the same of the place behind the token. -/
def scanOne (continues : Bool) (c : Char) (rest : List Char) : Token × Bool × List Char :=
  match scanMark? c rest with
  | some (token, rest) => (token, false, rest)
  | none => match NamePart.scan? (c :: rest) with
    | some (part, rest) =>
      let (parts, rest) := NamePart.scanMore rest.length rest
      (.name (part :: parts) continues, false, rest)
    | none => (scanNumeral? (c :: rest)).getD (.other, false, rest)

/-- The tokens of a text, where `left` bounds their number. -/
def scanFrom : (left : Nat) → (continues : Bool) → List Char → List Token
  | 0, _, _ => []
  | _ + 1, _, [] => []
  | left + 1, continues, c :: rest =>
    if isBlank c then scanFrom left false rest
    else
      let (token, continues, rest) := scanOne continues c rest
      token :: scanFrom left continues rest

def tabWidth : Nat := 8

/-- The tokens of a text. Tabs become blanks first, also between quotes. -/
def scan (text : String) : List Token :=
  let cs := Text.expandTabs tabWidth 0 text.toList
  scanFrom cs.length false cs

end Token

end PartitionPruning
