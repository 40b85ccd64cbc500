import PartitionPruning.Json.Basic
import PartitionPruning.Text.Hex

/-!
# Reading JSON

`Json.parse?` reads a whole text. Strings are first read as a row of code units, because the escape
of a character above `U+FFFF` is a pair of them, and then joined to characters. Three words stand for
the doubles that have no numeral.
-/

namespace PartitionPruning.Json

/-- Whether a character may stand between the parts of a document. -/
def isSpace (c : Char) : Bool := c = ' ' || c = '\t' || c = '\n' || c = '\r'

def skipSpace (cs : List Char) : List Char := cs.dropWhile isSpace

/-- The character of an escape of one letter. -/
def namedEscape? (c : Char) : Option Char :=
  if c = '\x22' ∨ c = '\x5c' ∨ c = '/' then some c
  else if c = 'n' then some '\n'
  else if c = 'r' then some '\r'
  else if c = 't' then some '\t'
  else if c = 'b' then some '\x08'
  else if c = 'f' then some '\x0c'
  else none

/-- Reads a string behind its opening quotation mark, as code units. -/
def units? : List Char → Option (List Nat × List Char)
  | [] => none
  | '\x22' :: rest => some ([], rest)
  | '\x5c' :: 'u' :: a :: b :: c :: d :: rest => do
    let unit ← Text.Hex.nat? [a, b, c, d]
    let (units, rest) ← units? rest
    pure (unit :: units, rest)
  | '\x5c' :: e :: rest => do
    let c ← namedEscape? e
    let (units, rest) ← units? rest
    pure (c.toNat :: units, rest)
  | c :: rest => do
    let (units, rest) ← units? rest
    pure (c.toNat :: units, rest)

/-- Joins code units to characters: two halves of a pair to one, a lone half to the replacement
character. -/
def ofUnits : List Nat → List Char
  | [] => []
  | [unit] => [if unit.isValidChar then Char.ofNat unit else Char.ofNat 0xFFFD]
  | high :: low :: rest =>
    if 0xD800 ≤ high ∧ high < 0xDC00 ∧ 0xDC00 ≤ low ∧ low < 0xE000 then
      Char.ofNat (0x10000 + (high - 0xD800) * 0x400 + (low - 0xDC00)) :: ofUnits rest
    else (if high.isValidChar then Char.ofNat high else Char.ofNat 0xFFFD) :: ofUnits (low :: rest)

/-- Reads a string behind its opening quotation mark. -/
def string? (cs : List Char) : Option (String × List Char) :=
  (units? cs).map fun (units, rest) => (String.ofList (ofUnits units), rest)

def isNumberChar (c : Char) : Bool :=
  Numeral.Scientific.isDigit c || c = '-' || c = '+' || c = '.' || c = 'e' || c = 'E'

/-- Reads a number: an integer if it is nothing but digits after the sign, of which there must not be
more than `Numeral.digitLimit`. -/
def number? (cs : List Char) : Option (Json × List Char) := do
  let run := cs.takeWhile isNumberChar
  let rest := cs.dropWhile isNumberChar
  let (negative, body) := match run with
    | '-' :: digits => (true, digits)
    | digits => (false, digits)
  if body = [] then none
  else if body.all Numeral.Scientific.isDigit then
    if body.length ≤ Numeral.digitLimit then
      pure (.int (Numeral.signed negative (Numeral.natOfDigits Text.asciiDigit? body)), rest)
    else none
  else
    let (c, e) ← Numeral.Scientific.scan? body
    pure (.float (Binary64.ofScientific negative c e), rest)

/-- Drops a word that has to stand here. -/
def expect? : (word cs : List Char) → Option (List Char)
  | [], cs => some cs
  | _ :: _, [] => none
  | w :: word, c :: cs => if w = c then expect? word cs else none

mutual

/-- Reads a document, with blanks in front of it. -/
def value? : (fuel : Nat) → List Char → Option (Json × List Char)
  | 0, _ => none
  | fuel + 1, cs => match skipSpace cs with
    | [] => none
    | '\x22' :: rest => do
      let (s, rest) ← string? rest
      pure (.string s, rest)
    | '[' :: rest => match skipSpace rest with
      | ']' :: rest => some (.array [], rest)
      | rest => do
        let (items, rest) ← items? fuel rest
        pure (.array items, rest)
    | '\x7b' :: rest => match skipSpace rest with
      | '\x7d' :: rest => some (.object [], rest)
      | rest => do
        let (members, rest) ← members? fuel rest
        pure (.object (Member.ofPairs members), rest)
    | 't' :: rest => (expect? "rue".toList rest).map (.bool true, ·)
    | 'f' :: rest => (expect? "alse".toList rest).map (.bool false, ·)
    | 'n' :: rest => (expect? "ull".toList rest).map (.null, ·)
    | 'N' :: rest => (expect? "aN".toList rest).map (.float Binary64.nan, ·)
    | 'I' :: rest => (expect? "nfinity".toList rest).map (.float (Binary64.infinity false), ·)
    | '-' :: 'I' :: rest => (expect? "nfinity".toList rest).map (.float (Binary64.infinity true), ·)
    | c :: rest => number? (c :: rest)

/-- Reads one or more items and the closing bracket. -/
def items? : (fuel : Nat) → List Char → Option (List Json × List Char)
  | 0, _ => none
  | fuel + 1, cs => do
    let (item, rest) ← value? fuel cs
    match skipSpace rest with
    | ',' :: rest =>
      let (items, rest) ← items? fuel rest
      pure (item :: items, rest)
    | ']' :: rest => pure ([item], rest)
    | _ => none

/-- Reads one or more members and the closing brace. -/
def members? : (fuel : Nat) → List Char → Option (List Member × List Char)
  | 0, _ => none
  | fuel + 1, cs => match skipSpace cs with
    | '\x22' :: rest => do
      let (key, rest) ← string? rest
      match skipSpace rest with
      | ':' :: rest =>
        let (value, rest) ← value? fuel rest
        match skipSpace rest with
        | ',' :: rest =>
          let (members, rest) ← members? fuel rest
          pure (⟨key, value⟩ :: members, rest)
        | '\x7d' :: rest => pure ([⟨key, value⟩], rest)
        | _ => none
      | _ => none
    | _ => none

end

/-- Reads a text that holds one document. Each step of the reader either takes a character or goes
one level down, so twice the length of the text bounds the steps. -/
def parse? (text : String) : Option Json :=
  let cs := text.toList
  match value? (2 * cs.length + 2) cs with
  | some (j, rest) => if skipSpace rest = [] then some j else none
  | none => none

end PartitionPruning.Json
