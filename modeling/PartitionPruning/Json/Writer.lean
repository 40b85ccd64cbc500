import PartitionPruning.Json.Basic
import PartitionPruning.Text.Hex

/-!
# Writing JSON

The text holds no blanks. In strings the quotation mark, the backslash and the control characters are
escaped, five of the latter by letters; every other character stands for itself.
-/

namespace PartitionPruning.Json

def escapeChar (c : Char) : List Char :=
  if c = '\x22' then ['\x5c', '\x22']
  else if c = '\x5c' then ['\x5c', '\x5c']
  else if c = '\n' then ['\x5c', 'n']
  else if c = '\r' then ['\x5c', 'r']
  else if c = '\t' then ['\x5c', 't']
  else if c = '\x08' then ['\x5c', 'b']
  else if c = '\x0c' then ['\x5c', 'f']
  else if c.toNat < 0x20 then '\x5c' :: 'u' :: Text.Hex.padded 4 c.toNat
  else [c]

def stringChars (s : String) : List Char :=
  '\x22' :: (s.toList.flatMap escapeChar ++ ['\x22'])

def floatChars (x : Binary64) : List Char :=
  if x.isNaN then "NaN".toList
  else if x.isInfinite then (if x.isNegative then "-Infinity" else "Infinity").toList
  else x.render.toList

def intChars (n : Int) : List Char :=
  if n < 0 then '-' :: Nat.toDigits 10 n.natAbs else Nat.toDigits 10 n.natAbs

mutual

def chars : Json → List Char
  | .null => "null".toList
  | .bool b => (if b then "true" else "false").toList
  | .int n => intChars n
  | .float x => floatChars x
  | .string s => stringChars s
  | .array [] => ['[', ']']
  | .array (item :: rest) => '[' :: (chars item ++ itemsChars rest)
  | .object [] => ['\x7b', '\x7d']
  | .object (m :: rest) => '\x7b' :: (memberChars m ++ membersChars rest)
termination_by structural j => j

/-- The items of an array behind the first one, and the closing bracket. -/
def itemsChars : List Json → List Char
  | [] => [']']
  | item :: rest => ',' :: (chars item ++ itemsChars rest)
termination_by structural items => items

def memberChars : Member → List Char
  | ⟨key, value⟩ => stringChars key ++ ':' :: chars value
termination_by structural m => m

/-- The members of an object behind the first one, and the closing brace. -/
def membersChars : List Member → List Char
  | [] => ['\x7d']
  | m :: rest => ',' :: (memberChars m ++ membersChars rest)
termination_by structural members => members

end

def render (j : Json) : String := String.ofList j.chars

end PartitionPruning.Json
