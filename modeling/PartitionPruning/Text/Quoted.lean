import PartitionPruning.Text.Hex
import PartitionPruning.Text.Printable

/-!
# Quoted texts and bytes

A quoted text stands between single quotes, or between double quotes when it holds a single quote
and no double one. The mark and the backslash are escaped, line breaks and tabs have escapes of
their own, and any other character that is not printable is written by its code point. Quoted bytes
follow the same rules with a leading `b`; only printable ASCII stands for itself.
-/

namespace PartitionPruning.Text

def apostrophe : Char := Char.ofNat 0x27

def doubleQuote : Char := Char.ofNat 0x22

def backslash : Char := Char.ofNat 0x5C

/-- The quotation mark for a text: double only if that spares escapes. -/
def quoteMark (cs : List Char) : Char :=
  if cs.contains apostrophe && !cs.contains doubleQuote then doubleQuote else apostrophe

/-- The escapes that do not depend on the class of the character. -/
def namedEscape? (mark c : Char) : Option Char :=
  if c = mark ∨ c = backslash then some c
  else if c = '\t' then some 't'
  else if c = '\n' then some 'n'
  else if c = '\r' then some 'r'
  else none

/-- A character written by its code point. -/
def codeEscape (c : Char) : List Char :=
  if c.toNat < 0x100 then backslash :: 'x' :: Hex.padded 2 c.toNat
  else if c.toNat < 0x10000 then backslash :: 'u' :: Hex.padded 4 c.toNat
  else backslash :: 'U' :: Hex.padded 8 c.toNat

def escapeChar (mark c : Char) : List Char :=
  match namedEscape? mark c with
  | some e => [backslash, e]
  | none => if isPrintable c then [c] else codeEscape c

def quote (s : String) : String :=
  let mark := quoteMark s.toList
  String.ofList (mark :: (s.toList.flatMap (escapeChar mark) ++ [mark]))

def escapeByte (mark : Char) (b : UInt8) : List Char :=
  let c := Char.ofNat b.toNat
  match namedEscape? mark c with
  | some e => [backslash, e]
  | none => if 0x20 ≤ b.toNat && b.toNat < 0x7F then [c] else codeEscape c

def quoteBytes (bytes : List UInt8) : String :=
  let mark := quoteMark (bytes.map fun b => Char.ofNat b.toNat)
  String.ofList ('b' :: mark :: (bytes.flatMap (escapeByte mark) ++ [mark]))

end PartitionPruning.Text
