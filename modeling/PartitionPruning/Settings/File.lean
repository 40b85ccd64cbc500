import PartitionPruning.Fault
import PartitionPruning.Json.Writer
import PartitionPruning.Text.Folded

/-!
# Settings files

A settings file is a document written on one line, with a blank behind each comma and colon. It is
read by the rules of a richer format, which go wrong for some documents: there are characters that no
file may hold, keys have to be short and to stand on one line, and texts are folded. A number with an
exponent needs a point; without one it is a text.

`Settings.readFile` gives the document as it is read. When several things are wrong, the first one in
the file is reported. The characters are checked a block at a time, however, before anything in the
block is read.
-/

namespace PartitionPruning.Settings

/-! ### Text of a file -/

/-- A part of the text of a file. -/
inductive FilePart where
  | plain (chars : List Char)
  | key (s : String)
  | text (s : String)

def FilePart.chars : FilePart → List Char
  | .plain chars => chars
  | .key s | .text s => Json.stringChars s

mutual

/-- The parts of the text of a document. -/
def partsOf : Json → List FilePart
  | .string s => [.text s]
  | .array [] => [.plain ['[', ']']]
  | .array (item :: rest) => .plain ['['] :: (partsOf item ++ partsOfItems rest)
  | .object [] => [.plain ['\x7b', '\x7d']]
  | .object (m :: rest) => .plain ['\x7b'] :: (partsOfMember m ++ partsOfMembers rest)
  | .null => [.plain Json.null.chars]
  | .bool b => [.plain (Json.bool b).chars]
  | .int n => [.plain (Json.int n).chars]
  | .float x => [.plain (Json.float x).chars]
termination_by structural j => j

/-- The parts of the items of an array behind the first one, and of the closing bracket. -/
def partsOfItems : List Json → List FilePart
  | [] => [.plain [']']]
  | item :: rest => .plain [',', ' '] :: (partsOf item ++ partsOfItems rest)
termination_by structural items => items

/-- The parts of a key and its value. -/
def partsOfMember : Json.Member → List FilePart
  | ⟨key, value⟩ => .key key :: .plain [':', ' '] :: partsOf value
termination_by structural m => m

/-- The parts of the members of an object behind the first one, and of the closing brace. -/
def partsOfMembers : List Json.Member → List FilePart
  | [] => [.plain ['\x7d']]
  | m :: rest => .plain [',', ' '] :: (partsOfMember m ++ partsOfMembers rest)
termination_by structural members => members

end

/-! ### Defects -/

/-- Whether a file may hold a character. -/
def isAllowed (c : Char) : Bool :=
  let n := c.toNat
  n = 0x09 || n = 0x0A || n = 0x0D || (0x20 ≤ n && n ≤ 0x7E) || n = 0x85 ||
    (0xA0 ≤ n && n ≤ 0xD7FF) || (0xE000 ≤ n && n ≤ 0xFFFD) || 0x10000 ≤ n

/-- The number of characters that are checked together. -/
def blockSize : Nat := 4096

/-- Where the block of a position starts. The first two blocks are one. -/
def blockStart (position : Nat) : Nat :=
  if position < 2 * blockSize then 0 else position / blockSize * blockSize

/-- The largest number of characters that a key is written with. -/
def keyLimit : Nat := 1024

/-- A defect, and the position up to which characters have been checked when it is found. -/
structure Defect where
  fault : Fault
  checked : Nat

/-- A line of a string that would end the document. -/
def separatorDefect? (position : Nat) (s : String) : Option Defect :=
  (Text.separatorAt? (fun c => (Json.escapeChar c).length) (position + 1) s.toList).map fun p =>
    ⟨.documentMark, p + 3⟩

/-- A key that is too long or goes over several lines. It is found at the colon behind it. -/
def keyDefect? (position : Nat) (s : String) : Option Defect :=
  let length := (Json.stringChars s).length
  if keyLimit < length || s.toList.any Text.isLineBreak then
    some ⟨.settingsKey, position + length + 1⟩
  else none

/-- What is wrong with a part at a position. -/
def FilePart.defect? (position : Nat) : FilePart → Option Defect
  | .plain _ => none
  | .text s => separatorDefect? position s
  | .key s => (separatorDefect? position s).or (keyDefect? position s)

/-- The first defect of the parts from a position on. -/
def firstDefect? (position : Nat) : List FilePart → Option Defect
  | [] => none
  | p :: rest => (p.defect? position).or (firstDefect? (position + p.chars.length) rest)

/-- What is wrong with the file of a document. -/
def fileFault? (j : Json) : Option Fault :=
  let parts := partsOf j
  let forbidden := (parts.flatMap FilePart.chars).findIdx? (!isAllowed ·)
  match forbidden, firstDefect? 0 parts with
  | none, defect => defect.map Defect.fault
  | some _, none => some .forbiddenCharacter
  | some p, some d => if blockStart p ≤ d.checked then some .forbiddenCharacter else some d.fault

/-! ### Reading -/

def ofNumber (x : Binary64) : Json :=
  let chars := Json.floatChars x
  if chars.contains '.' then .float x else .string (String.ofList chars)

mutual

/-- A document as it is read from a file. -/
def ofFile : Json → Json
  | .float x => ofNumber x
  | .string s => .string (Text.fold s)
  | .array items => .array (ofFileItems items)
  | .object members => .object (ofFileMembers members)
  | .null => .null
  | .bool b => .bool b
  | .int n => .int n
termination_by structural j => j

/-- The items of an array as they are read. -/
def ofFileItems : List Json → List Json
  | [] => []
  | item :: rest => ofFile item :: ofFileItems rest
termination_by structural items => items

def ofFileMember : Json.Member → Json.Member
  | ⟨key, value⟩ => ⟨key, ofFile value⟩
termination_by structural m => m

/-- The members of an object as they are read. -/
def ofFileMembers : List Json.Member → List Json.Member
  | [] => []
  | m :: rest => ofFileMember m :: ofFileMembers rest
termination_by structural members => members

end

/-- A document as it is read from its file. -/
def readFile (j : Json) : Except Fault Json :=
  match fileFault? j with
  | some fault => .error fault
  | none => .ok (ofFile j)

end PartitionPruning.Settings
