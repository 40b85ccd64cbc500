import PartitionPruning.Text.Blank
import PartitionPruning.Text.Case
import PartitionPruning.Text.Digit
import PartitionPruning.Text.Word

/-!
# Sets of characters

A set in a pattern is a list of ranges of code points and of named classes, or everything but those.
When case is ignored, a character is in a range together with all characters that have the same
`CharMode.folded` form.
-/

namespace PartitionPruning.Text

/-- How characters are compared and which of them the named classes hold. -/
structure CharMode where
  ignoreCase : Bool
  asciiOnly : Bool
  deriving DecidableEq, Repr

namespace CharMode

/-- Case counts and the named classes hold characters of every script. -/
def exact : CharMode := ⟨false, false⟩

/-- Lower case characters with the same upper case as another one, which comes second. -/
def sameUpper : List (Nat × Nat) :=
  [(0x131, 0x69), (0x17F, 0x73), (0x3B9, 0x345), (0x3BC, 0xB5), (0x3C3, 0x3C2), (0x3D0, 0x3B2),
   (0x3D1, 0x3B8), (0x3D5, 0x3C6), (0x3D6, 0x3C0), (0x3F0, 0x3BA), (0x3F1, 0x3C1), (0x3F5, 0x3B5),
   (0x1C80, 0x432), (0x1C81, 0x434), (0x1C82, 0x43E), (0x1C83, 0x441), (0x1C84, 0x442),
   (0x1C85, 0x442), (0x1C86, 0x44A), (0x1C87, 0x463), (0x1E9B, 0x1E61), (0x1FBE, 0x345),
   (0x1FD3, 0x390), (0x1FE3, 0x3B0), (0xA64B, 0x1C88), (0xFB06, 0xFB05)]

/-- The lower case of a code point, by itself. -/
def lowered (m : CharMode) (n : Nat) : Nat :=
  if !m.ignoreCase then n
  else if m.asciiOnly then if 0x41 ≤ n ∧ n ≤ 0x5A then n + 0x20 else n
  else if n = 0x130 then 0x69
  else if n.isValidChar then (lowerChar (Char.ofNat n)).toNat
  else n

/-- The form that characters share which count as the same one. -/
def folded (m : CharMode) (n : Nat) : Nat :=
  let low := m.lowered n
  if m.ignoreCase ∧ ¬m.asciiOnly then (sameUpper.lookup low).getD low else low

end CharMode

/-- The classes of characters that have a name. -/
inductive CharClass where
  | digit
  | blank
  | word
  deriving DecidableEq, Repr

def CharClass.contains (m : CharMode) (c : Char) : CharClass → Bool
  | .digit => isDecimalDigit c && (!m.asciiOnly || c.toNat < 0x80)
  | .blank =>
    if m.asciiOnly then c = ' ' || (0x09 ≤ c.toNat && c.toNat ≤ 0x0D) else isBlank c
  | .word => isWordChar c && (!m.asciiOnly || c.toNat < 0x80)

/-- A part of a set: the code points from one to another, or a named class or all but it. -/
inductive CharItem where
  | range (first last : Nat)
  | named (negated : Bool) (k : CharClass)
  deriving DecidableEq, Repr

namespace CharItem

def single (n : Nat) : CharItem := .range n n

/-- Whether a part of a set holds a character. -/
def contains (m : CharMode) (c : Char) : CharItem → Bool
  | .range first last =>
    (first ≤ c.toNat && c.toNat ≤ last) ||
      (m.ignoreCase && (List.range' first (last + 1 - first)).any fun n =>
        m.folded n = m.folded c.toNat)
  | .named negated k => negated != k.contains m c

end CharItem

/-- A set of characters: those of some parts, or all others. -/
structure CharSet where
  negated : Bool
  items : List CharItem
  mode : CharMode
  deriving DecidableEq, Repr

namespace CharSet

def all : CharSet := ⟨true, [], .exact⟩

/-- The set of all characters but the line break. -/
def inLine : CharSet := ⟨true, [.single 0x0A], .exact⟩

def single (m : CharMode) (n : Nat) : CharSet := ⟨false, [.single n], m⟩

def contains (s : CharSet) (c : Char) : Bool := s.negated != s.items.any (·.contains s.mode c)

/-- Where case counts, a set of one character holds that one only. -/
theorem contains_single_exact (n : Nat) (c : Char) :
    (single .exact n).contains c = (n = c.toNat) := by
  simp [contains, single, CharItem.single, CharItem.contains, CharMode.exact]
  omega

end CharSet

end PartitionPruning.Text
