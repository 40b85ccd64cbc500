/-!
# Blank characters

`isBlank` is the white space of the Unicode standard together with the four ASCII separators.
Numerals may be surrounded by blanks too, but in a numeral the four separators do not count.
-/

namespace PartitionPruning.Text

/-- Whether a character is white space. -/
def isBlank (c : Char) : Bool :=
  let n := c.toNat
  (0x09 ≤ n && n ≤ 0x0D) || (0x1C ≤ n && n ≤ 0x20) || n = 0x85 || n = 0xA0 || n = 0x1680 ||
    (0x2000 ≤ n && n ≤ 0x200A) || n = 0x2028 || n = 0x2029 || n = 0x202F || n = 0x205F || n = 0x3000

/-- Whether a character is a blank that may surround a numeral. -/
def isNumeralBlank (c : Char) : Bool :=
  isBlank c && !(0x1C ≤ c.toNat && c.toNat ≤ 0x1F)

/-- The text without the characters of a class at either end. -/
def stripChars (p : Char → Bool) (cs : List Char) : List Char :=
  ((cs.dropWhile p).reverse.dropWhile p).reverse

/-- Nothing is taken from the ends of a text without characters of the class. -/
theorem stripChars_eq_self {p : Char → Bool} {cs : List Char} (h : ∀ c ∈ cs, p c = false) :
    stripChars p cs = cs := by
  have hself {cs : List Char} (h : ∀ c ∈ cs, p c = false) : cs.dropWhile p = cs := by
    cases cs with
    | nil => rfl
    | cons c rest => exact List.dropWhile_cons_of_neg (by simp [h c List.mem_cons_self])
  rw [stripChars, hself h, hself fun c hc => h c (List.mem_reverse.mp hc), List.reverse_reverse]

/-- The text without white space at either end. -/
def strip (s : String) : String := String.ofList (stripChars isBlank s.toList)

end PartitionPruning.Text
