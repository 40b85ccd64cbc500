import PartitionPruning.Numeral.Integer

/-!
# Numbers in brackets

Names such as `bucket[22]` carry a number of any number of digits behind a word. A single line break
may follow the closing bracket.
-/

namespace PartitionPruning.Text.Brackets

def afterWord? : (word cs : List Char) → Option (List Char)
  | [], cs => some cs
  | _ :: _, [] => none
  | p :: word, c :: cs => if p = c then afterWord? word cs else none

/-- The digits between the brackets of a text, if the text has the form of a name with the word. -/
def digits? (word : String) (text : String) : Option (List Char) :=
  match afterWord? word.toList text.toList with
  | some ('[' :: rest) =>
    let digits := rest.takeWhile isDecimalDigit
    let tail := rest.dropWhile isDecimalDigit
    if digits ≠ [] ∧ (tail = [']'] ∨ tail = [']', '\n']) then some digits else none
  | _ => none

/-- Behind a word stands what follows it. -/
theorem afterWord?_self {word : List Char} (rest : List Char) :
    afterWord? word (word ++ rest) = some rest := by
  induction word with
  | nil => rfl
  | cons c word ih => simp [afterWord?, ih]

end PartitionPruning.Text.Brackets
