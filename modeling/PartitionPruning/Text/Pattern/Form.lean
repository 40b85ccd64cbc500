import PartitionPruning.Text.Pattern.Reader
import PartitionPruning.Text.Pattern.Search

/-!
# Names of a form

A form is a pattern for what stands in front of a number in brackets. The number of a name is what
the first group finds when the name is searched for the form and the brackets; a group of the form
itself comes before the one around the digits.
-/

namespace PartitionPruning.Text

/-- A form of names with a number in brackets. -/
structure NameForm where
  text : String
  pattern : Pattern

namespace NameForm

/-- Reads a form. It is read together with the brackets, so that it may end in the middle of a part. -/
def parse (text : String) : Except Fault NameForm := do
  let pattern ← Pattern.parse ("^" ++ text ++ "\\[(\\d+)\\]$")
  pure ⟨text, pattern⟩

def number (form : NameForm) (name : String) : Except Fault Int :=
  match form.pattern.search name with
  | none => .error (.bracketForm name form.text)
  | some found => match found.group? 1 with
    | none => .error .wrongKind
    | some digits => match Numeral.parse? (String.ofList digits) with
      | some n => .ok n
      | none => .error .unreadable

end NameForm

end PartitionPruning.Text
