/-!
# Whole numbers and truth values

Where an integer is asked for, a truth value may stand, counting as one or zero. It keeps its own text
and only arithmetic turns it into a number.
-/

namespace PartitionPruning

/-- An integer as it was given. -/
inductive Whole where
  | flag (b : Bool)
  | number (n : Int)
  deriving DecidableEq, Repr

namespace Whole

def toInt : Whole → Int
  | .flag b => if b then 1 else 0
  | .number n => n

/-- The text of an integer as it was given, whatever its length. -/
def render : Whole → String
  | .flag b => if b then "True" else "False"
  | .number n => toString n

instance : Coe Int Whole := ⟨.number⟩

/-- An integer counts as itself. -/
theorem toInt_number (n : Int) : (number n).toInt = n := rfl

end Whole

end PartitionPruning
