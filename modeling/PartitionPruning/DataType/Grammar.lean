import PartitionPruning.Numeral.Limit
import PartitionPruning.Text.Brackets

/-!
# Reading the names of types

The name of a type without parameters is one of twelve words. The length of a fixed type stands in
brackets; the precision and the scale of a decimal type stand in parentheses, and of a name that
starts as one the first such pair counts.
-/

namespace PartitionPruning

/-- The types that are named by a word alone. -/
def Primitive.plain : List Primitive :=
  [.boolean, .int, .long, .float, .double, .date, .time, .timestamp, .timestamptz, .string, .uuid,
    .binary]

/-- The number in brackets behind a word. -/
def Text.Brackets.parse (word text : String) : Except Fault Nat :=
  match digits? word text with
  | some digits => Numeral.ofDigits digits
  | none => .error (.bracketForm text word)

namespace DataType

/-- The digits of the precision and of the scale, if a text starts with both of them in parentheses
after the word for decimals. -/
def decimalDigits? (cs : List Char) : Option (List Char × List Char) :=
  match Text.Brackets.afterWord? "decimal(".toList cs with
  | none => none
  | some rest =>
    let precision := rest.takeWhile Text.isDecimalDigit
    match rest.dropWhile Text.isDecimalDigit with
    | ',' :: rest =>
      let rest := rest.dropWhile Text.isBlank
      let scale := rest.takeWhile Text.isDecimalDigit
      match rest.dropWhile Text.isDecimalDigit with
      | ')' :: _ => if precision ≠ [] ∧ scale ≠ [] then some (precision, scale) else none
      | _ => none
    | _ => none

/-- The first place where the digits of a precision and a scale are found. -/
def findDecimalDigits? : List Char → Option (List Char × List Char)
  | [] => none
  | c :: rest => (decimalDigits? (c :: rest)).or (findDecimalDigits? rest)

/-- The decimal type of a name that starts as one. -/
def parseDecimal (name : String) : Except Fault DataType :=
  match findDecimalDigits? name.toList with
  | none => .error (.decimalForm name)
  | some (precision, scale) => do
    let precision ← Numeral.ofDigits precision
    let scale ← Numeral.ofDigits scale
    pure (.primitive (.decimal precision scale))

def parse (name : String) : Except Fault DataType :=
  match Primitive.plain.find? (·.render = name) with
  | some p => .ok (.primitive p)
  | none =>
    if "fixed".toList.isPrefixOf name.toList then
      (Text.Brackets.parse "fixed" name).map fun length => .primitive (.fixed length)
    else if "decimal".toList.isPrefixOf name.toList then parseDecimal name
    else .error (.unknownType name)

end DataType

end PartitionPruning
