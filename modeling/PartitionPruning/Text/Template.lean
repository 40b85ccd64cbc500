import PartitionPruning.Fault
import PartitionPruning.Numeral.Binary64

/-!
# Templates

A text or a row of bytes that is divided by a number is a template: the number is filled in at the
place that a percent sign marks. A filled template is no number, so the division always fails. What
`Template.fault` tells is the first thing that goes wrong.

Behind a percent sign come flags, a width, a precision, a letter for the size and a letter for the
kind. A star takes the number for a width or a precision. The number is there once only.
-/

namespace PartitionPruning.Text

/-- A text or a row of bytes. -/
inductive TemplateKind where
  | text
  | bytes
  deriving DecidableEq

namespace Template

def widthLimit : Nat := 9223372036854775807

def precisionLimit : Nat := 2147483647

def integerPrecisionLimit : Nat := precisionLimit - 3

/-- What is filled in at one place. -/
structure Filling where
  kind : TemplateKind
  number : Nat

namespace Filling

/-- Refuses what is no kind of filling, and a number that does not fit its kind. -/
def check (f : Filling) (precision : Nat) (c : Char) : Except Fault Unit :=
  if ['i', 'd', 'u', 'o', 'x', 'X'].contains c then
    if precision ≤ integerPrecisionLimit then .ok () else .error .outOfRange
  else if ['r', 'a'].contains c then .ok ()
  else match f.kind with
    | .text =>
      if c = 's' then .ok ()
      else if c = 'c' then if f.number < 0x110000 then .ok () else .error .outOfRange
      else if ['e', 'E', 'f', 'F', 'g', 'G'].contains c then
        if (Binary64.ofInt? f.number).isSome then .ok () else .error .outOfRange
      else .error .unreadable
    | .bytes =>
      if c = 's' ∨ c = 'b' then .error .wrongKind
      else if c = 'c' then if f.number < 0x100 then .ok () else .error .outOfRange
      else if ['e', 'E', 'f', 'F', 'g', 'G'].contains c then
        if (Binary64.ofInt? f.number).isSome then .ok () else .error .wrongKind
      else if c.toNat < 0x80 then .error .unreadable
      else .error .outOfRange

/-- Takes the number, which may be gone already. -/
def take (used : Bool) : Except Fault Unit := if used then .error .wrongKind else .ok ()

/-- A width or a precision, whether the number is gone behind it, and what follows. -/
def size (f : Filling) (limit : Nat) (used : Bool) (cs : List Char) :
    Except Fault (Nat × Bool × List Char) :=
  match cs with
  | '*' :: rest => do
    take used
    if limit < f.number then throw .outOfRange
    pure (f.number, true, rest)
  | cs => do
    let n := Numeral.natOfDigits Text.asciiDigit? (cs.takeWhile Char.isDigit)
    if limit < n then throw .unreadable
    pure (n, used, cs.dropWhile Char.isDigit)

/-- Fills in one place, behind its percent sign. Tells whether the number is gone and what follows. -/
def place (f : Filling) (used : Bool) (cs : List Char) : Except Fault (Bool × List Char) := do
  if cs.head? = some '%' then return (used, cs.drop 1)
  if cs.head? = some '(' then throw .wrongKind
  let (_, used, cs) ← f.size widthLimit used (cs.dropWhile ['-', '+', ' ', '#', '0'].contains)
  let (precision, used, cs) ← match cs with
    | '.' :: rest => f.size precisionLimit used rest
    | cs => pure (0, used, cs)
  let cs := if ['h', 'l', 'L'].any (cs.head? = some ·) then cs.drop 1 else cs
  match cs with
  | [] => throw .unreadable
  | c :: rest =>
    take used
    f.check precision c
    pure (true, rest)

/-- The first thing that goes wrong behind some places, where `left` bounds the number of further
ones. -/
def faultFrom (f : Filling) : (left : Nat) → (used : Bool) → List Char → Fault
  | 0, _, _ => .wrongKind
  | left + 1, used, cs => match cs.dropWhile (· ≠ '%') with
    | [] => .wrongKind
    | _ :: rest => match f.place used rest with
      | .ok (used, rest) => faultFrom f left used rest
      | .error fault => fault

end Filling

/-- The first thing that goes wrong when a template is divided by a number. -/
def fault (kind : TemplateKind) (number : Nat) (cs : List Char) : Fault :=
  Filling.faultFrom ⟨kind, number⟩ cs.length false cs

end Template

end PartitionPruning.Text
