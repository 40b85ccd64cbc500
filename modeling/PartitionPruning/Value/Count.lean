import PartitionPruning.Numeral.Arithmetic
import PartitionPruning.Value.Text

/-!
# Values as counts

Dates count days from 1970, times of day microseconds from midnight and timestamps microseconds from
1970. Decimals count units of their last digit, which are their unscaled values; `Value.scaled` makes a
decimal of such a count and a scale.
-/

namespace PartitionPruning

/-- Why a decimal is refused where an integer is expected, after a first step of the arithmetic that
has added it to an integer. -/
def Decimal.refusal (n : Int) (x : Decimal) : Fault :=
  if x.isSignaling then .undefinedDecimal
  else if x.overflowsWith n then .decimalOverflow
  else .unreadable

namespace Value

def integer : Value → Except Fault Int
  | .int n => .ok n
  | .bool b => .ok (if b then 1 else 0)
  | _ => .error .wrongKind

/-- The text that a value is. -/
def string : Value → Except Fault String
  | .text s => .ok s
  | _ => .error .wrongKind

def dayCount : Value → Except Fault Int
  | .date d => .ok d.number
  | _ => .error .wrongKind

/-- The microseconds of a time of day, alone or in a timestamp. -/
def timeCount : Value → Except Fault Int
  | .time t => .ok t.micros
  | .timestamp t => .ok t.time.micros
  | _ => .error .lacksProperty

def momentCount : Value → Except Fault Int
  | .timestamp t => .ok t.micros
  | .time _ => .error .wrongKind
  | _ => .error .lacksProperty

def toDecimal : Value → Except Fault Decimal
  | .decimal d => .ok d
  | _ => .error .lacksProperty

/-- The value of a number, or of the text of one, as a decimal. -/
def exactDecimal : Value → Except Fault Decimal
  | .decimal d => .ok d
  | .float x => .ok x.toDecimal
  | .text s => match Decimal.parse? s with
    | some d => .ok d
    | none => .error .undefinedDecimal
  | v => v.integer.map Decimal.ofInt

/-- The scale that a value is. Only integers are scales; a decimal is refused after its sign has been
changed. -/
def scaleNumber : Value → Except Fault Int
  | .float _ => .error .unreadable
  | .decimal d => .error (d.refusal 0)
  | v => do
    let n ← v.integer
    if -2 ^ (63 : Nat) < n ∧ n ≤ 2 ^ (63 : Nat) then pure n else throw .outOfRange

/-- The digits of a number with a scale, which has to be within the limits of the arithmetic. -/
def scaled (v scale : Value) : Except Fault Decimal := do
  let d ← v.exactDecimal
  let n ← scale.scaleNumber
  if Decimal.inLimits d.unscaled.natAbs (-n) then pure (d.withScale n)
  else throw .undefinedDecimal

/-- The number of bytes of a decimal or of an unscaled value in two's complement. -/
def byteCount : Value → Except Fault Nat
  | .decimal d => .ok (Decimal.byteCount d.unscaled)
  | .int n => .ok (Decimal.byteCount n)
  | .bool b => .ok (Decimal.byteCount (if b then 1 else 0))
  | v => .error (.unsupportedValue v.render)

end Value

namespace Decimal

/-- The scale of a number, which has to be finite. -/
def scale (x : Decimal) : Except Fault Nat :=
  match x.scale? with
  | some s => .ok s
  | none => .error .unreadable

/-- The number with its unscaled value rounded down to a multiple of a width that is not zero. -/
def truncateTo (x : Decimal) (width : Int) : Except Fault Decimal := do
  if width = 0 then throw .divisionByZero
  pure (x.truncate width (← x.scale))

/-- The fault that a trouble of the arithmetic is. -/
def Trouble.fault : Trouble → Fault
  | .undefined => .undefinedDecimal
  | .overflow => .decimalOverflow

/-- The digits of the unscaled value cut to a multiple of a width, with the scale of the number. The
width may be a number of any kind. -/
def truncateBy (x : Decimal) (width : Value) : Except Fault Decimal :=
  match width with
  | .float w => do
    match w.cutInteger? x.unscaled with
    | none => throw .outOfRange
    | some cut =>
      if w.isZero then throw .divisionByZero
      pure (cut.toDecimal.withScale (← x.scale))
  | .decimal w => do
    let cut ← (cutInteger x.unscaled w).mapError Trouble.fault
    pure (cut.withScale (← x.scale))
  | w => do x.truncateTo (← w.integer)

/-- A width that is an integer needs no conversion. -/
theorem truncateBy_int (x : Decimal) (width : Int) :
    x.truncateBy (.int width) = x.truncateTo width := rfl

/-- A number that was made with a scale has it. -/
theorem scale_ofUnscaled (n : Int) (s : Nat) : (ofUnscaled n s).scale = .ok s := by
  simp [scale, scale?_ofUnscaled]

end Decimal

end PartitionPruning
