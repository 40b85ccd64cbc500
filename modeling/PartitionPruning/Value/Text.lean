import PartitionPruning.Numeral.Limit
import PartitionPruning.Value.Basic

/-!
# The text of a value

`Value.render` is the text of a value on its own. `Value.inspect` is its text inside a record or a
list, where texts are quoted and other values say how they are made. These are the texts of values with
numbers of any length; `Value.write` is the text that is written, which a number may be too long for.
-/

namespace PartitionPruning

def commas (parts : List String) : String := ", ".intercalate parts

def commaNumbers (parts : List Int) : String := commas (parts.map toString)

namespace Date

def inspect (d : Date) : String :=
  "datetime.date(" ++ commaNumbers [d.year, d.month, d.day] ++ ")"

end Date

namespace TimeOfDay

/-- The hour and the minute, the second and the microsecond, of which zeros at the end are left
out. -/
def parts (t : TimeOfDay) : List Int :=
  if t.micro ≠ 0 then [t.hour, t.minute, t.second, t.micro]
  else if t.second ≠ 0 then [t.hour, t.minute, t.second]
  else [t.hour, t.minute]

/-- How a time of day is made. -/
def inspect (t : TimeOfDay) : String := "datetime.time(" ++ commaNumbers t.parts ++ ")"

end TimeOfDay

namespace Timestamp

/-- A part of a duration, unless it is zero. -/
def durationPart (unit : String) (n : Int) : List String :=
  if n = 0 then [] else [unit ++ "=" ++ toString n]

def inspectOffset (offset : Int) : String :=
  if offset = 0 then "datetime.timezone.utc"
  else
    let day := offset / 86400000000
    let inDay := offset % 86400000000
    "datetime.timezone(datetime.timedelta(" ++
      commas (durationPart "days" day ++ durationPart "seconds" (inDay / 1000000) ++
        durationPart "microseconds" (inDay % 1000000)) ++ "))"

def inspect (t : Timestamp) : String :=
  "datetime.datetime(" ++
    commas ([t.date.year, t.date.month, t.date.day].map toString ++ t.time.parts.map toString ++
      (t.offset.map fun offset => "tzinfo=" ++ inspectOffset offset).toList) ++ ")"

end Timestamp

namespace Value

/-- The names that the positions of a record have when none are given. -/
def positionName (position : Nat) : String := "field" ++ toString (position + 1)

mutual

def inspect : Value → String
  | .null => "None"
  | .bool b => renderBool b
  | .int n => toString n
  | .float x => x.render
  | .text s => Text.quote s
  | .decimal d => "Decimal(" ++ Text.quote d.render ++ ")"
  | .bytes bs => Text.quoteBytes bs
  | .uuid u => "UUID(" ++ Text.quote u.render ++ ")"
  | .date d => d.inspect
  | .time t => t.inspect
  | .timestamp t => t.inspect
  | .record fields => "Record[" ++ commas (inspectFields 0 fields) ++ "]"
  | .list items => "[" ++ commas (inspectItems items) ++ "]"
  | .type t => t.inspect
termination_by structural v => v

/-- The fields of a record with their names. -/
def inspectFields (position : Nat) : List Value → List String
  | [] => []
  | v :: rest =>
    (positionName position ++ "=" ++ inspect v) :: inspectFields (position + 1) rest
termination_by structural fields => fields

def inspectItems : List Value → List String
  | [] => []
  | v :: rest => inspect v :: inspectItems rest
termination_by structural items => items

end

/-- The text of a value on its own. -/
def render : Value → String
  | .text s => s
  | .decimal d => d.render
  | .uuid u => u.render
  | .date d => d.render
  | .time t => t.render
  | .timestamp t => t.render " "
  | .type t => t.render
  | v => v.inspect

/-! ### Numbers in texts -/

mutual

/-- The integers in the text of a value. -/
def numbers : Value → List Nat
  | .int n => [n.natAbs]
  | .record fields => numbersList fields
  | .list items => numbersList items
  | .type t => t.numbers
  | _ => []
termination_by structural v => v

def numbersList : List Value → List Nat
  | [] => []
  | v :: rest => numbers v ++ numbersList rest
termination_by structural items => items

end

/-- The text of a value as it is written. -/
def write (v : Value) : Except Fault String := Numeral.write v.numbers v.render

end Value

end PartitionPruning
