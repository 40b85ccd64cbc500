import PartitionPruning.Assignment
import PartitionPruning.Json.Display
import PartitionPruning.Json.Lenient
import PartitionPruning.Settings.File
import PartitionPruning.Settings.Merge

/-!
# Settings

Settings are read from the first settings file that holds any and are overridden by environment
variables. In the name of a variable a double underscore separates the names of nested groups and a
single one stands for a dash.
-/

namespace PartitionPruning

/-- Where settings come from: the assignments to environment variables in their order, and the
documents in the settings files of the directory for settings and of the home directory. -/
structure SettingsSource where
  environment : List (String × String)
  settingsFile : Option Json
  homeFile : Option Json

/-- The settings of the program. -/
structure Settings where
  members : List Json.Member

namespace Settings

/-! ### Files -/

/-- The group of settings in a file, with names in lower case. A document that holds nothing is an
empty group, and a missing file has none. -/
def groupOfFile : Option Json → Except Fault (List Json.Member)
  | none => .ok []
  | some document => do
    match ← readFile document with
    | .object members => pure (Json.Member.lower members)
    | j => if j.holdsNothing then pure [] else throw .settingsForm

/-- The settings in the first file that holds any. -/
def ofFiles (source : SettingsSource) : Except Fault (List Json.Member) := do
  match ← groupOfFile source.settingsFile with
  | [] => groupOfFile source.homeFile
  | members => pure members

/-! ### Environment variables -/

/-- The beginning of the names of variables that are settings. -/
def variableMark : List Char := "pyresidual_".toList

/-- The variable that names the directory for settings and is none itself. -/
def directoryVariable : List Char := "pyresidual_home".toList

/-- The parts of a name between double underscores, found from the left. -/
def splitNested : List Char → List (List Char)
  | '_' :: '_' :: rest => [] :: splitNested rest
  | c :: rest => match splitNested rest with
    | [] => [[c]]
    | part :: parts => (c :: part) :: parts
  | [] => [[]]

/-- A name with dashes in the place of underscores. -/
def dashed (cs : List Char) : String :=
  String.ofList (cs.map fun c => if c = '_' then '-' else c)

/-- The names of the groups around a setting and its own, if a variable is a setting. -/
def pathOfVariable? (name : String) : Option (List String) :=
  let cs := (Text.toLower name).toList
  if variableMark.isPrefixOf cs && cs ≠ directoryVariable then
    some ((splitNested (cs.drop variableMark.length)).map dashed)
  else none

/-- A group with a value set at the end of a path. What is on the way has to be a group; it is made
where it is missing. -/
def setAt (value : Json) : List String → List Json.Member → Except Fault (List Json.Member)
  | [], members => .ok members
  | [name], members => .ok (Json.Member.put name value members)
  | name :: path, members => match Json.Member.find? name members with
    | none => do pure (Json.Member.put name (.object (← setAt value path [])) members)
    | some (.object inner) => do
      pure (Json.Member.put name (.object (← setAt value path inner)) members)
    | some _ => .error (.conflictingSettings name)

/-- A group with a variable put over it if the variable is a setting. -/
def setVariable (members : List Json.Member) (name value : String) :
    Except Fault (List Json.Member) :=
  match pathOfVariable? name with
  | some path => setAt (.string value) path members
  | none => .ok members

/-- The settings in the environment. A variable that is assigned again keeps its place. -/
def ofVariables (assignments : List (String × String)) : Except Fault (List Json.Member) :=
  (Assignment.ofPairs assignments).foldlM
    (fun members (name, value) => setVariable members name value) []

/-- The settings of the program: those of a file with those of the environment put over them. -/
def load (source : SettingsSource) : Except Fault Settings := do
  let file ← ofFiles source
  let environment ← ofVariables source.environment
  pure ⟨Json.Member.merge file environment⟩

/-! ### Asking for settings -/

/-- The value of a setting. One that is null is not set. -/
def get? (s : Settings) (name : String) : Option Json :=
  match Json.Member.find? name s.members with
  | some .null => none
  | found => found

/-- The integer that a value stands for. Numbers are cut towards zero. -/
def integerOf? : Json → Option Int
  | .bool b => some (if b then 1 else 0)
  | .int n => some n
  | .float x => if x.isNaN || x.isInfinite then none else some x.truncate
  | .string s => Numeral.parse? s
  | _ => none

/-- The truth value that a value stands for. -/
def booleanOf? : Json → Option Bool
  | .bool b => some b
  | j => Json.boolOfWord? (Text.toLower (Text.strip j.shown))

/-- The integer that a setting is set to. -/
def integer (s : Settings) (name : String) : Except Fault (Option Int) :=
  match s.get? name with
  | none => .ok none
  | some j => match integerOf? j with
    | some n => .ok (some n)
    | none => .error (.settingNotInteger name j.shown)

/-- The truth value that a setting is set to. -/
def boolean (s : Settings) (name : String) : Except Fault (Option Bool) :=
  match s.get? name with
  | none => .ok none
  | some j => match booleanOf? j with
    | some b => .ok (some b)
    | none => .error (.settingNotBoolean name j.shown)

/-- The number of workers that is set. -/
def maxWorkers (s : Settings) : Except Fault (Option Int) := s.integer "max-workers"

/-- Whether the case of names counts, which is the rule. -/
def caseSensitive (s : Settings) : Except Fault Bool :=
  (s.boolean "case-sensitive").map (·.getD true)

/-- The size of the pool of workers, if it is set. There has to be a worker. -/
def poolSize (s : Settings) : Except Fault (Option Nat) := do
  match ← s.maxWorkers with
  | none => pure none
  | some n => if 0 < n then pure (some n.toNat) else throw .noWorkers

end Settings

end PartitionPruning
