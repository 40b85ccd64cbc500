import PartitionPruning.Fault
import PartitionPruning.Numeral.Integer
import PartitionPruning.Text.Pattern.Basic

/-!
# Reading patterns

A pattern is written as text in which most characters stand for themselves. A point is any character
but a line break, `^` and `$` are the ends of the text, `|` stands between alternatives, brackets hold
a set and parentheses a group. `*`, `+`, `?` and counts in braces repeat what comes before them; a `?`
behind makes them prefer fewer repetitions and a `+` makes them keep the first choice. A backslash
gives letters and digits a meaning and takes it from all else. A group that starts with `?` is one of
a dozen special forms.

`Pattern.parse` reads a whole text as a pattern.
-/

namespace PartitionPruning.Text

/-- Options that hold for a part of a pattern. -/
structure PatternMode where
  chars : CharMode
  /-- The ends of lines count as ends of the text. -/
  everyLine : Bool
  /-- A point stands for a line break, too. -/
  anyChar : Bool
  /-- Blanks and comments between the parts do not count. -/
  spaced : Bool

namespace PatternMode

def plain : PatternMode := ⟨.exact, false, false, false⟩

def point (m : PatternMode) : CharSet := if m.anyChar then .all else .inLine

end PatternMode

/-- How far a pattern is read. -/
structure PatternReading where
  rest : List Char
  /-- The count of groups that were opened. -/
  opened : Nat
  /-- The groups that were closed. -/
  closed : List (Nat × Width)
  names : List (String × Nat)
  /-- The numbers of groups that conditions ask for. -/
  asked : List Nat
  /-- The count of groups in front of the outermost look back around this place. -/
  floor : Option Nat
  /-- There is a look back at texts of several lengths, which no pattern may have. -/
  loose : Bool

abbrev PatternReader := StateT PatternReading (Except Fault)

/-- A character of a pattern, plain or behind a backslash. -/
inductive PatternMark where
  | plain (c : Char)
  | escaped (c : Char)
  deriving DecidableEq

namespace PatternMark

def first? : List Char → Option (PatternMark × List Char)
  | [] => none
  | '\x5c' :: c :: rest => some (.escaped c, rest)
  | c :: rest => some (.plain c, rest)

def text : PatternMark → List Char
  | .plain c => [c]
  | .escaped c => ['\x5c', c]

end PatternMark

namespace PatternReader

/-! ### Marks -/

def refuse : PatternReader α := throw .patternForm

def mark : PatternReader PatternMark := do
  match PatternMark.first? (← get).rest with
  | some (m, rest) => modify fun s => { s with rest := rest }; pure m
  | none => refuse

/-- Reads a plain character if it is the next mark. -/
def accept (c : Char) : PatternReader Bool := do
  match (← get).rest with
  | d :: rest => if c = d then modify fun s => { s with rest := rest }; pure true else pure false
  | [] => pure false

/-- Reads a plain character that has to be the next mark. -/
def expect (c : Char) : PatternReader Unit := do
  if !(← accept c) then refuse

/-- Reads at most so many plain characters of a kind. -/
def upTo (count : Nat) (p : Char → Bool) : PatternReader (List Char) := do
  let found := ((← get).rest.take count).takeWhile p
  modify fun s => { s with rest := s.rest.drop found.length }
  pure found

/-- Splits a text behind its first plain mark of a kind. -/
def splitMark? (c : Char) : (left : Nat) → List Char → Option (List Char × List Char)
  | 0, _ => none
  | left + 1, cs => match PatternMark.first? cs with
    | none => none
    | some (m, rest) =>
      if m = .plain c then some ([], rest)
      else (splitMark? c left rest).map fun (text, rest) => (m.text ++ text, rest)

/-- Reads to the next plain mark of a kind and over it. -/
def past (c : Char) : PatternReader (List Char) := do
  let s ← get
  match splitMark? c s.rest.length s.rest with
  | some (text, rest) => set { s with rest := rest }; pure text
  | none => refuse

/-! ### Escapes -/

/-- Whether a character is an octal digit. -/
def isOctal (c : Char) : Bool := '0' ≤ c && c ≤ '7'

/-- The number that digits of a base stand for. -/
def number (base : Nat) (digits : List Char) : Nat :=
  digits.foldl (fun n c => base * n + (Hex.value? c).getD 0) 0

/-- Reads a character given by exactly so many hexadecimal digits. -/
def hexadecimal (count : Nat) : PatternReader Nat := do
  let digits ← upTo count fun c => (Hex.value? c).isSome
  let n := number 16 digits
  if digits.length = count ∧ n < 0x110000 then pure n else refuse

def control? (c : Char) : Option Nat :=
  [('a', 0x07), ('f', 0x0C), ('n', 0x0A), ('r', 0x0D), ('t', 0x09), ('v', 0x0B)].lookup c

/-- The class of a letter; a capital stands for all other characters. -/
def class? (c : Char) : Option CharItem :=
  [('d', .named false .digit), ('D', .named true .digit), ('s', .named false .blank),
    ('S', .named true .blank), ('w', .named false .word), ('W', .named true .word)].lookup c

/-- Reads the one character that a letter or another character, but no digit, stands for. -/
def escapedChar (c : Char) : PatternReader Nat :=
  match control? c with
  | some n => pure n
  | none =>
    if c = 'x' then hexadecimal 2
    else if c = 'u' then hexadecimal 4
    else if c = 'U' then hexadecimal 8
    else if c.isAlphanum then refuse
    else pure c.toNat

def octalChar (digits : List Char) : PatternReader Nat :=
  if number 8 digits ≤ 0xFF then pure (number 8 digits) else refuse

/-! ### Sets -/

/-- Reads a part of a set that starts with a mark. -/
def setItem : PatternMark → PatternReader CharItem
  | .plain c => pure (.single c.toNat)
  | .escaped c => match class? c with
    | some k => pure k
    | none => do
      if c = 'b' then pure (.single 0x08)
      else if isOctal c then pure (.single (← octalChar (c :: (← upTo 2 isOctal))))
      else pure (.single (← escapedChar c))

/-- The range from one character to another. -/
def rangeOf : CharItem → CharItem → PatternReader CharItem
  | .range first _, .range last _ => if first ≤ last then pure (.range first last) else refuse
  | _, _ => refuse

/-- Reads the parts of a set that follow others, where `left` bounds their number. -/
def setItems : (left : Nat) → List CharItem → PatternReader (List CharItem)
  | 0, _ => refuse
  | left + 1, items => do
    let m ← mark
    if m = .plain ']' ∧ items ≠ [] then return items
    let item ← setItem m
    if ← accept '-' then
      let m ← mark
      if m = .plain ']' then return items ++ [item, .single '-'.toNat]
      setItems left (items ++ [← rangeOf item (← setItem m)])
    else setItems left (items ++ [item])

/-- Reads a set behind its opening bracket. -/
def charSet (m : CharMode) : PatternReader CharSet := do
  let negated ← accept '^'
  pure ⟨negated, ← setItems ((← get).rest.length + 1) [], m⟩

/-! ### Groups that were read before -/

/-- Whether a group may be asked for: inside a look back only those in front of it may. -/
def reachable (n : Nat) : PatternReader Bool := do
  let s ← get
  match s.floor with
  | some floor => pure (n ≤ floor && (s.closed.lookup n).isSome)
  | none => pure true

def again (m : PatternMode) (n : Nat) : PatternReader Pattern := do
  if ((← get).closed.lookup n).isSome && (← reachable n) then pure (.again n m.chars) else refuse

/-- Reads a number that starts with a digit other than zero: three octal digits are a character, all
others the number of a group. -/
def numbered (m : PatternMode) (c : Char) : PatternReader Pattern := do
  match ← upTo 1 Char.isDigit with
  | [d] =>
    if isOctal c && isOctal d then
      match ← upTo 1 isOctal with
      | [e] => return .char (.single m.chars (← octalChar [c, d, e]))
      | _ => pure ()
    again m (number 10 [c, d])
  | _ => again m (number 10 [c])

/-! ### Parts -/

/-- Reads the part that a character behind a backslash starts. -/
def escaped (m : PatternMode) (c : Char) : PatternReader Pattern :=
  match class? c with
  | some k => pure (.char ⟨false, [k], m.chars⟩)
  | none => do
    if c = 'A' then pure (.place .textStart)
    else if c = 'Z' then pure (.place .textEnd)
    else if c = 'b' then pure (.place (.wordEdge m.chars))
    else if c = 'B' then pure (.place (.noWordEdge m.chars))
    else if c = '0' then
      pure (.char (.single m.chars (← octalChar (c :: (← upTo 2 isOctal)))))
    else if c.isDigit then numbered m c
    else pure (.char (.single m.chars (← escapedChar c)))

/-- Reads the part that a mark starts, which is no group and no repetition. -/
def part (m : PatternMode) : PatternMark → PatternReader Pattern
  | .escaped c => escaped m c
  | .plain '.' => pure (.char m.point)
  | .plain '^' => pure (.place (if m.everyLine then .lineStart else .textStart))
  | .plain '$' => pure (.place (if m.everyLine then .lineEnd else .lastLineEnd))
  | .plain '[' => return .char (← charSet m.chars)
  | .plain c => pure (.char (.single m.chars c.toNat))

/-! ### Repetition -/

/-- The number that no count of repetitions reaches. -/
def countLimit : Nat := 4294967295

/-- A count of repetitions, which may be left out. -/
def count? (digits : List Char) : PatternReader (Option Nat) :=
  if digits = [] then pure none
  else if number 10 digits < countLimit then pure (some (number 10 digits))
  else throw .outOfRange

/-- The digits of the counts in braces, behind the opening one. -/
def counts? (cs : List Char) : Option (List Char × List Char × List Char) :=
  let least := cs.takeWhile Char.isDigit
  match cs.dropWhile Char.isDigit with
  | '}' :: rest => if least = [] then none else some (least, least, rest)
  | ',' :: rest => match rest.dropWhile Char.isDigit with
    | '}' :: behind => some (least, rest.takeWhile Char.isDigit, behind)
    | _ => none
  | _ => none

/-- Reads how often a part is repeated, if a mark starts a repetition. -/
def repetition : PatternMark → PatternReader (Option (Nat × Option Nat))
  | .plain '*' => pure (some (0, none))
  | .plain '+' => pure (some (1, none))
  | .plain '?' => pure (some (0, some 1))
  | .plain '{' => do
    let s ← get
    match counts? s.rest with
    | none => pure none
    | some (least, most, rest) =>
      set { s with rest := rest }
      let least := (← count? least).getD 0
      let most ← count? most
      if most.any (· < least) then refuse
      pure (some (least, most))
  | _ => pure none

/-- Whether a part may be repeated: places may not, and repetitions may only inside groups. -/
def isRepeatable : Pattern → Bool
  | .place _ | .times .. => false
  | .firstOf (.times ..) => false
  | _ => true

/-- Repeats the last one of some parts, which are in reverse order. -/
def repeated (least : Nat) (most : Option Nat) : List Pattern → PatternReader (List Pattern)
  | [] => refuse
  | p :: before => do
    if !isRepeatable p then refuse
    if ← accept '?' then pure (.times true least most p :: before)
    else if ← accept '+' then pure (.firstOf (.times false least most (.firstOf p)) :: before)
    else pure (.times false least most p :: before)

/-! ### Options -/

/-- Whether options can be switched off by a letter. -/
def isSwitch (c : Char) : Bool := c = 'i' || c = 'm' || c = 's' || c = 'x'

/-- Reads the options of a group that starts with some of their letters. Those behind a minus are
switched off. -/
def options (m : PatternMode) : PatternReader PatternMode := do
  let on ← upTo (← get).rest.length fun c => isSwitch c || c = 'a' || c = 'u'
  let off ← if ← accept '-' then
      let off ← upTo (← get).rest.length isSwitch
      if off = [] then refuse
      pure off
    else pure []
  expect ':'
  if on.any off.contains || (on.contains 'a' && on.contains 'u') then refuse
  let switched (c : Char) (was : Bool) : Bool := (was || on.contains c) && !off.contains c
  pure {
    chars := ⟨switched 'i' m.chars.ignoreCase,
      (m.chars.asciiOnly || on.contains 'a') && !on.contains 'u'⟩
    everyLine := switched 'm' m.everyLine
    anyChar := switched 's' m.anyChar
    spaced := switched 'x' m.spaced }

/-! ### Groups -/

/-- Whether a text is the name of a group. -/
def isName : List Char → Bool
  | [] => false
  | c :: rest => isWordChar c && !isDecimalDigit c && rest.all isWordChar

/-- Opens a group, which may have a name. -/
def opening (name : Option (List Char)) : PatternReader Nat := do
  let s ← get
  let n := s.opened + 1
  let names ← match name with
    | none => pure s.names
    | some name =>
      let name := String.ofList name
      if (s.names.lookup name).isSome then refuse
      pure ((name, n) :: s.names)
  set { s with opened := n, names := names }
  pure n

/-- The number of the group that a condition asks for, by its name or by its number. -/
def conditionGroup (name : List Char) : PatternReader Nat := do
  let n ← if isName name then
      match (← get).names.lookup (String.ofList name) with
      | some n => pure n
      | none => refuse
    else match Numeral.parse? (String.ofList name) with
      | some n =>
        if n ≤ 0 then refuse
        modify fun s => { s with asked := n.toNat :: s.asked }
        pure n.toNat
      | none => refuse
  if ← reachable n then pure n else refuse

/-- The width of a pattern that has been read. -/
def widthOf (p : Pattern) : PatternReader Width := do
  let closed := (← get).closed
  pure (p.width fun n => (closed.lookup n).getD ⟨0, none⟩)

/-- Closes a group around a pattern. -/
def closing (n : Nat) (p : Pattern) : PatternReader Pattern := do
  let w ← widthOf p
  expect ')'
  modify fun s => { s with closed := (n, w) :: s.closed }
  pure (.group n p)

/-- Ends a look back from the place behind a pattern. That it is too loose is only noted, as the
whole text is read before that counts. -/
def lookingBack (negated : Bool) (floor : Option Nat) (p : Pattern) : PatternReader Pattern := do
  modify fun s => { s with floor := floor }
  expect ')'
  let back := (← widthOf p).fixed?
  modify fun s => { s with loose := s.loose || back.isNone }
  pure (.look negated (back.getD 0) p)

/-- Enters a look back; the groups in front of the outermost one are the only ones to ask for. -/
def enterBack : PatternReader (Option Nat) := do
  let s ← get
  set { s with floor := some (s.floor.getD s.opened) }
  pure s.floor

mutual

def alternatives : (left : Nat) → PatternMode → PatternReader Pattern
  | 0, _ => refuse
  | left + 1, m => do
    let p ← sequence left m []
    if ← accept '|' then pure (.either p (← alternatives left m)) else pure p

/-- Reads parts up to the end of an alternative, behind others in reverse order. -/
def sequence : (left : Nat) → PatternMode → List Pattern → PatternReader Pattern
  | 0, _, _ => refuse
  | left + 1, m, parts => do
    match PatternMark.first? (← get).rest with
    | none | some (.plain '|', _) | some (.plain ')', _) => pure (.row parts.reverse)
    | some (.plain '(', rest) =>
      modify fun s => { s with rest := rest }
      sequence left m ((← group left m).toList ++ parts)
    | some (first, rest) =>
      modify fun s => { s with rest := rest }
      if m.spaced && first = .plain '#' then
        let s ← get
        let behind := (splitMark? '\n' s.rest.length s.rest).map Prod.snd
        set { s with rest := behind.getD [] }
        sequence left m parts
      else if m.spaced && (PatternMark.text first).all (CharClass.blank.contains ⟨false, true⟩) then
        sequence left m parts
      else match ← repetition first with
        | some (least, most) => sequence left m (← repeated least most parts)
        | none => sequence left m ((← part m first) :: parts)

/-- Reads a group behind its opening parenthesis; a comment is none. -/
def group : (left : Nat) → PatternMode → PatternReader (Option Pattern)
  | 0, _ => refuse
  | left + 1, m => do
    if !(← accept '?') then
      let n ← opening none
      return some (← closing n (← alternatives left m))
    match ← mark with
    | .plain ':' => enclosed left m
    | .plain '#' => let _ ← past ')'; pure none
    | .plain '=' => return (← enclosed left m).map (.look false 0)
    | .plain '!' => return (← enclosed left m).map (.look true 0)
    | .plain '>' => return (← enclosed left m).map .firstOf
    | .plain '<' => do
      let direction ← mark
      if direction ≠ .plain '=' ∧ direction ≠ .plain '!' then refuse
      let floor ← enterBack
      return some (← lookingBack (direction = .plain '!') floor (← alternatives left m))
    | .plain 'P' => named left m
    | .plain '(' => do
      let n ← conditionGroup (← past ')')
      let yes ← sequence left m []
      let no ← if ← accept '|' then sequence left m [] else pure .nothing
      expect ')'
      pure (some (.ifGroup n yes no))
    | .plain c => do
      modify fun s => { s with rest := c :: s.rest }
      enclosed left (← options m)
    | .escaped _ => refuse

/-- Reads the rest of a group that is not remembered. -/
def enclosed : (left : Nat) → PatternMode → PatternReader (Option Pattern)
  | 0, _ => refuse
  | left + 1, m => do
    let p ← alternatives left m
    expect ')'
    pure (some p)

/-- Reads the rest of a group with a name, or of the question for one. -/
def named : (left : Nat) → PatternMode → PatternReader (Option Pattern)
  | 0, _ => refuse
  | left + 1, m => do
    if ← accept '=' then
      let name ← past ')'
      match (← get).names.lookup (String.ofList name) with
      | some n => return some (← again m n)
      | none => refuse
    expect '<'
    let name ← past '>'
    if !isName name then refuse
    let n ← opening (some name)
    return some (← closing n (← alternatives left m))

end

end PatternReader

namespace Pattern

def parse (text : String) : Except Fault Pattern := do
  let cs := text.toList
  let (p, s) ← (PatternReader.alternatives (5 * cs.length + 5) .plain).run
    ⟨cs, 0, [], [], [], none, false⟩
  if s.rest = [] ∧ s.asked.all (· ≤ s.opened) ∧ !s.loose then pure p else throw .patternForm

end Pattern

end PartitionPruning.Text
