import PartitionPruning.Filter.Token

/-!
# Reading filters

A filter is a disjunction of conjunctions of negated or parenthesised predicates; `not` binds
tightest, then `and`, then `or`, and the latter two associate to the left:

    disjunction ::= conjunction ("or" conjunction)*
    conjunction ::= negation ("and" negation)*
    negation    ::= "not" negation | "(" disjunction ")" | predicate
    predicate   ::= column op literal | literal op column | column ["not"] "in" "(" literals ")"
                  | column "is" ["not"] ("null" | "nan") | column ["not"] "like" string
                  | "true" | "false"

The literals of a list are of one kind. Keywords other than `not` may be names of columns: the second
token decides. A pattern that ends in a percent sign asks for a beginning, any other one for equality.

The reader calls itself for what stands in parentheses and behind `not`, and only so many calls may be open
at a time (`CallStack`). With a thousand of them, of which a pair of parentheses takes 48 and a negation 17
(`CallStack.thousand`), a filter inside twenty parentheses is not read, nor one behind fifty-five times
`not`.

`Filter.parseWithin` reads a whole text with the calls that there are, and `Filter.parse` with as many as it
takes.
-/

namespace PartitionPruning

/-- The comparison as seen from the other side. -/
def Comparison.flip : Comparison → Comparison
  | .less => .greater
  | .greater => .less
  | .lessOrEqual => .greaterOrEqual
  | .greaterOrEqual => .lessOrEqual
  | op => op

namespace Token

def literal : Token → Except Fault Literal
  | .string s => .ok (.string s)
  | .decimal d => .ok (.decimal d)
  | .integer (some n) => .ok (.long (.number n))
  | .integer none => .error .numeralTooLong
  | _ => .error .filterForm

def isLiteral : Token → Bool
  | .string _ | .decimal _ | .integer _ => true
  | _ => false

/-- Whether two tokens are literals of one kind. -/
def sameKind : Token → Token → Bool
  | .string _, .string _ | .decimal _, .decimal _ | .integer _, .integer _ => true
  | _, _ => false

/-- The name of the column that a token is. -/
def column (t : Token) : Except Fault String :=
  match t.column? with
  | some found => .ok found
  | none => .error .filterForm

def skip? (k : Keyword) : List Token → Option (List Token)
  | t :: rest => if t.keyword? = some k then some rest else none
  | [] => none

/-- What follows a keyword that may be left out, and whether it was there. -/
def skipOptional (k : Keyword) (ts : List Token) : Bool × List Token :=
  match skip? k ts with
  | some rest => (true, rest)
  | none => (false, ts)

/-- Reads literals of the kind of a token behind commas, and the closing parenthesis. -/
def moreLiterals (first : Token) : List Token → Except Fault (List Literal × List Token)
  | .closing :: rest => .ok ([], rest)
  | .comma :: t :: rest =>
    if first.sameKind t then do
      let literal ← t.literal
      let (literals, rest) ← moreLiterals first rest
      pure (literal :: literals, rest)
    else .error .filterForm
  | _ => .error .filterForm

/-- Reads a list of literals in parentheses. -/
def literals : List Token → Except Fault (List Literal × List Token)
  | .opening :: t :: rest => do
    let literal ← t.literal
    let (literals, rest) ← moreLiterals t rest
    pure (literal :: literals, rest)
  | _ => .error .filterForm

end Token

namespace Filter

/-- What reading gives: a filter and the tokens behind it. -/
abbrev Reading := Except Fault (Filter × List Token)

/-! ### Predicates -/

/-- The sign that stands for any further characters at the end of a pattern. -/
def wildcard : Char := '%'

/-- The comparison of a column with a pattern. -/
def ofPattern (negated : Bool) (column pattern : String) : Filter :=
  let op : Comparison :=
    if pattern.toList.getLast? = some wildcard then .startsWith else .equal
  let text :=
    if pattern.toList.getLast? = some wildcard then String.ofList pattern.toList.dropLast else pattern
  ofPredicate (.compare (if negated then op.opposite else op) column (.string text))

/-- Reads `null` or `nan` behind `is`. -/
def readTest (column : String) (ts : List Token) : Reading :=
  let (negated, ts) := Token.skipOptional .not ts
  let make (op : UnaryTest) : Filter :=
    ofPredicate (.unary (if negated then op.opposite else op) column)
  match Token.skip? .null ts with
  | some rest => .ok (make .isNull, rest)
  | none => match Token.skip? .nan ts with
    | some rest => .ok (make .isNaN, rest)
    | none => .error .filterForm

def readMembers (negated : Bool) (column : String) (ts : List Token) : Reading := do
  let (literals, rest) ← Token.literals ts
  let filter ← ofLiterals (if negated then .notIn else .isIn) column literals
  pure (filter, rest)

def readPattern (negated : Bool) (column : String) : List Token → Reading
  | .string pattern :: rest => .ok (ofPattern negated column pattern, rest)
  | _ => .error .filterForm

/-- Reads what follows the name of a column, other than a comparison. -/
def readTail (first : Token) (column : String) (ts : List Token) : Reading :=
  match Token.skip? .is ts with
  | some rest => readTest column rest
  | none =>
    let (negated, rest) := Token.skipOptional .not ts
    match Token.skip? .in rest with
    | some rest => readMembers negated column rest
    | none => match Token.skip? .like rest with
      | some rest => readPattern negated column rest
      | none => match first.keyword? with
        | some .true => .ok (.constant true, ts)
        | some .false => .ok (.constant false, ts)
        | _ => .error .filterForm

def readFromName (first : Token) : List Token → Reading
  | .compare op :: t :: rest => do
    let column ← first.column
    let literal ← t.literal
    pure (ofPredicate (.compare op column literal), rest)
  | ts => match first.column? with
    | some column => readTail first column ts
    | none => match first.keyword? with
      | some .false => .ok (.constant false, ts)
      | _ => .error .filterForm

def readFromLiteral (first : Token) : List Token → Reading
  | .compare op :: t :: rest => do
    let literal ← first.literal
    let column ← t.column
    pure (ofPredicate (.compare op.flip column literal), rest)
  | _ => do
    let _ ← first.literal
    .error .filterForm

def readPredicate : List Token → Reading
  | [] => .error .filterForm
  | t :: rest => if t.isLiteral then readFromLiteral t rest else readFromName t rest

/-! ### Connectives -/

/-- The calls that may be open at a time while a filter is read: how many there are beside those for a
predicate on its own, and how many of them stay open for what stands in parentheses, for what stands behind
`not`, and for an operand of `and` or `or` behind the second one. -/
structure CallStack where
  room : Nat
  parentheses : Nat
  negation : Nat
  operand : Nat

namespace CallStack

/-- Calls that take no room, so that a filter may be nested as deep as it likes. -/
def unbounded : CallStack := ⟨0, 0, 0, 0⟩

/-- A thousand calls, less those for a predicate at the bottom. -/
def thousand : CallStack := ⟨918, 48, 17, 5⟩

/-- The room that is left when some calls stay open. -/
def enter (calls room : Nat) : Except Fault Nat :=
  if calls ≤ room then .ok (room - calls) else .error .nestedTooDeep

end CallStack

mutual

def readDisjunction (stack : CallStack) : (fuel room : Nat) → List Token → Reading
  | 0, _, _ => .error .filterForm
  | fuel + 1, room, ts => do
    let (first, rest) ← readConjunction stack fuel room ts
    readDisjuncts stack fuel room 0 first rest

/-- Reads further operands, the next one with some calls that the first one does without. -/
def readDisjuncts (stack : CallStack) : (fuel room calls : Nat) → Filter → List Token → Reading
  | 0, _, _, _, _ => .error .filterForm
  | fuel + 1, room, calls, left, ts => match Token.skip? .or ts with
    | some rest => do
      let (right, rest) ← readConjunction stack fuel (← CallStack.enter calls room) rest
      readDisjuncts stack fuel room stack.operand (Expr.disj left right) rest
    | none => .ok (left, ts)

def readConjunction (stack : CallStack) : (fuel room : Nat) → List Token → Reading
  | 0, _, _ => .error .filterForm
  | fuel + 1, room, ts => do
    let (first, rest) ← readNegation stack fuel room ts
    readConjuncts stack fuel room 0 first rest

/-- Reads further operands, the next one with some calls that the first one does without. -/
def readConjuncts (stack : CallStack) : (fuel room calls : Nat) → Filter → List Token → Reading
  | 0, _, _, _, _ => .error .filterForm
  | fuel + 1, room, calls, left, ts => match Token.skip? .and ts with
    | some rest => do
      let (right, rest) ← readNegation stack fuel (← CallStack.enter calls room) rest
      readConjuncts stack fuel room stack.operand (Expr.conj left right) rest
    | none => .ok (left, ts)

/-- Reads an operand. A name that starts with `not` is never a column here. -/
def readNegation (stack : CallStack) : (fuel room : Nat) → List Token → Reading
  | 0, _, _ => .error .filterForm
  | fuel + 1, room, ts => match ts with
    | .opening :: rest => do
      let (filter, rest) ←
        readDisjunction stack fuel (← CallStack.enter stack.parentheses room) rest
      match rest with
      | .closing :: rest => .ok (filter, rest)
      | _ => .error .filterForm
    | t :: rest =>
      if t.keyword? = some .not then do
        let (filter, rest) ← readNegation stack fuel (← CallStack.enter stack.negation room) rest
        pure (Expr.negate filter, rest)
      else if t.startsWithNot then .error .filterForm
      else readPredicate ts
    | [] => .error .filterForm

end

/-- The filter that a row of tokens is. Each level of the reader is entered once for a token at most,
so a few steps for each token suffice; it is the room for calls that may run out. -/
def ofTokens (stack : CallStack) (ts : List Token) : Except Fault Filter := do
  let (filter, rest) ← readDisjunction stack (4 * ts.length + 4) stack.room ts
  if rest.isEmpty then pure filter else .error .filterForm

/-- The filter that a text is, if it is not nested too deep. -/
def parseWithin (stack : CallStack) (text : String) : Except Fault Filter :=
  ofTokens stack (Token.scan text)

/-- The filter that a text is, however deep it is nested. -/
def parse (text : String) : Except Fault Filter := parseWithin .unbounded text

end Filter

/-- From the other side of the other side, a comparison is the same. -/
theorem Comparison.flip_flip (op : Comparison) : op.flip.flip = op := by cases op <;> rfl

end PartitionPruning
