import PartitionPruning.Text.Pattern.CharSet

/-!
# Patterns of texts

A pattern is made of sets of characters and of places between characters; patterns follow one
another, stand beside one another and are repeated. What a numbered group has found is remembered and
may be asked for again.

`Pattern.width` tells how long the texts of a pattern are.
-/

namespace PartitionPruning.Text

/-- A place in a text. -/
inductive Place where
  | textStart
  | lineStart
  /-- The end, or the place in front of a line break that ends the text. -/
  | lastLineEnd
  | lineEnd
  | textEnd
  /-- A place with a character of a word on one side only. -/
  | wordEdge (m : CharMode)
  /-- A place between two characters of a word, or between two others. -/
  | noWordEdge (m : CharMode)
  deriving DecidableEq, Repr

namespace Place

/-- Whether there is a character of a word at one end. -/
def atWord (m : CharMode) : List Char → Bool
  | [] => false
  | c :: _ => CharClass.word.contains m c

/-- Whether the characters before, nearest first, and after it make a place what it should be. An
empty text has no place of the last two kinds. -/
def holds (before after : List Char) : Place → Bool
  | .textStart => before.isEmpty
  | .lineStart => before.isEmpty || before.head? = some '\n'
  | .lastLineEnd => after.isEmpty || after = ['\n']
  | .lineEnd => after.isEmpty || after.head? = some '\n'
  | .textEnd => after.isEmpty
  | .wordEdge m => atWord m before != atWord m after
  | .noWordEdge m => !(before.isEmpty && after.isEmpty) && atWord m before = atWord m after

end Place

/-- What is looked for in a text. -/
inductive Pattern where
  /-- The empty text. -/
  | nothing
  /-- One character of a set. -/
  | char (set : CharSet)
  | place (p : Place)
  /-- One pattern and then another. -/
  | both (first second : Pattern)
  /-- One pattern or else another. -/
  | either (first second : Pattern)
  /-- A pattern that is remembered under a number. -/
  | group (number : Nat) (body : Pattern)
  /-- What a group has found. -/
  | again (number : Nat) (mode : CharMode)
  /-- A pattern that depends on whether a group has found something. -/
  | ifGroup (number : Nat) (yes no : Pattern)
  /-- The place where a pattern could be found, or could not, from so many characters before. -/
  | look (negated : Bool) (back : Nat) (body : Pattern)
  /-- A pattern of which only the first way to find it counts. -/
  | firstOf (body : Pattern)
  /-- A pattern several times in a row, as often as possible or as seldom as possible. -/
  | times (seldom : Bool) (least : Nat) (most : Option Nat) (body : Pattern)
  deriving Repr

/-- The least and the greatest length of the texts of a pattern, none if there is no greatest one. -/
structure Width where
  least : Nat
  most : Option Nat
  deriving DecidableEq, Repr

namespace Width

/-- The width of one text after another. -/
def both (v w : Width) : Width :=
  ⟨v.least + w.least, do pure ((← v.most) + (← w.most))⟩

/-- The width of one text or another. -/
def either (v w : Width) : Width :=
  ⟨min v.least w.least, do pure (max (← v.most) (← w.most))⟩

/-- The width of several texts in a row. -/
def times (least : Nat) (most : Option Nat) (w : Width) : Width :=
  ⟨w.least * least,
    if w.most = some 0 ∨ most = some 0 then some 0 else do pure ((← w.most) * (← most))⟩

/-- The one length of all texts, if there is only one. -/
def fixed? (w : Width) : Option Nat := if w.most = some w.least then some w.least else none

end Width

/-- The width of a pattern, given those of the groups it asks for. -/
def Pattern.width (groups : Nat → Width) : Pattern → Width
  | .nothing | .place _ | .look .. => ⟨0, some 0⟩
  | .char _ => ⟨1, some 1⟩
  | .both p q => (p.width groups).both (q.width groups)
  | .either p q | .ifGroup _ p q => (p.width groups).either (q.width groups)
  | .group _ p | .firstOf p => p.width groups
  | .again n _ => groups n
  | .times _ least most p => (p.width groups).times least most

namespace Pattern

def row (ps : List Pattern) : Pattern := ps.foldr .both .nothing

end Pattern

end PartitionPruning.Text
