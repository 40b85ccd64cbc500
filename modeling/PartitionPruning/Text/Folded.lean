/-!
# Folded texts

A quoted text may go over several lines, and is folded when it is read: the spaces around a break of
the line are dropped, a plain break on its own becomes a space, and of several breaks the first one is
dropped if it is plain. The two separators of lines and of paragraphs always stand for themselves.

`Text.fold` reads a text, `Text.separatorAt?` finds a line that would end the document instead.
-/

namespace PartitionPruning.Text

def isLineBreak (c : Char) : Bool := c = '\u0085' || c = '\u2028' || c = '\u2029'

/-- Whether a character may stand between the words of a line or between lines. -/
def isFill (c : Char) : Bool := c = ' ' || isLineBreak c

/-- What a break is read as behind another one. -/
def lineBreak (c : Char) : Char := if c = '\u0085' then '\n' else c

/-- What the breaks between two words are read as. -/
def foldBreaks : List Char → List Char
  | [] => []
  | c :: rest =>
    if c ≠ '\u0085' then c :: rest.map lineBreak
    else if rest = [] then [' '] else rest.map lineBreak

/-- What a run of characters between words is read as. Spaces on a line are kept. -/
def foldFill (run : List Char) : List Char :=
  if run.any isLineBreak then foldBreaks (run.filter isLineBreak) else run

/-- A text whose last run between words is `run`, as it is read. -/
def foldFrom (run : List Char) : List Char → List Char
  | [] => foldFill run
  | c :: rest => if isFill c then foldFrom (run ++ [c]) rest else foldFill run ++ c :: foldFrom [] rest

/-- A text as it is read. -/
def fold (s : String) : String := String.ofList (foldFrom [] s.toList)

/-- Whether a line starts with a mark between documents. -/
def startsDocument : List Char → Bool
  | a :: b :: c :: d :: _ => (a = '-' || a = '.') && b = a && c = a && isFill d
  | _ => false

/-- Where the first line behind a break starts with a mark between documents. `width` is the number
of characters that a character is written with, and `position` that of the first one. -/
def separatorAt? (width : Char → Nat) (position : Nat) : List Char → Option Nat
  | [] => none
  | c :: rest =>
    if isLineBreak c && startsDocument rest then some (position + width c)
    else separatorAt? width (position + width c) rest

/-- A text on one line is not folded. -/
theorem foldFill_eq_self {run : List Char} (h : run.any isLineBreak = false) :
    foldFill run = run := by
  simp [foldFill, h]

/-- A text on one line is read as it is. -/
theorem foldFrom_eq_append {cs : List Char} :
    ∀ {run : List Char}, (run ++ cs).any isLineBreak = false → foldFrom run cs = run ++ cs := by
  induction cs with
  | nil => intro run h; simpa [foldFrom] using foldFill_eq_self (by simpa using h)
  | cons c rest ih =>
    intro run h
    simp only [foldFrom]
    split
    · rw [ih (by simpa using h)]
      simp
    · rw [foldFill_eq_self (by simp_all), ih (by simp_all)]
      simp

end PartitionPruning.Text
