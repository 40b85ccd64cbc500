import PartitionPruning.Filter.Grammar
import PartitionPruning.Proofs.Numeral.Digits

/-!
# Words of filters

How keywords, columns, literals, comparisons and marks are written, and that each of them is read as
one token. A word may be followed by a blank, a mark or the end of the text.

* **`readAs_keyword`**, **`readAs_column`** — words and dotted names are read whole,
* **`readAs_integer`**, **`readAs_decimal`**, **`readAs_string`** — so are literals,
* **`readAs_word`** — each word is read as its token.
-/

namespace PartitionPruning

namespace Surface

/-! ## How words are written -/

/-- A way to write a keyword: its letters, each in upper or lower case. -/
structure Spelling (k : Keyword) where
  letters : List Char
  spells : letters.map Char.toUpper = k.text.toList

/-- A word of ASCII letters, digits and two more characters that is not a keyword. -/
structure PlainWord where
  first : Char
  more : List Char
  starts : first.isAlpha ∨ first = '_'
  goesOn : ∀ c ∈ more, c.isAlphanum ∨ c = '_' ∨ c = '$'
  notKeyword : ∀ k : Keyword, (first :: more).map Char.toUpper ≠ k.text.toList

def PlainWord.chars (w : PlainWord) : List Char := w.first :: w.more

/-- The name of a column: plain words, joined by points. -/
structure ColumnName where
  first : PlainWord
  more : List PlainWord

def ColumnName.chars (c : ColumnName) : List Char :=
  c.first.chars ++ c.more.flatMap fun w => '.' :: w.chars

/-- The column that is named: the name as it is written. -/
def ColumnName.name (c : ColumnName) : String := String.ofList c.chars

/-- The sign in front of a numeral. -/
inductive Sign where
  | none
  | plus
  | minus

def Sign.chars : Sign → List Char
  | none => []
  | plus => ['+']
  | minus => ['-']

def Sign.isNegative : Sign → Bool
  | minus => true
  | _ => false

/-- An integer literal. -/
structure IntegerText where
  sign : Sign
  digits : List Char
  nonempty : digits ≠ []
  areDigits : ∀ c ∈ digits, Text.isDecimalDigit c

/-- A decimal literal, with digits on one side of the point at least. -/
structure DecimalText where
  sign : Sign
  whole : List Char
  part : List Char
  nonempty : whole ≠ [] ∨ part ≠ []
  areDigits : ∀ c ∈ whole ++ part, Text.isDecimalDigit c

/-- A literal in single quotes. -/
structure QuotedText where
  content : List Char
  isPlain : ∀ c ∈ content, c ≠ '\x5c' ∧ c ≠ '\t' ∧ c ≠ '\n' ∧ c ≠ '\r'

inductive LiteralText where
  | integer (t : IntegerText)
  | decimal (t : DecimalText)
  | string (t : QuotedText)

/-- The text between the quotes, where a quote is written twice. -/
def QuotedText.body (t : QuotedText) : List Char :=
  t.content.flatMap fun c => if c = '\x27' then ['\x27', '\x27'] else [c]

def LiteralText.chars : LiteralText → List Char
  | integer t => t.sign.chars ++ t.digits
  | decimal t => t.sign.chars ++ (t.whole ++ '.' :: t.part)
  | string t => '\x27' :: (t.body ++ ['\x27'])

/-- The integer that a literal stands for, however many digits it has. -/
def IntegerText.number (t : IntegerText) : Int :=
  Numeral.signed t.sign.isNegative (Numeral.natOfDigits Text.digitValue? t.digits)

/-- The decimal number that a literal stands for: its digits, and as many of them behind the point as
are written there. -/
def DecimalText.number (t : DecimalText) : Decimal :=
  .finite t.sign.isNegative (Numeral.natOfDigits Text.digitValue? (t.whole ++ t.part))
    (-(t.part.length : Int))

/-- The literal that a text stands for. -/
def LiteralText.literal : LiteralText → Literal
  | integer t => .long (.number t.number)
  | decimal t => .decimal t.number
  | string t => .string (String.ofList t.content)

/-- Whether the digits of an integer are not too many to be read. -/
def LiteralText.Readable : LiteralText → Prop
  | integer t => t.digits.length ≤ Numeral.digitLimit
  | _ => True

/-- Whether two literals are of one kind. -/
def LiteralText.SameKind : LiteralText → LiteralText → Prop
  | integer _, integer _ | decimal _, decimal _ | string _, string _ => True
  | _, _ => False

/-- The ways to write a comparison. -/
inductive ComparisonSign where
  | less
  | lessOrEqual
  | greater
  | greaterOrEqual
  | equal
  | doubleEqual
  | exclamation
  | angles

namespace ComparisonSign

def chars : ComparisonSign → List Char
  | less => ['<']
  | lessOrEqual => ['<', '=']
  | greater => ['>']
  | greaterOrEqual => ['>', '=']
  | equal => ['=']
  | doubleEqual => ['=', '=']
  | exclamation => ['!', '=']
  | angles => ['<', '>']

/-- The comparison of what is on the left with what is on the right. -/
def comparison : ComparisonSign → Comparison
  | less => .less
  | lessOrEqual => .lessOrEqual
  | greater => .greater
  | greaterOrEqual => .greaterOrEqual
  | equal | doubleEqual => .equal
  | exclamation | angles => .notEqual

/-- The comparison of what is on the right with what is on the left. -/
def mirrored : ComparisonSign → Comparison
  | less => .greater
  | lessOrEqual => .greaterOrEqual
  | greater => .less
  | greaterOrEqual => .lessOrEqual
  | equal | doubleEqual => .equal
  | exclamation | angles => .notEqual

end ComparisonSign

/-- A word of a filter. -/
inductive Word where
  | keyword {k : Keyword} (s : Spelling k)
  | column (c : ColumnName)
  | literal (l : LiteralText)
  | comparison (s : ComparisonSign)
  | opening
  | closing
  | comma

namespace Word

def chars : Word → List Char
  | keyword s => s.letters
  | column c => c.chars
  | literal l => l.chars
  | comparison s => s.chars
  | opening => ['(']
  | closing => [')']
  | comma => [',']

/-- Whether a word may be written without blanks around it. -/
def isMark : Word → Bool
  | opening | closing | comma => true
  | _ => false

end Word

/-! ## Tokens of words -/

def PlainWord.part (w : PlainWord) : NamePart := .plain w.chars

def LiteralText.token : LiteralText → Token
  | integer t => .integer (Token.integerOf t.sign.isNegative t.digits)
  | decimal t => .decimal t.number
  | string t => .string (String.ofList t.content)

def Word.token : Word → Token
  | keyword s => .name [.plain s.letters] false
  | column c => .name (c.first.part :: c.more.map PlainWord.part) false
  | literal l => l.token
  | comparison s => .compare s.comparison
  | opening => .opening
  | closing => .closing
  | comma => .comma

/-- Whether a text starts with a blank or a mark, or is at its end. -/
def Separated (cs : List Char) : Prop :=
  ∀ c ∈ cs.head?, Token.isBlank c ∨ c = '(' ∨ c = ')' ∨ c = ','

/-- A text is separated by its first character. -/
theorem separated_cons {c : Char} {cs : List Char} :
    Separated (c :: cs) ↔ Token.isBlank c ∨ c = '(' ∨ c = ')' ∨ c = ',' := by
  simp [Separated]

/-- No word goes on where a text is separated, and no numeral. -/
theorem Separated.ends {cs : List Char} (h : Separated cs) :
    ∀ c ∈ cs.head?, NamePart.isInner c = false ∧ Text.isDecimalDigit c = false ∧ c ≠ '.' ∧
      c ≠ '\x27' ∧ c ≠ '=' ∧ c ≠ '>' := by
  intro c hc
  rcases h c hc with hblank | rfl | rfl | rfl
  · simp only [Token.isBlank, Bool.or_eq_true, decide_eq_true_eq] at hblank
    rcases hblank with ((rfl | rfl) | rfl) | rfl <;> decide
  · decide
  · decide
  · decide

/-- Whether a text is read as a token in front of another text. `continues` tells whether a word would
continue a numeral there. -/
def ReadAs (chars : List Char) (token : Token) (continues : Bool) (rest : List Char) : Prop :=
  ∃ c cs next, chars ++ rest = c :: cs ∧ Token.isBlank c = false ∧
    Token.scanOne continues c cs = (token, next, rest) ∧ (next = true → Separated rest)

/-! ## Keywords and columns -/

/-- A letter may stand inside a name. -/
theorem isInner_of_isAlpha {c : Char} (h : c.isAlpha) : NamePart.isInner c := by
  simp [NamePart.isInner, Char.isAlphanum, h]

/-- A letter may open a name. -/
theorem isStart_of_isAlpha {c : Char} (h : c.isAlpha) : NamePart.isStart c := by
  simp [NamePart.isStart, h]

/-- What holds of each of some characters is decided by looking at them one by one. -/
theorem forall_mem_of_all {p : Char → Prop} [DecidablePred p] {cs : List Char}
    (h : cs.all (fun c => decide (p c)) = true) : ∀ c ∈ cs, p c := by
  simpa using h

/-- The characters that marks, literals in quotes and comparisons start with. -/
def markStarts : List Char := ['(', ')', ',', '\x27', '<', '>', '=', '!']

/-- A character that opens no mark begins none. -/
theorem scanMark?_eq_none {c : Char} (h : c ∉ markStarts) (rest : List Char) :
    Token.scanMark? c rest = none := by
  simp only [markStarts, List.mem_cons, List.not_mem_nil, or_false, not_or] at h
  obtain ⟨h₁, h₂, h₃, h₄, h₅, h₆, h₇, h₈⟩ := h
  simp only [Token.scanMark?, h₁, h₂, h₃, h₄, if_false, Option.map_eq_none_iff]
  unfold Token.scanComparison?
  split <;> simp_all

/-- What opens a name opens no mark. -/
theorem notMem_markStarts_of_isStart {c : Char} (h : NamePart.isStart c) : c ∉ markStarts := by
  intro hmem
  have hall : ∀ d ∈ markStarts, NamePart.isStart d = false := forall_mem_of_all (by decide)
  simp [hall c hmem] at h

/-- A name is scanned up to the first character that may not stand in it. -/
theorem scan?_plain {c : Char} {more rest : List Char} (hc : NamePart.isStart c)
    (hmore : ∀ d ∈ more, NamePart.isInner d) (hrest : ∀ d ∈ rest.head?, NamePart.isInner d = false) :
    NamePart.scan? (c :: (more ++ rest)) = some (.plain (c :: more), rest) := by
  have hquote : c ≠ '\x22' := by
    rintro rfl
    simp [NamePart.isStart, NamePart.isKeywordLetter] at hc
  obtain ⟨htake, hdrop⟩ := Text.span_append hmore hrest
  rw [NamePart.scan?, if_neg hquote, if_pos hc, htake, hdrop]

/-- A plain word opens like a name. -/
theorem PlainWord.isStart_first (w : PlainWord) : NamePart.isStart w.first := by
  rcases w.starts with h | h <;> simp [NamePart.isStart, h]

/-- A plain word goes on like a name. -/
theorem PlainWord.isInner_more (w : PlainWord) : ∀ c ∈ w.more, NamePart.isInner c := by
  intro c hc
  rcases w.goesOn c hc with h | h | h <;> simp [NamePart.isInner, h]

/-- What follows a part goes on with a point, or else the text is separated. -/
theorem not_isInner_of_parts (ws : List PlainWord) {rest : List Char} (hrest : Separated rest) :
    ∀ c ∈ ((ws.flatMap fun w => '.' :: w.chars) ++ rest).head?, NamePart.isInner c = false := by
  cases ws with
  | nil => exact fun c hc => (hrest.ends c (by simpa using hc)).1
  | cons w ws => simp [NamePart.isInner, NamePart.isKeywordLetter]

/-- The words behind the dots are scanned one by one. -/
theorem scanMore_chars (ws : List PlainWord) {left : Nat} {rest : List Char}
    (hleft : ws.length ≤ left) (hrest : Separated rest) :
    NamePart.scanMore left ((ws.flatMap fun w => '.' :: w.chars) ++ rest) =
      (ws.map PlainWord.part, rest) := by
  -- Each dot starts another part, until what follows is no dot.
  induction ws generalizing left with
  | nil =>
    rw [List.flatMap_nil, List.nil_append, List.map_nil]
    unfold NamePart.scanMore
    split
    · exact absurd rfl (hrest.ends '.' (by simp)).2.2.1
    · rfl
  | cons w ws ih =>
    obtain ⟨left, rfl⟩ : ∃ n, left = n + 1 := ⟨left - 1, by simp at hleft; omega⟩
    have hpart : NamePart.scan? (w.chars ++ ((ws.flatMap fun w => '.' :: w.chars) ++ rest)) =
        some (w.part, (ws.flatMap fun w => '.' :: w.chars) ++ rest) :=
      scan?_plain w.isStart_first w.isInner_more (not_isInner_of_parts ws hrest)
    rw [List.flatMap_cons, List.cons_append, List.cons_append, List.append_assoc, NamePart.scanMore,
      hpart]
    simp only [ih (Nat.le_of_succ_le_succ hleft), List.map_cons]

/-- There is a dot at least for every word. -/
theorem length_le_flatMap (ws : List PlainWord) :
    ws.length ≤ (ws.flatMap fun w => '.' :: w.chars).length := by
  induction ws with
  | nil => simp
  | cons w ws ih =>
    simp only [List.flatMap_cons, List.cons_append, List.length_cons, List.length_append]
    omega

/-- A text that starts as a word of letters is not separated. -/
theorem not_separated_of_isStart {c : Char} (h : NamePart.isStart c) (cs : List Char) :
    ¬ Separated (c :: cs) := by
  rw [separated_cons]
  rintro (hblank | rfl | rfl | rfl)
  · simp only [Token.isBlank, Bool.or_eq_true, decide_eq_true_eq] at hblank
    rcases hblank with ((rfl | rfl) | rfl) | rfl <;> exact absurd h (by decide)
  all_goals exact absurd h (by decide)

/-- A word is read together with the parts that follow it behind points. -/
theorem readAs_name {c : Char} {more : List Char} (hc : NamePart.isStart c)
    (hmore : ∀ d ∈ more, NamePart.isInner d) (ws : List PlainWord) {continues : Bool}
    {rest : List Char} (hrest : Separated rest)
    (hcontinues : continues = true →
      Separated (c :: more ++ (ws.flatMap fun w => '.' :: w.chars) ++ rest)) :
    ReadAs (c :: more ++ ws.flatMap fun w => '.' :: w.chars)
      (.name (.plain (c :: more) :: ws.map PlainWord.part) false) continues rest := by
  -- A name would have gone on with the token before, if that had not ended.
  obtain rfl : continues = false := by
    cases continues with
    | false => rfl
    | true => exact absurd (hcontinues rfl) (not_separated_of_isStart hc _)
  have hblank : Token.isBlank c = false := by
    by_contra h
    simp only [Token.isBlank, Bool.not_eq_false, Bool.or_eq_true, decide_eq_true_eq] at h
    rcases h with ((rfl | rfl) | rfl) | rfl <;> exact absurd hc (by decide)
  have hleft : ws.length ≤ ((ws.flatMap fun w => '.' :: w.chars) ++ rest).length := by
    rw [List.length_append]
    exact Nat.le_add_right_of_le (length_le_flatMap ws)
  have hparts := scanMore_chars ws hleft hrest
  refine ⟨c, more ++ ((ws.flatMap fun w => '.' :: w.chars) ++ rest), false, by simp, hblank, ?_,
    by simp⟩
  rw [Token.scanOne, scanMark?_eq_none (notMem_markStarts_of_isStart hc),
    scan?_plain hc hmore (not_isInner_of_parts ws hrest)]
  simp only [hparts]

/-- The codes of letters. -/
theorem isAlpha_iff {c : Char} : c.isAlpha ↔
    (0x41 ≤ c.toNat ∧ c.toNat ≤ 0x5A) ∨ (0x61 ≤ c.toNat ∧ c.toNat ≤ 0x7A) := by
  have hrange : c.isAlpha = (decide ('A'.val ≤ c.val ∧ c.val ≤ 'Z'.val) ||
      (decide ('a'.val ≤ c.val) && decide (c.val ≤ 'z'.val))) := rfl
  simp only [hrange, Bool.or_eq_true, Bool.and_eq_true, decide_eq_true_eq]
  exact Iff.rfl

/-- Keywords are spelled with letters. -/
theorem Spelling.isAlpha {k : Keyword} (s : Spelling k) : ∀ c ∈ s.letters, c.isAlpha := by
  intro c hc
  have hupper : c.toUpper.isAlpha := by
    have hmem : c.toUpper ∈ k.text.toList := s.spells ▸ List.mem_map_of_mem hc
    have hall : ∀ d ∈ k.text.toList, d.isAlpha := forall_mem_of_all (by cases k <;> decide)
    exact hall _ hmem
  by_cases hlower : 'a'.val ≤ c.val ∧ c.val ≤ 'z'.val
  · exact isAlpha_iff.mpr (.inr hlower)
  · have hself : c.toUpper = c := dif_neg hlower
    rwa [hself] at hupper

/-- No keyword is empty. -/
theorem Spelling.letters_ne_nil {k : Keyword} (s : Spelling k) : s.letters ≠ [] := by
  obtain ⟨letters, spells⟩ := s
  rintro rfl
  cases k <;> simp [Keyword.text] at spells

/-- **A keyword** is read as a word of its own. -/
theorem readAs_keyword {k : Keyword} (s : Spelling k) {continues : Bool} {rest : List Char}
    (hrest : Separated rest) (hcontinues : continues = true → Separated (s.letters ++ rest)) :
    ReadAs s.letters (.name [.plain s.letters] false) continues rest := by
  have halpha := s.isAlpha
  obtain ⟨c, more, hcons⟩ := List.exists_cons_of_ne_nil s.letters_ne_nil
  rw [hcons] at halpha hcontinues ⊢
  rw [List.forall_mem_cons] at halpha
  simpa using readAs_name (isStart_of_isAlpha halpha.1)
    (fun d hd => isInner_of_isAlpha (halpha.2 d hd)) [] hrest (by simpa using hcontinues)

/-- **The name of a column** is read with all of its parts. -/
theorem readAs_column (c : ColumnName) {continues : Bool} {rest : List Char}
    (hrest : Separated rest) (hcontinues : continues = true → Separated (c.chars ++ rest)) :
    ReadAs c.chars (.name (c.first.part :: c.more.map PlainWord.part) false) continues rest :=
  readAs_name c.first.isStart_first c.first.isInner_more c.more hrest hcontinues

/-! ## Literals -/

/-- A character that numerals start with. -/
def StartsNumeral (c : Char) : Prop := Text.isDecimalDigit c ∨ c = '+' ∨ c = '-' ∨ c = '.'

/-- A letter is no digit. -/
theorem not_isDecimalDigit_of_isAlpha {c : Char} (h : c.isAlpha) : Text.isDecimalDigit c = false := by
  have hcode : 0x41 ≤ c.toNat ∧ c.toNat < 0x80 := by
    have := isAlpha_iff.mp h
    omega
  have hdigit : ¬('0' ≤ c ∧ c ≤ '9') := by
    rintro ⟨-, hnine⟩
    have hnine : c.toNat ≤ 0x39 := hnine
    omega
  simp [Text.isDecimalDigit, Text.digitValue?, hdigit, hcode.2]

/-- What opens a number opens no name. -/
theorem not_isStart_of_startsNumeral {c : Char} (h : StartsNumeral c) :
    NamePart.isStart c = false := by
  by_contra hstart
  simp only [NamePart.isStart, NamePart.isKeywordLetter, Bool.not_eq_false, Bool.or_eq_true,
    decide_eq_true_eq] at hstart
  rcases hstart with (halpha | rfl) | hletter | hletter
  · rcases h with h | rfl | rfl | rfl
    · simp [not_isDecimalDigit_of_isAlpha halpha] at h
    all_goals simp at halpha
  · rcases h with h | h | h | h
    · exact absurd h (by decide)
    all_goals exact absurd h (by decide)
  · -- The two letters that upper case turns into ASCII ones are no digits.
    obtain rfl : c = Char.ofNat 0x131 := Char.toNat_inj.mp hletter
    rcases h with h | h | h | h
    all_goals exact absurd h (by decide)
  · obtain rfl : c = Char.ofNat 0x17F := Char.toNat_inj.mp hletter
    rcases h with h | h | h | h
    all_goals exact absurd h (by decide)

/-- A numeral starts with none of the characters that other tokens start with. -/
theorem StartsNumeral.notMem {c : Char} (h : StartsNumeral c) {others : List Char}
    (hothers : ∀ d ∈ others, Text.isDecimalDigit d = false ∧ d ≠ '+' ∧ d ≠ '-' ∧ d ≠ '.') :
    c ∉ others := by
  intro hmem
  obtain ⟨hdigit, hplus, hminus, hpoint⟩ := hothers c hmem
  rcases h with h | h | h | h
  · simp [hdigit] at h
  · exact hplus h
  · exact hminus h
  · exact hpoint h

/-- What opens a number is no blank. -/
theorem StartsNumeral.not_isBlank {c : Char} (h : StartsNumeral c) : Token.isBlank c = false := by
  have hmem : c ∉ [' ', '\n', '\t', '\r'] := h.notMem (forall_mem_of_all (by decide))
  simpa [Token.isBlank, and_assoc] using hmem

/-- A character that starts a numeral starts nothing else. -/
theorem scanOne_of_startsNumeral {c : Char} (h : StartsNumeral c) (continues : Bool)
    (rest : List Char) :
    Token.scanOne continues c rest =
      (Token.scanNumeral? (c :: rest)).getD (.other, false, rest) := by
  have hmark : Token.scanMark? c rest = none :=
    scanMark?_eq_none (h.notMem (forall_mem_of_all (by decide))) rest
  have hquote : c ∉ ['\x22'] := h.notMem (forall_mem_of_all (by decide))
  have hname : NamePart.scan? (c :: rest) = none := by
    rw [NamePart.scan?, if_neg (by simpa using hquote), not_isStart_of_startsNumeral h,
      if_neg (by decide)]
  rw [Token.scanOne, hmark, hname]

/-- The sign of a number is split off. -/
theorem splitSign_chars (s : Sign) {c : Char} {cs : List Char} (hplus : c ≠ '+') (hminus : c ≠ '-') :
    Numeral.splitSign (s.chars ++ c :: cs) = (s.isNegative, c :: cs) := by
  cases s with
  | none => simp [Sign.chars, Sign.isNegative, Numeral.splitSign, hplus, hminus]
  | plus => rfl
  | minus => rfl

/-- A numeral is read behind its sign. -/
theorem readAs_numeral (s : Sign) {body : List Char} {c : Char} {cs : List Char} {token : Token}
    {rest : List Char} (hrest : Separated rest) (hbody : body = c :: cs)
    (hc : Text.isDecimalDigit c ∨ c = '.') (continues : Bool)
    (hread : ∃ touches,
      Token.scanUnsigned? s.isNegative (body ++ rest) = some (token, touches, rest)) :
    ReadAs (s.chars ++ body) token continues rest := by
  subst hbody
  obtain ⟨touches, hread⟩ := hread
  have hplus : c ≠ '+' := by
    rintro rfl
    rcases hc with h | h <;> exact absurd h (by decide)
  have hminus : c ≠ '-' := by
    rintro rfl
    rcases hc with h | h <;> exact absurd h (by decide)
  have hnumeral : Token.scanNumeral? (s.chars ++ (c :: cs ++ rest)) = some (token, touches, rest) := by
    rw [Token.scanNumeral?, List.cons_append, splitSign_chars s hplus hminus]
    exact hread
  -- With a sign or without, the text opens like a number.
  obtain ⟨d, ds, hcons, hd⟩ : ∃ d ds, s.chars ++ (c :: cs ++ rest) = d :: ds ∧ StartsNumeral d := by
    cases s with
    | none => exact ⟨c, cs ++ rest, rfl, hc.imp_right fun h => .inr (.inr h)⟩
    | plus => exact ⟨'+', _, rfl, .inr (.inl rfl)⟩
    | minus => exact ⟨'-', _, rfl, .inr (.inr (.inl rfl))⟩
  rw [hcons] at hnumeral
  refine ⟨d, ds, touches, by rw [List.append_assoc, hcons], hd.not_isBlank, ?_, fun _ => hrest⟩
  rw [scanOne_of_startsNumeral hd, hnumeral, Option.getD_some]

/-- **An integer** is read with all of its digits. -/
theorem readAs_integer (t : IntegerText) (continues : Bool) {rest : List Char}
    (hrest : Separated rest) :
    ReadAs (LiteralText.integer t).chars (LiteralText.integer t).token continues rest := by
  obtain ⟨c, cs, hcons⟩ := List.exists_cons_of_ne_nil t.nonempty
  obtain ⟨htake, hdrop⟩ := Text.span_append t.areDigits fun c hc => (hrest.ends c hc).2.1
  refine readAs_numeral t.sign hrest hcons (.inl (t.areDigits c (by simp [hcons]))) continues
    ⟨t.digits.getLast?.any NamePart.isInner, ?_⟩
  rw [Token.scanUnsigned?, htake, hdrop]
  split
  · exact absurd rfl (hrest.ends '.' (by simp)).2.2.1
  · rw [if_neg t.nonempty]
    rfl

/-- **A decimal** is read with the digits on both sides of its point. -/
theorem readAs_decimal (t : DecimalText) (continues : Bool) {rest : List Char}
    (hrest : Separated rest) :
    ReadAs (LiteralText.decimal t).chars (LiteralText.decimal t).token continues rest := by
  obtain ⟨c, cs, hcons, hc⟩ : ∃ c cs, t.whole ++ '.' :: t.part = c :: cs ∧
      (Text.isDecimalDigit c ∨ c = '.') := by
    -- Without a whole part the number opens with its point.
    cases hwhole : t.whole with
    | nil => exact ⟨'.', t.part, rfl, .inr rfl⟩
    | cons c cs => exact ⟨c, _, rfl, .inl (t.areDigits c (by simp [hwhole]))⟩
  have hpoint : ∀ c ∈ ('.' :: (t.part ++ rest)).head?, Text.isDecimalDigit c = false := by
    simp only [List.head?_cons, Option.mem_some_iff, forall_eq']
    decide
  obtain ⟨htake, hdrop⟩ := Text.span_append
    (fun c hc => t.areDigits c (List.mem_append_left _ hc)) hpoint
  obtain ⟨htake', hdrop'⟩ := Text.span_append
    (fun c hc => t.areDigits c (List.mem_append_right _ hc)) fun c hc => (hrest.ends c hc).2.1
  refine readAs_numeral t.sign hrest hcons hc continues
    ⟨t.part.getLast?.any NamePart.isInner, ?_⟩
  rw [List.append_assoc, List.cons_append, Token.scanUnsigned?, htake, hdrop]
  simp only [htake', hdrop']
  rw [if_neg fun h => t.nonempty.elim (· h.1) (· h.2)]
  rfl

/-! ### Strings -/

/-- The text between quotes is read up to the closing one. -/
theorem scanText?_flatMap {content rest : List Char} (hrest : ∀ c ∈ rest.head?, c ≠ '\x27')
    (h : ∀ c ∈ content, c ≠ '\x5c' ∧ c ≠ '\n' ∧ c ≠ '\r') :
    Token.scanText? ((content.flatMap fun c => if c = '\x27' then ['\x27', '\x27'] else [c]) ++
      '\x27' :: rest) = some (content, rest) := by
  induction content with
  | nil =>
    rw [List.flatMap_nil, List.nil_append, Token.scanText?]
    rintro rest' rfl
    exact hrest '\x27' (by simp) rfl
  | cons c content ih =>
    rw [List.forall_mem_cons] at h
    obtain ⟨⟨hslash, hn, hr⟩, hcontent⟩ := h
    rw [List.flatMap_cons, List.append_assoc]
    -- A quote is doubled and read as one; every other character stands for itself.
    by_cases hquote : c = '\x27'
    · simp [hquote, Token.scanText?, ih hcontent]
    · rw [if_neg hquote, List.singleton_append, Token.scanText?]
      · simp [hn, hr, hslash, ih hcontent]
      all_goals simp [hquote, hslash]

/-- **A string** is read up to its closing quote. -/
theorem readAs_string (t : QuotedText) (continues : Bool) {rest : List Char}
    (hrest : Separated rest) :
    ReadAs (LiteralText.string t).chars (LiteralText.string t).token continues rest := by
  have hbody := scanText?_flatMap (fun c hc => (hrest.ends c hc).2.2.2.1) fun c hc =>
    ⟨(t.isPlain c hc).1, (t.isPlain c hc).2.2⟩
  refine ⟨'\x27', t.body ++ '\x27' :: rest, false, by simp [LiteralText.chars], by decide, ?_,
    by simp⟩
  rw [Token.scanOne]
  simp [Token.scanMark?, QuotedText.body, hbody, LiteralText.token]

/-! ## Words -/

/-- **A comparison** is read with both of its characters. -/
theorem readAs_comparison (s : ComparisonSign) (continues : Bool) {rest : List Char}
    (hrest : Separated rest) : ReadAs s.chars (.compare s.comparison) continues rest := by
  have hscan : Token.scanComparison? (s.chars ++ rest) = some (s.comparison, rest) := by
    -- A longer sign would need `=` or `>` behind the shorter one, where the word has ended.
    have hequal : ∀ rest', rest ≠ '=' :: rest' := by
      rintro rest' rfl
      exact (hrest.ends '=' (by simp)).2.2.2.2.1 rfl
    have hgreater : ∀ rest', rest ≠ '>' :: rest' := by
      rintro rest' rfl
      exact (hrest.ends '>' (by simp)).2.2.2.2.2 rfl
    cases s with
    | less | greater | equal =>
      rw [ComparisonSign.chars, List.singleton_append, Token.scanComparison?]
      · rfl
      all_goals first | exact hequal | exact hgreater
    | _ => rfl
  obtain ⟨c, cs, hcons, hc⟩ : ∃ c cs, s.chars ++ rest = c :: cs ∧ c ∈ ['<', '>', '=', '!'] := by
    cases s <;> exact ⟨_, _, rfl, by decide⟩
  rw [hcons] at hscan
  refine ⟨c, cs, false, hcons, ?_, ?_, by simp⟩
  · have hall : ∀ d ∈ ['<', '>', '=', '!'], Token.isBlank d = false :=
      forall_mem_of_all (by decide)
    exact hall c hc
  · have hne : c ∉ ['(', ')', ',', '\x27'] := by
      intro hmem
      have hall : ∀ d ∈ ['(', ')', ',', '\x27'], d ∉ ['<', '>', '=', '!'] :=
        forall_mem_of_all (by decide)
      exact hall c hmem hc
    simp only [List.mem_cons, List.not_mem_nil, or_false, not_or] at hne
    obtain ⟨h₁, h₂, h₃, h₄⟩ := hne
    simp only [Token.scanOne, Token.scanMark?, h₁, h₂, h₃, h₄, if_false, hscan, Option.map_some]

/-- A mark is scanned as itself, whatever comes next. -/
theorem readAs_mark {w : Word} (h : w.isMark) (continues : Bool) (rest : List Char) :
    ReadAs w.chars w.token continues rest := by
  cases w with
  | opening => exact ⟨'(', rest, false, rfl, rfl, rfl, by simp⟩
  | closing => exact ⟨')', rest, false, rfl, rfl, rfl, by simp⟩
  | comma => exact ⟨',', rest, false, rfl, rfl, rfl, by simp⟩
  | _ => exact absurd h (by simp [Word.isMark])

/-- **Each word** is read as its token, in front of a blank, of a mark or of the end; a mark also in
front of anything else. -/
theorem readAs_word (w : Word) {continues : Bool} {rest : List Char}
    (hend : w.isMark ∨ Separated rest)
    (hcontinues : continues = true → Separated (w.chars ++ rest)) :
    ReadAs w.chars w.token continues rest := by
  -- Marks end by themselves; every other word needs what separates it from the next.
  by_cases hmark : w.isMark
  · exact readAs_mark hmark continues rest
  have hrest := hend.resolve_left hmark
  clear hend
  cases w with
  | keyword s => exact readAs_keyword s hrest hcontinues
  | column c => exact readAs_column c hrest hcontinues
  | comparison s => exact readAs_comparison s continues hrest
  | literal l =>
    cases l with
    | integer t => exact readAs_integer t continues hrest
    | decimal t => exact readAs_decimal t continues hrest
    | string t => exact readAs_string t continues hrest
  | opening | closing | comma => exact absurd rfl hmark

end Surface

end PartitionPruning
