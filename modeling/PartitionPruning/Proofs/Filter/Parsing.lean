import PartitionPruning.Proofs.Filter.Phrases
import PartitionPruning.Proofs.Filter.Scanning

/-!
# Texts of phrases are read as the filters that they denote

The readers of connectives look one token ahead. What they read as a phrase ends where a connective, a
closing parenthesis or nothing follows; from there on they go on as if the phrase had been a filter in
hand. So each reader is described in front of any tokens that a phrase may stand in front of, with any
number of steps that is enough for the words of the phrase, and with any room for calls.

* **`LeafText.readPredicate_tokens`** — predicates and constants are read,
* **`Phrase.isRead`** — phrases are read, by induction on them, one lemma for each connective,
* **`parseWithin_of_spaced`** — a text of a phrase is read.
-/

namespace PartitionPruning

namespace Surface

open Outcome

/-! ## Words that are looked at -/

/-- A character of a column's name is an ASCII character. -/
theorem toNat_lt_of_isWordChar {c : Char} (h : c.isAlphanum ∨ c = '_' ∨ c = '$') :
    c.toNat < 0x80 := by
  rcases h with h | rfl | rfl
  · rcases Bool.or_eq_true_iff.mp h with halpha | hdigit
    · have hcode := isAlpha_iff.mp halpha
      omega
    · have hcode : c.toNat ≤ 0x39 := (Numeral.isDigit_iff.mp hdigit).2
      omega
  · decide
  · decide

/-- On the characters of plain words the keyword's upper case is the common one. -/
theorem map_upper {cs : List Char} (h : ∀ c ∈ cs, c.isAlphanum ∨ c = '_' ∨ c = '$') :
    cs.map Keyword.upper = cs.map Char.toUpper := by
  refine List.map_congr_left fun c hc => ?_
  have hcode := toNat_lt_of_isWordChar (h c hc)
  rw [Keyword.upper, if_neg (by omega), if_neg (by omega)]

/-- A plain word names a column by itself. -/
theorem column?_plain {cs : List Char} (h : ∀ c ∈ cs, c.isAlphanum ∨ c = '_' ∨ c = '$') :
    NamePart.column? (.plain cs) = some cs := by
  have hletters : ¬ cs.any NamePart.isKeywordLetter := by
    simp only [List.any_eq_true, not_exists, not_and, NamePart.isKeywordLetter, Bool.or_eq_true,
      decide_eq_true_eq]
    intro c hc
    have hcode := toNat_lt_of_isWordChar (h c hc)
    omega
  rw [NamePart.column?, if_neg hletters]

/-- A keyword is spelled with characters of plain words. -/
theorem Spelling.isWordChar {k : Keyword} (s : Spelling k) :
    ∀ c ∈ s.letters, c.isAlphanum ∨ c = '_' ∨ c = '$' := fun c hc =>
  .inl (by simp [Char.isAlphanum, s.isAlpha c hc])

/-- Every spelling of a keyword is recognised. -/
theorem ofWord?_letters {k : Keyword} (s : Spelling k) : Keyword.ofWord? s.letters = some k := by
  rw [Keyword.ofWord?, map_upper s.isWordChar, s.spells]
  cases k <;> decide

namespace PlainWord

variable (w : PlainWord)

/-- A plain word is made of such characters. -/
theorem isWordChar : ∀ c ∈ w.chars, c.isAlphanum ∨ c = '_' ∨ c = '$' := by
  rw [chars, List.forall_mem_cons]
  exact ⟨w.starts.imp (fun h => by simp [Char.isAlphanum, h]) .inl, w.goesOn⟩

/-- A plain word is no keyword. -/
theorem ofWord?_chars : Keyword.ofWord? w.chars = none := by
  simp only [Keyword.ofWord?, map_upper w.isWordChar, List.find?_eq_none, decide_eq_true_eq]
  exact fun k _ heq => w.notKeyword k heq.symm

/-- A plain word is a part of a column's name. -/
theorem column?_part : w.part.column? = some w.chars := column?_plain w.isWordChar

end PlainWord

/-- The parts of a name are joined with dots. -/
theorem intercalate_words (w : PlainWord) (ws : List PlainWord) :
    ".".intercalate (String.ofList w.chars :: ws.map fun w => String.ofList w.chars) =
      String.ofList (w.chars ++ ws.flatMap fun w => '.' :: w.chars) := by
  induction ws generalizing w with
  | nil => simp [String.intercalate_singleton]
  | cons w' ws ih =>
    rw [List.map_cons, String.intercalate_cons_cons, ih, ← String.toList_inj]
    simp

/-- The parts of a name are all plain. -/
theorem mapM_column? (ws : List PlainWord) :
    (ws.map PlainWord.part).mapM NamePart.column? = some (ws.map PlainWord.chars) := by
  induction ws with
  | nil => rfl
  | cons w ws ih => simp [w.column?_part, ih]

/-- A column's token has its name. -/
theorem column?_column (c : ColumnName) : (Word.column c).token.column? = some c.name := by
  rw [Word.token, Token.column?, ← List.map_cons, mapM_column?, Option.map_some, List.map_cons,
    List.map_cons, List.map_map]
  exact congrArg some (intercalate_words c.first c.more)

/-- A keyword's token is that keyword. -/
theorem keyword?_keyword {k : Keyword} (s : Spelling k) :
    (Word.keyword s).token.keyword? = some k :=
  ofWord?_letters s

/-- A keyword's token could name a column as well. -/
theorem exists_column?_keyword {k : Keyword} (s : Spelling k) :
    ∃ name, (Word.keyword s).token.column? = some name := by
  simp [Word.token, Token.column?, column?_plain s.isWordChar]

/-- A column's token is no keyword. -/
theorem keyword?_column (c : ColumnName) : (Word.column c).token.keyword? = none := by
  rw [Word.token]
  unfold Token.keyword?
  split
  · rename_i word heq
    obtain ⟨rfl, -⟩ : c.first.chars = word ∧ c.more = [] := by
      simpa [PlainWord.part] using heq
    exact c.first.ofWord?_chars
  · rfl

/-- A column does not open a negation. -/
theorem startsWithNot_column (c : ColumnName) : (Word.column c).token.startsWithNot = false := by
  simp [Word.token, Token.startsWithNot, PlainWord.part, c.first.ofWord?_chars]

/-- Only the keyword `not` opens a negation. -/
theorem startsWithNot_keyword {k : Keyword} (s : Spelling k) :
    (Word.keyword s).token.startsWithNot = decide (k = .not) := by
  simp [Word.token, Token.startsWithNot, ofWord?_letters]

/-- A keyword that is looked for is passed over. -/
theorem skip?_keyword {k : Keyword} (s : Spelling k) (rest : List Token) :
    Token.skip? k ((Word.keyword s).token :: rest) = some rest := by
  rw [Token.skip?, if_pos (keyword?_keyword s)]

/-- Another keyword is not. -/
theorem skip?_other {k k' : Keyword} (s : Spelling k) (h : k ≠ k') (rest : List Token) :
    Token.skip? k' ((Word.keyword s).token :: rest) = none := by
  rw [Token.skip?, if_neg (by simp [keyword?_keyword, h])]

/-! ## Predicates -/

/-- Whether a connective, a closing parenthesis or nothing comes next. -/
def Ends (ts : List Token) : Prop :=
  ∀ t ∈ ts.head?, t = .closing ∨ t.keyword? = some .and ∨ t.keyword? = some .or

/-- Nothing is passed over where the keyword does not come next. -/
theorem skip?_eq_none {k : Keyword} {ts : List Token}
    (h : ∀ t ∈ ts.head?, t.keyword? ≠ some k) : Token.skip? k ts = none := by
  cases ts with
  | nil => rfl
  | cons t rest => rw [Token.skip?, if_neg (h t (by simp))]

/-- Where a phrase ends no keyword but `and` and `or` comes next. -/
theorem Ends.skip? {ts : List Token} (h : Ends ts) {k : Keyword} (hand : k ≠ .and)
    (hor : k ≠ .or) : Token.skip? k ts = none := by
  refine skip?_eq_none fun t ht => ?_
  rcases h t ht with rfl | ht | ht
  · simp [Token.keyword?]
  · simp [ht, Ne.symm hand]
  · simp [ht, Ne.symm hor]

/-- Where a phrase ends no sign of comparison comes next. -/
theorem Ends.not_compare {ts : List Token} (h : Ends ts) {op : Comparison} {rest : List Token} :
    ts ≠ .compare op :: rest := by
  rintro rfl
  rcases h (.compare op) (by simp) with h | h | h
  · simp at h
  all_goals simp [Token.keyword?] at h

/-- A negation that may be left out is skipped. -/
theorem skipOptional_negation (negation : Option (Spelling .not)) {k : Keyword} (s : Spelling k)
    (h : k ≠ .not) (rest : List Token) :
    Token.skipOptional .not ((negationWords negation).map Word.token ++
        (Word.keyword s).token :: rest) = (negation.isSome, (Word.keyword s).token :: rest) := by
  cases negation with
  | none => simp [negationWords, Token.skipOptional, skip?_other s h]
  | some n => simp [negationWords, Token.skipOptional, skip?_keyword]

/-- What is not asked for is not behind a negation that may be left out, either. -/
theorem skip?_negation (negation : Option (Spelling .not)) {k : Keyword} (s : Spelling k)
    {k' : Keyword} (hnot : k' ≠ .not) (h : k ≠ k') (rest : List Token) :
    Token.skip? k' ((negationWords negation).map Word.token ++ (Word.keyword s).token :: rest) =
      none := by
  cases negation with
  | none => exact skip?_other s h rest
  | some n => exact skip?_other n hnot.symm _

/-- The token of a literal is one. -/
theorem isLiteral_token (l : LiteralText) : l.token.isLiteral = true := by cases l <;> rfl

/-- Texts of the same kind of literal have tokens of the same kind. -/
theorem sameKind_token {l m : LiteralText} (h : l.SameKind m) :
    l.token.sameKind m.token = true := by
  cases l <;> cases m <;> first | rfl | exact h.elim

/-- The literals behind the first are read up to the closing parenthesis, or one of them is too long. -/
theorem moreLiterals_tokens {first : LiteralText} {more : List LiteralText}
    (h : ∀ l ∈ more, first.SameKind l) (rest : List Token) :
    Token.moreLiterals first.token
        ((more.flatMap fun l => [.comma, .literal l]).map Word.token ++ .closing :: rest) =
      (more.mapM LiteralText.read).map (·, rest) := by
  induction more with
  | nil => rfl
  | cons l more ih =>
    rw [List.forall_mem_cons] at h
    have hcons : ((l :: more).flatMap fun l => [.comma, .literal l]).map Word.token ++
        .closing :: rest = .comma :: l.token ::
          ((more.flatMap fun l => [.comma, .literal l]).map Word.token ++ .closing :: rest) := rfl
    rw [hcons, Token.moreLiterals, if_pos (sameKind_token h.1), ih h.2, List.mapM_cons,
      ← LiteralText.read]
    -- The literals are read from the left, so the first that is too long is reported.
    cases l.read with
    | error fault => rfl
    | ok literal => cases more.mapM LiteralText.read <;> rfl

/-- A list in parentheses is read to its literals, or one of them is too long. -/
theorem literals_tokens {first : LiteralText} {more : List LiteralText}
    (h : ∀ l ∈ more, first.SameKind l) (rest : List Token) :
    Token.literals (.opening :: first.token ::
        ((more.flatMap fun l => [.comma, .literal l]).map Word.token ++ .closing :: rest)) =
      ((first :: more).mapM LiteralText.read).map (·, rest) := by
  rw [Token.literals, moreLiterals_tokens h, List.mapM_cons, ← LiteralText.read]
  cases first.read with
  | error fault => rfl
  | ok literal => cases more.mapM LiteralText.read <;> rfl

namespace LeafText

/-- The tokens of a text. -/
def tokens (l : LeafText) : List Token := l.words.map Word.token

variable (c : ColumnName) (negation : Option (Spelling .not)) (rest : List Token)

/-- A comparison is read off its tokens, with what follows left over. -/
theorem readPredicate_compare (s : ComparisonSign) (l : LiteralText) :
    Filter.readPredicate ((compare c s l).tokens ++ rest) =
      ((compare c s l).build LiteralText.read).map (·, rest) := by
  have htokens : (compare c s l).tokens ++ rest =
      (Word.column c).token :: .compare s.comparison :: l.token :: rest := rfl
  have hcolumn : (Word.column c).token.column = .ok c.name := by
    rw [Token.column, column?_column]
  rw [htokens, Filter.readPredicate, if_neg (by simp [Word.token, Token.isLiteral]),
    Filter.readFromName, hcolumn, ok_bind, ← LiteralText.read, build]
  cases l.read <;> rfl

/-- A comparison with the literal in front is read as the mirrored one. -/
theorem readPredicate_compareMirrored (l : LiteralText) (s : ComparisonSign) :
    Filter.readPredicate ((compareMirrored l s c).tokens ++ rest) =
      ((compareMirrored l s c).build LiteralText.read).map (·, rest) := by
  have htokens : (compareMirrored l s c).tokens ++ rest =
      l.token :: .compare s.comparison :: (Word.column c).token :: rest := rfl
  have hcolumn : (Word.column c).token.column = .ok c.name := by
    rw [Token.column, column?_column]
  have hflip : s.comparison.flip = s.mirrored := by cases s <;> rfl
  rw [htokens, Filter.readPredicate, if_pos (isLiteral_token l), Filter.readFromLiteral, hcolumn,
    ← LiteralText.read, build, hflip]
  cases l.read <;> rfl

/-- Behind the name of a column, other words than comparisons are left to `readTail`. -/
theorem readPredicate_column {ts : List Token} (h : ∀ op rest, ts ≠ .compare op :: rest) :
    Filter.readPredicate ((Word.column c).token :: ts) =
      Filter.readTail (Word.column c).token c.name ts := by
  rw [Filter.readPredicate, if_neg (by simp [Word.token, Token.isLiteral])]
  unfold Filter.readFromName
  split
  · rename_i op t rest
    exact absurd rfl (h op (t :: rest))
  · rw [column?_column]

/-- A keyword, with `not` before it or without, is no sign of comparison. -/
theorem not_compare_negation {k : Keyword} (s : Spelling k) (ts : List Token) (op : Comparison) :
    (negationWords negation).map Word.token ++ (Word.keyword s).token :: ts ≠
      .compare op :: rest := by
  cases negation <;> simp [negationWords, Word.token]

/-- A test of one value is read off its tokens, the opposite one behind `not`. -/
theorem readTest_tokens (column : String) (t : TestText) :
    Filter.readTest column ((negationWords negation).map Word.token ++ t.word.token :: rest) =
      .ok (Filter.ofPredicate
        (.unary (if negation.isSome then t.test.opposite else t.test) column), rest) := by
  cases t with
  | null s =>
    simp only [TestText.word, Filter.readTest, skipOptional_negation negation s (by decide),
      skip?_keyword, TestText.test]
  | nan s =>
    simp only [TestText.word, Filter.readTest, skipOptional_negation negation s (by decide),
      skip?_other s (show Keyword.nan ≠ .null by decide), skip?_keyword, TestText.test]

/-- A phrase with `is` is read as its test. -/
theorem readPredicate_test (s : Spelling .is) (t : TestText) :
    Filter.readPredicate ((test c s negation t).tokens ++ rest) =
      ((test c s negation t).build LiteralText.read).map (·, rest) := by
  have htokens : (test c s negation t).tokens ++ rest =
      (Word.column c).token :: (Word.keyword s).token ::
        ((negationWords negation).map Word.token ++ t.word.token :: rest) := by
    simp [tokens, words]
  rw [htokens, readPredicate_column c (by simp [Word.token]), Filter.readTail, skip?_keyword]
  exact readTest_tokens negation rest c.name t

/-- A phrase with `in` is read as its set, the opposite one behind `not`. -/
theorem readPredicate_among (s : Spelling .in) (first : LiteralText) (more : List LiteralText)
    (sameKind : ∀ l ∈ more, first.SameKind l) :
    Filter.readPredicate ((among c negation s first more sameKind).tokens ++ rest) =
      ((among c negation s first more sameKind).build LiteralText.read).map (·, rest) := by
  have htokens : (among c negation s first more sameKind).tokens ++ rest =
      (Word.column c).token :: ((negationWords negation).map Word.token ++
        (Word.keyword s).token :: .opening :: first.token ::
          ((more.flatMap fun l => [.comma, .literal l]).map Word.token ++ .closing :: rest)) := by
    simp [tokens, words, Word.token]
  rw [htokens, readPredicate_column c (fun op ts => not_compare_negation negation ts s _ op), Filter.readTail,
    skip?_negation negation s (by decide) (by decide)]
  simp only [skipOptional_negation negation s (by decide), skip?_keyword, Filter.readMembers,
    literals_tokens sameKind, build]
  -- A literal that cannot be read is reported before the set is built.
  cases (first :: more).mapM LiteralText.read with
  | error fault => rfl
  | ok literals =>
    simp only [map_ok, ok_bind]
    cases Filter.ofLiterals (if negation.isSome then .notIn else .isIn) c.name literals <;> rfl

/-- A pattern that ends in the only wildcard is a test of the beginning. -/
theorem ofPattern_pattern (negated : Bool) (column : String) (beginning : QuotedText) :
    Filter.ofPattern negated column (String.ofList beginning.pattern.content) =
      Filter.ofPredicate (.compare (if negated then .notStartsWith else .startsWith) column
        (.string (String.ofList beginning.content))) := by
  have hlast : (beginning.content ++ [Filter.wildcard]).getLast? = some Filter.wildcard := by simp
  have hfront : (beginning.content ++ [Filter.wildcard]).dropLast = beginning.content := by simp
  simp only [Filter.ofPattern, QuotedText.pattern, String.toList_ofList, hlast, hfront, if_pos,
    Comparison.opposite]

/-- A phrase with `like` is read as its test of the beginning. -/
theorem readPredicate_like (s : Spelling .like) (beginning : QuotedText) :
    Filter.readPredicate ((like c negation s beginning).tokens ++ rest) =
      ((like c negation s beginning).build LiteralText.read).map (·, rest) := by
  have htokens : (like c negation s beginning).tokens ++ rest =
      (Word.column c).token :: ((negationWords negation).map Word.token ++
        (Word.keyword s).token :: .string (String.ofList beginning.pattern.content) :: rest) := by
    simp [tokens, words, Word.token, LiteralText.token]
  rw [htokens, readPredicate_column c (fun op ts => not_compare_negation negation ts s _ op), Filter.readTail,
    skip?_negation negation s (by decide) (by decide)]
  simp only [skipOptional_negation negation s (by decide),
    skip?_other s (show Keyword.like ≠ .in by decide), skip?_keyword, Filter.readPattern,
    ofPattern_pattern, build, map_ok]

/-- A keyword could be the name of a column, but for what follows it. -/
theorem readPredicate_keyword {k : Keyword} (s : Spelling k) {rest : List Token} (h : Ends rest) :
    Filter.readPredicate ((Word.keyword s).token :: rest) = match k with
      | .true => .ok (.constant Bool.true, rest)
      | .false => .ok (.constant Bool.false, rest)
      | _ => .error .filterForm := by
  obtain ⟨column, hcolumn⟩ := exists_column?_keyword s
  have hnot : Token.skipOptional .not rest = (Bool.false, rest) := by
    rw [Token.skipOptional, h.skip? (by decide) (by decide)]
  rw [Filter.readPredicate, if_neg (by simp [Word.token, Token.isLiteral])]
  unfold Filter.readFromName
  split
  · exact absurd rfl h.not_compare
  · simp only [hcolumn, Filter.readTail, hnot, h.skip? (k := .is) (by decide) (by decide),
      h.skip? (k := .in) (by decide) (by decide), h.skip? (k := .like) (by decide) (by decide),
      keyword?_keyword]
    cases k <;> rfl

/-- **Predicates and constants** are read in front of whatever may follow them. -/
theorem readPredicate_tokens (l : LeafText) {rest : List Token} (h : Ends rest) :
    Filter.readPredicate (l.tokens ++ rest) = (l.build LiteralText.read).map (·, rest) := by
  cases l with
  | compare c s l => exact readPredicate_compare c rest s l
  | compareMirrored l s c => exact readPredicate_compareMirrored c rest l s
  | test c s negation t => exact readPredicate_test c negation rest s t
  | among c negation s first more sameKind =>
    exact readPredicate_among c negation rest s first more sameKind
  | like c negation s beginning => exact readPredicate_like c negation rest s beginning
  | true s => exact readPredicate_keyword s h
  | false s => exact readPredicate_keyword s h

/-- A predicate or a constant starts neither with a parenthesis nor with a negation. -/
theorem exists_first (l : LeafText) : ∃ t ts, l.tokens = t :: ts ∧ t ≠ .opening ∧
    t.keyword? ≠ some .not ∧ t.startsWithNot = Bool.false := by
  cases l with
  | compareMirrored l s c => cases l <;> exact ⟨_, _, rfl, by simp [LiteralText.token, Word.token,
      Token.keyword?, Token.startsWithNot]⟩
  | true s | false s =>
    exact ⟨_, _, rfl, by simp [Word.token], by simp [keyword?_keyword],
      by simp [startsWithNot_keyword]⟩
  | compare c | test c | among c | like c =>
    exact ⟨(Word.column c).token, _, rfl, by simp [Word.token], by simp [keyword?_column],
      startsWithNot_column c⟩

end LeafText

/-! ## Connectives -/

namespace Phrase

variable {level : Level}

/-- No phrase is empty, so every phrase takes fuel for itself. -/
theorem length_words_pos (p : Phrase level) : 0 < p.words.length := by
  induction p with
  | leaf l => cases l <;> simp [words, LeafText.words]
  | parens p ih | not s p ih | operand p ih | conjunction p ih => simp [words, ih]
  | and left s right ihl ihr | or left s right ihl ihr => simp [words]

/-- The tokens of a phrase. -/
def tokens (p : Phrase level) : List Token := p.words.map Word.token

/-- Whether the readers read a phrase in front of whatever may follow it, if they may take enough steps.
The readers of `and` and of `or` go on with further operands, and have hardly taken more steps by then
than the phrase has words. -/
def IsRead (stack : Filter.CallStack) : {level : Level} → Phrase level → Prop
  | .operand, p => ∀ fuel room rest, 4 * p.words.length ≤ fuel → Ends rest →
      Filter.readNegation stack fuel room (p.tokens ++ rest) =
        (p.readWithin stack room).map (·, rest)
  | .conjunction, p => ∀ fuel room rest, 4 * p.words.length + 1 ≤ fuel → Ends rest →
      ∃ left, fuel ≤ left + p.words.length ∧
        Filter.readConjunction stack fuel room (p.tokens ++ rest) =
          p.readWithin stack room >>= fun f =>
            Filter.readConjuncts stack left room (p.nextCalls stack) f rest
  | .disjunction, p => ∀ fuel room rest, 4 * p.words.length + 2 ≤ fuel → Ends rest →
      (∀ t ∈ rest.head?, t.keyword? ≠ some .and) → ∃ left, fuel ≤ left + p.words.length ∧
        Filter.readDisjunction stack fuel room (p.tokens ++ rest) =
          p.readWithin stack room >>= fun f =>
            Filter.readDisjuncts stack left room (p.nextCalls stack) f rest

variable {stack : Filter.CallStack}

/-- A leaf is read: `readPredicate` takes it whole. -/
theorem isRead_leaf (l : LeafText) : (leaf l).IsRead stack := by
  intro fuel room rest hfuel hrest
  obtain ⟨t, ts, htokens, hopening, hnot, hstarts⟩ := l.exists_first
  have hlength : (leaf l).words.length = ts.length + 1 := by
    rw [← List.length_map Word.token, ← List.length_cons, ← htokens]
    rfl
  obtain ⟨fuel, rfl⟩ : ∃ n, fuel = n + 1 := ⟨fuel - 1, by omega⟩
  have hread := l.readPredicate_tokens hrest
  have htokens' : (leaf l).tokens = t :: ts := htokens
  rw [htokens, List.cons_append] at hread
  rw [htokens', List.cons_append]
  -- The first token is neither `not` nor a parenthesis, so the reader goes straight to the predicate.
  unfold Filter.readNegation
  split
  · rename_i heq
    exact absurd (List.cons.inj heq).1 hopening
  · rename_i t' ts' _ heq
    obtain ⟨rfl, rfl⟩ := List.cons.inj heq
    rw [if_neg hnot, if_neg (by simp [hstarts])]
    exact hread
  · rename_i heq
    simp at heq

/-- Conjuncts end where no `and` comes next. -/
theorem readConjuncts_of_ne {ts : List Token} (h : ∀ t ∈ ts.head?, t.keyword? ≠ some .and)
    {fuel : Nat} (hfuel : 0 < fuel) (room calls : Nat) (f : Filter) :
    Filter.readConjuncts stack fuel room calls f ts = .ok (f, ts) := by
  obtain ⟨fuel, rfl⟩ : ∃ n, fuel = n + 1 := ⟨fuel - 1, by omega⟩
  rw [Filter.readConjuncts, skip?_eq_none h]

/-- Disjuncts end where no `or` comes next. -/
theorem readDisjuncts_of_ne {ts : List Token} (h : ∀ t ∈ ts.head?, t.keyword? ≠ some .or)
    {fuel : Nat} (hfuel : 0 < fuel) (room calls : Nat) (f : Filter) :
    Filter.readDisjuncts stack fuel room calls f ts = .ok (f, ts) := by
  obtain ⟨fuel, rfl⟩ : ∃ n, fuel = n + 1 := ⟨fuel - 1, by omega⟩
  rw [Filter.readDisjuncts, skip?_eq_none h]

/-- A phrase that stands where no further operand of `and` follows is read on its own. -/
theorem IsRead.readConjunction {p : Phrase .conjunction} (h : p.IsRead stack) (fuel room : Nat)
    {rest : List Token} (hfuel : 4 * p.words.length + 1 ≤ fuel) (hrest : Ends rest)
    (hand : ∀ t ∈ rest.head?, t.keyword? ≠ some .and) :
    Filter.readConjunction stack fuel room (p.tokens ++ rest) =
      (p.readWithin stack room).map (·, rest) := by
  obtain ⟨left, hleft, hread⟩ := h fuel room rest hfuel hrest
  simp only [hread, readConjuncts_of_ne hand (by omega : 0 < left)]
  cases p.readWithin stack room <;> rfl

/-- What is read is read in parentheses, one level further in. -/
theorem isRead_parens {p : Phrase .disjunction} (h : p.IsRead stack) :
    (parens p).IsRead stack := by
  intro fuel room rest hfuel hrest
  have hlength : (parens p).words.length = p.words.length + 2 := by simp [words]
  obtain ⟨fuel, rfl⟩ : ∃ n, fuel = n + 1 := ⟨fuel - 1, by omega⟩
  have htokens : (parens p).tokens ++ rest = .opening :: (p.tokens ++ .closing :: rest) := by
    simp [tokens, words, Word.token]
  rw [htokens, Filter.readNegation, readWithin]
  -- The room is asked for before the inside is read, whatever the inside is.
  cases Filter.CallStack.enter stack.parentheses room with
  | error fault => rfl
  | ok inner =>
    obtain ⟨left, hleft, hread⟩ := h fuel inner (.closing :: rest) (by omega) (by simp [Ends])
      (by simp [Token.keyword?])
    have hend (f : Filter) :
        Filter.readDisjuncts stack left inner (p.nextCalls stack) f (.closing :: rest) =
          .ok (f, .closing :: rest) :=
      readDisjuncts_of_ne (by simp [Token.keyword?]) (by omega) _ _ f
    simp only [ok_bind, hread, hend]
    cases p.readWithin stack inner <;> rfl

/-- What is read is read behind `not`, one level further in. -/
theorem isRead_not {s : Spelling .not} {p : Phrase .operand} (h : p.IsRead stack) :
    (not s p).IsRead stack := by
  intro fuel room rest hfuel hrest
  have hlength : (not s p).words.length = p.words.length + 1 := by simp [words]
  obtain ⟨fuel, rfl⟩ : ∃ n, fuel = n + 1 := ⟨fuel - 1, by omega⟩
  have htokens : (not s p).tokens ++ rest = (Word.keyword s).token :: (p.tokens ++ rest) := rfl
  rw [htokens, Filter.readNegation, if_pos (keyword?_keyword s), readWithin]
  · cases Filter.CallStack.enter stack.negation room with
    | error fault => rfl
    | ok inner =>
      simp only [ok_bind, h fuel inner rest (by omega) hrest]
      cases p.readWithin stack inner <;> rfl
  · simp [Word.token]

/-- An operand is read as a conjunction of one. -/
theorem isRead_operand {p : Phrase .operand} (h : p.IsRead stack) :
    (operand p).IsRead stack := by
  intro fuel room rest hfuel hrest
  have hlength : (operand p).words.length = p.words.length := rfl
  obtain ⟨fuel, rfl⟩ : ∃ n, fuel = n + 1 := ⟨fuel - 1, by omega⟩
  have hread := h fuel room rest (by omega) hrest
  refine ⟨fuel, by have := p.length_words_pos; omega, ?_⟩
  have htokens : (operand p).tokens = p.tokens := rfl
  rw [htokens, Filter.readConjunction, hread, readWithin, nextCalls]
  · cases p.readWithin stack room <;> rfl
  all_goals simp

/-- The conjuncts read so far take one more. -/
theorem isRead_and {left : Phrase .conjunction} {s : Spelling .and} {right : Phrase .operand}
    (hleft : left.IsRead stack) (hright : right.IsRead stack) :
    (and left s right).IsRead stack := by
  intro fuel room rest hfuel hrest
  have hlength : (and left s right).words.length =
      left.words.length + (right.words.length + 1) := by simp [words]
  obtain ⟨steps, hsteps, hread⟩ := hleft fuel room
    ((Word.keyword s).token :: (right.tokens ++ rest)) (by omega) (by simp [Ends, keyword?_keyword])
  obtain ⟨steps, rfl⟩ : ∃ n, steps = n + 1 := ⟨steps - 1, by omega⟩
  refine ⟨steps, by omega, ?_⟩
  have htokens : (and left s right).tokens ++ rest =
      left.tokens ++ (Word.keyword s).token :: (right.tokens ++ rest) := by
    simp [tokens, words]
  have hcalls : (and left s right).nextCalls stack = stack.operand := rfl
  simp only [htokens, hread, Filter.readConjuncts, skip?_keyword, readWithin, hcalls]
  -- The left side is read with the whole room and the right side with what entering it leaves.
  cases left.readWithin stack room with
  | error fault => rfl
  | ok f =>
    cases Filter.CallStack.enter (left.nextCalls stack) room with
    | error fault => rfl
    | ok inner =>
      simp only [ok_bind, hright steps inner rest (by omega) hrest]
      cases right.readWithin stack inner <;> rfl

/-- A conjunction is read as a disjunction of one. -/
theorem isRead_conjunction {p : Phrase .conjunction} (h : p.IsRead stack) :
    (conjunction p).IsRead stack := by
  intro fuel room rest hfuel hrest hand
  have hlength : (conjunction p).words.length = p.words.length := rfl
  obtain ⟨fuel, rfl⟩ : ∃ n, fuel = n + 1 := ⟨fuel - 1, by omega⟩
  have hread := h.readConjunction fuel room (by omega) hrest hand
  refine ⟨fuel, by have := p.length_words_pos; omega, ?_⟩
  have htokens : (conjunction p).tokens = p.tokens := rfl
  rw [htokens, Filter.readDisjunction, hread, readWithin, nextCalls]
  · cases p.readWithin stack room <;> rfl
  all_goals simp

/-- The disjuncts read so far take one more. -/
theorem isRead_or {left : Phrase .disjunction} {s : Spelling .or} {right : Phrase .conjunction}
    (hleft : left.IsRead stack) (hright : right.IsRead stack) :
    (or left s right).IsRead stack := by
  intro fuel room rest hfuel hrest hand
  have hlength : (or left s right).words.length =
      left.words.length + (right.words.length + 1) := by simp [words]
  obtain ⟨steps, hsteps, hread⟩ := hleft fuel room
    ((Word.keyword s).token :: (right.tokens ++ rest)) (by omega)
    (by simp [Ends, keyword?_keyword]) (by simp [keyword?_keyword])
  obtain ⟨steps, rfl⟩ : ∃ n, steps = n + 1 := ⟨steps - 1, by omega⟩
  refine ⟨steps, by omega, ?_⟩
  have htokens : (or left s right).tokens ++ rest =
      left.tokens ++ (Word.keyword s).token :: (right.tokens ++ rest) := by
    simp [tokens, words]
  have hcalls : (or left s right).nextCalls stack = stack.operand := rfl
  simp only [htokens, hread, Filter.readDisjuncts, skip?_keyword, readWithin, hcalls]
  -- As for `and`, one level further out.
  cases left.readWithin stack room with
  | error fault => rfl
  | ok f =>
    cases Filter.CallStack.enter (left.nextCalls stack) room with
    | error fault => rfl
    | ok inner =>
      simp only [ok_bind, hright.readConjunction steps inner (by omega) hrest hand]
      cases right.readWithin stack inner <;> rfl

/-- **Each phrase** is read in front of whatever may follow it. -/
theorem isRead (p : Phrase level) : p.IsRead stack := by
  induction p with
  | leaf l => exact isRead_leaf l
  | parens p ih => exact isRead_parens ih
  | not s p ih => exact isRead_not ih
  | operand p ih => exact isRead_operand ih
  | and left s right ihl ihr => exact isRead_and ihl ihr
  | conjunction p ih => exact isRead_conjunction ih
  | or left s right ihl ihr => exact isRead_or ihl ihr

/-- A whole row of tokens is read. -/
theorem ofTokens_tokens (p : Phrase .disjunction) :
    Filter.ofTokens stack p.tokens = p.readWithin stack stack.room := by
  have hlength : p.tokens.length = p.words.length := List.length_map _
  have hphrase : p.IsRead stack := p.isRead
  obtain ⟨left, hleft, hread⟩ := hphrase (4 * p.tokens.length + 4) stack.room [] (by omega)
    (by simp [Ends]) (by simp)
  have hend (f : Filter) :
      Filter.readDisjuncts stack left stack.room (p.nextCalls stack) f [] = .ok (f, []) :=
    readDisjuncts_of_ne (by simp) (by omega) _ _ f
  rw [List.append_nil] at hread
  simp only [Filter.ofTokens, hread, hend]
  cases p.readWithin stack stack.room <;> rfl

end Phrase

/-- **The text of a phrase** is read as the literals in it and the room for calls allow. -/
theorem parseWithin_of_spaced {p : Phrase .disjunction} {text : String}
    (h : Spaced p.words text.toList) (stack : Filter.CallStack) :
    Filter.parseWithin stack text = p.readWithin stack stack.room := by
  rw [Filter.parseWithin, scan_of_spaced h]
  exact p.ofTokens_tokens

/-- Without a bound on the calls, the literals alone decide. -/
theorem parse_of_spaced {p : Phrase .disjunction} {text : String}
    (h : Spaced p.words text.toList) : Filter.parse text = p.read := by
  rw [Filter.parse, parseWithin_of_spaced h]
  exact Phrase.readWithin_of_calls_le (by rw [Phrase.calls_unbounded]; exact Nat.zero_le _)

end Surface

end PartitionPruning
