import PartitionPruning.Proofs.Filter.Parsing

/-!
# Literals in quotes

What stands between quotes is read character by character, a doubled quote as one quote. Tabs are the
exception: they become blanks before anything is read, and how many depends on the column. So a literal
is read as it is written exactly if there is no tab in it, in an equation as well as in a list.

* **`expandTabs_doubled`** — the tabs between quotes become blanks there,
* **`parse_equalsText`**, **`parse_amongText`** — an equation and a list are read with these literals,
* **`parse_quoted_iff`** — they are read with the literals that are written if there is no tab in them.
-/

namespace PartitionPruning

/-! ## Tabs of a line -/

namespace Text

/-- Whether a text has no line breaks. -/
def IsLine (cs : List Char) : Prop := ∀ c ∈ cs, c ≠ '\n' ∧ c ≠ '\r'

/-- Behind a part of a line the columns go on where its blanks end. -/
theorem expandTabs_append_of_isLine (width : Nat) {cs : List Char} (h : IsLine cs) (column : Nat)
    (rest : List Char) :
    expandTabs width column (cs ++ rest) =
      expandTabs width column cs ++
        expandTabs width (column + (expandTabs width column cs).length) rest := by
  induction cs generalizing column with
  | nil => rfl
  | cons c cs ih =>
    obtain ⟨⟨hn, hr⟩, hcs⟩ := List.forall_mem_cons.mp h
    -- A tab moves the column by its own width, any other character of the line by one.
    by_cases htab : c = '\t'
    · subst htab
      rw [List.cons_append, expandTabs_tab, expandTabs_tab, ih hcs, List.append_assoc,
        List.length_append, List.length_replicate, Nat.add_assoc]
    · have hcolumn : (if c = '\n' ∨ c = '\r' then 0 else column + 1) = column + 1 :=
        if_neg (not_or.mpr ⟨hn, hr⟩)
      rw [List.cons_append, expandTabs, expandTabs, if_neg htab, if_neg htab, hcolumn, ih hcs,
        List.cons_append, List.length_cons, Nat.add_right_comm, Nat.add_assoc]

/-- A part of a line without tabs stays as it is. -/
theorem expandTabs_append_of_noTab (width : Nat) {cs : List Char} (hline : IsLine cs)
    (htab : '\t' ∉ cs) (column : Nat) (rest : List Char) :
    expandTabs width column (cs ++ rest) = cs ++ expandTabs width (column + cs.length) rest := by
  rw [expandTabs_append_of_isLine width hline, expandTabs_of_noTab width htab]

/-- No tab is left once they are replaced. -/
theorem tab_notMem_expandTabs (width column : Nat) (cs : List Char) :
    '\t' ∉ expandTabs width column cs := by
  induction cs generalizing column with
  | nil => simp [expandTabs]
  | cons c cs ih =>
    by_cases htab : c = '\t'
    · subst htab
      rw [expandTabs_tab, List.mem_append, List.mem_replicate]
      exact fun h => h.elim (fun h => absurd h.2 (by decide)) (ih _)
    · rw [expandTabs, if_neg htab, List.mem_cons]
      exact fun h => h.elim (fun h => htab h.symm) (ih _)

end Text

/-- **A filter is read** with blanks in the place of its tabs. -/
theorem Filter.parse_expandTabs (cs : List Char) :
    parse (String.ofList cs) = parse (String.ofList (Text.expandTabs Token.tabWidth 0 cs)) := by
  have hblanks := Text.expandTabs_of_noTab Token.tabWidth
    (Text.tab_notMem_expandTabs Token.tabWidth 0 cs) 0
  simp only [parse, parseWithin, Token.scan, String.toList_ofList, hblanks]

/-! ## Lists of texts -/

/-- A set predicate over distinct literals determines them. -/
theorem Predicate.ofSet_injective {op : Membership} {name : String} {ls ms : List Literal}
    (h : (ofSet op name ls).map Leaf.unbound = (ofSet op name ms).map Leaf.unbound) : ls = ms := by
  unfold ofSet at h
  split at h <;> split at h <;> simp_all [Expr.map]

/-- **Tests of membership** among texts are the same only if they have the same texts. -/
theorem Filter.mem_of_ofLiterals_eq {op : Membership} {name : String} {ss ts : List String}
    (h : ofLiterals op name (ss.map .string) = ofLiterals op name (ts.map .string)) {s : String}
    (hs : s ∈ ss) : s ∈ ts := by
  have hset (ss : List String) : ∃ set, Literal.toSet (ss.map .string) = .ok set :=
    ⟨_, Literal.toSet_eq_ok.mpr ⟨by simp [Literal.value, Value.isHashable], rfl⟩⟩
  obtain ⟨ls, hls⟩ := hset ss
  obtain ⟨ms, hms⟩ := hset ts
  simp only [ofLiterals, Predicate.ofLiterals, hls, hms, Outcome.map_ok, Except.ok.injEq] at h
  obtain rfl := Predicate.ofSet_injective h
  obtain ⟨k, hk, hkey⟩ := Literal.exists_key_of_toSet hls (List.mem_map_of_mem hs)
  obtain ⟨t, ht, rfl⟩ := List.mem_map.mp (Literal.mem_of_mem_toSet hms hk)
  obtain rfl : t = s := by simpa [Literal.value, Value.key?] using hkey
  exact ht

namespace Surface

open Outcome (Succeeds mapM_of_ok)

/-! ## Texts between quotes -/

/-- A text that may stand between single quotes. -/
structure LineText where
  content : List Char
  isLine : ∀ c ∈ content, c ≠ '\x5c' ∧ c ≠ '\n' ∧ c ≠ '\r'

/-- A text with each quote written twice. -/
def doubled (content : List Char) : List Char :=
  content.flatMap fun c => if c = '\x27' then ['\x27', '\x27'] else [c]

def LineText.quoted (t : LineText) : List Char := '\x27' :: (doubled t.content ++ ['\x27'])

/-- What is read of a text between quotes whose first character stands in a column. -/
def readFrom (column : Nat) : List Char → List Char
  | [] => []
  | c :: rest =>
    if c = '\t' then
      let blanks := Token.tabWidth - column % Token.tabWidth
      List.replicate blanks ' ' ++ readFrom (column + blanks) rest
    else c :: readFrom (column + if c = '\x27' then 2 else 1) rest

/-- Doubling goes character by character. -/
theorem doubled_cons (c : Char) (cs : List Char) :
    doubled (c :: cs) = (if c = '\x27' then ['\x27', '\x27'] else [c]) ++ doubled cs := rfl

/-- Doubling goes part by part. -/
theorem doubled_append (cs ds : List Char) : doubled (cs ++ ds) = doubled cs ++ doubled ds :=
  List.flatMap_append

/-- Blanks are not doubled. -/
theorem doubled_replicate (n : Nat) : doubled (List.replicate n ' ') = List.replicate n ' ' := by
  induction n with
  | zero => rfl
  | succ n ih =>
    rw [List.replicate_succ, doubled_cons, ih, if_neg (by decide), List.singleton_append]

/-- **The tabs between quotes** become blanks, and the quotes stay doubled. -/
theorem expandTabs_doubled {content : List Char} (h : Text.IsLine content) (column : Nat) :
    Text.expandTabs Token.tabWidth column (doubled content) = doubled (readFrom column content) := by
  induction content generalizing column with
  | nil => rfl
  | cons c content ih =>
    obtain ⟨⟨hn, hr⟩, hcontent⟩ := List.forall_mem_cons.mp h
    rw [doubled_cons, readFrom]
    by_cases htab : c = '\t'
    · subst htab
      rw [if_neg (by decide), if_pos rfl, List.singleton_append, Text.expandTabs_tab, ih hcontent,
        doubled_append, doubled_replicate]
    rw [if_neg htab, doubled_cons]
    by_cases hquote : c = '\x27'
    · subst hquote
      simp [Text.expandTabs, ih hcontent]
    · simp [Text.expandTabs, hquote, htab, hn, hr, ih hcontent]

/-- A content without tabs is read as it stands, wherever it begins. -/
theorem readFrom_of_noTab {content : List Char} (h : '\t' ∉ content) (column : Nat) :
    readFrom column content = content := by
  induction content generalizing column with
  | nil => rfl
  | cons c content ih =>
    rw [List.mem_cons, not_or] at h
    rw [readFrom, if_neg (Ne.symm h.1), ih h.2]

/-- What is read is blank or it is written there, and it is no tab. -/
theorem mem_readFrom {c : Char} {content : List Char} {column : Nat} (h : c ∈ readFrom column content) :
    (c = ' ' ∨ c ∈ content) ∧ c ≠ '\t' := by
  induction content generalizing column with
  | nil => simp [readFrom] at h
  | cons d content ih =>
    rw [readFrom] at h
    split_ifs at h with htab hquote
    · rcases List.mem_append.mp h with h | h
      · rw [(List.mem_replicate.mp h).2]
        exact ⟨Or.inl rfl, by decide⟩
      · exact ⟨(ih h).1.imp_right (List.mem_cons_of_mem d), (ih h).2⟩
    all_goals
      rcases List.mem_cons.mp h with rfl | h
      · exact ⟨Or.inr List.mem_cons_self, htab⟩
      · exact ⟨(ih h).1.imp_right (List.mem_cons_of_mem d), (ih h).2⟩

namespace LineText

variable (t : LineText)

/-- The literal that is read where the first character behind the quote stands in a column. -/
def readAt (column : Nat) : QuotedText where
  content := readFrom column t.content
  isPlain c hc := by
    obtain ⟨hc, htab⟩ := mem_readFrom hc
    rcases hc with rfl | hc
    · decide
    · exact ⟨(t.isLine c hc).1, htab, (t.isLine c hc).2⟩

/-- **The literal that is written is read** exactly if there is no tab in it. -/
theorem content_readAt_iff (column : Nat) :
    (t.readAt column).content = t.content ↔ '\t' ∉ t.content := by
  refine ⟨fun h htab => ?_, fun h => readFrom_of_noTab h column⟩
  rw [← h] at htab
  exact (mem_readFrom htab).2 rfl

/-- A quoted content stays on its line. -/
theorem isLine_quoted : Text.IsLine t.quoted := by
  intro c hc
  simp only [quoted, doubled, List.mem_cons, List.mem_append, List.mem_flatMap, List.not_mem_nil,
    or_false] at hc
  obtain rfl | ⟨d, hd, hc⟩ | rfl := hc
  · decide
  · split at hc
    · obtain rfl : c = '\x27' := by simpa using hc
      decide
    · obtain rfl := List.mem_singleton.mp hc
      exact (t.isLine c hd).2
  · decide

/-- Replacing the tabs of a quoted content gives the quotation of the content as it is read there. -/
theorem expandTabs_quoted (column : Nat) :
    Text.expandTabs Token.tabWidth column t.quoted =
      (LiteralText.string (t.readAt (column + 1))).chars := by
  have hcontent : Text.IsLine t.content := fun c hc => (t.isLine c hc).2
  have hdoubled : Text.IsLine (doubled t.content) := fun c hc =>
    t.isLine_quoted c (List.mem_cons_of_mem _ (List.mem_append_left _ hc))
  have hopen : Text.IsLine ['\x27'] := forall_mem_of_all (by decide)
  rw [quoted, ← List.singleton_append, Text.expandTabs_append_of_noTab _ hopen (by decide),
    Text.expandTabs_append_of_isLine _ hdoubled, expandTabs_doubled hcontent,
    Text.expandTabs_of_noTab _ (by decide)]
  rfl

end LineText

/-! ## Equations and lists -/

def PlainWord.text (w : PlainWord) : String := String.ofList w.chars

/-- The name of a column that is one word. -/
def PlainWord.column (w : PlainWord) : ColumnName := ⟨w, []⟩

/-- A column of one word is named by that word. -/
theorem PlainWord.name_column (w : PlainWord) : w.column.name = w.text := by
  simp [column, ColumnName.name, ColumnName.chars, text]

/-- The text that compares a column with a literal. -/
def equalsText (w : PlainWord) (t : LineText) : String :=
  String.ofList (w.chars ++ ([' ', '=', ' '] ++ t.quoted))

/-- The text that looks for a column among literals. -/
def amongText (w : PlainWord) (first : LineText) (more : List LineText) : String :=
  String.ofList (w.chars ++ ([' ', 'i', 'n', ' ', '('] ++
    (first.quoted ++ ((more.flatMap fun t => [',', ' '] ++ t.quoted) ++ [')']))))

/-- The literals of a list that are read where the first one starts in a column. -/
def readsFrom (column : Nat) : List LineText → List QuotedText
  | [] => []
  | t :: more =>
    t.readAt column :: readsFrom (column + (t.readAt column).body.length + 4) more

def QuotedText.literal (t : QuotedText) : Literal := .string (String.ofList t.content)

def LineText.literal (t : LineText) : Literal := .string (String.ofList t.content)

def equalsPhrase (w : PlainWord) (t : QuotedText) : Phrase .disjunction :=
  .conjunction (.operand (.leaf (.compare w.column .equal (.string t))))

/-- The word for membership in small letters. -/
def smallIn : Spelling .in := ⟨['i', 'n'], by decide⟩

def amongPhrase (w : PlainWord) (first : QuotedText) (more : List QuotedText) :
    Phrase .disjunction :=
  .conjunction (.operand (.leaf (.among w.column none smallIn (.string first) (more.map .string)
    (by simp [LiteralText.SameKind]))))

/-- A plain word stays on its line. -/
theorem PlainWord.isLine (w : PlainWord) : Text.IsLine w.chars := by
  intro c hc
  have hnot : ∀ b ∈ ['\n', '\r'], ¬ (b.isAlphanum ∨ b = '_' ∨ b = '$') :=
    forall_mem_of_all (by decide)
  have hword := w.isWordChar c hc
  exact ⟨fun h => hnot '\n' (by simp) (h ▸ hword), fun h => hnot '\r' (by simp) (h ▸ hword)⟩

/-- A column of one word is written as that word. -/
theorem chars_column (w : PlainWord) : (Word.column w.column).chars = w.chars := by
  simp [Word.chars, PlainWord.column, ColumnName.chars]

/-- Blanks may stand in front of words. -/
theorem Spaced.blank {ws : List Word} {cs : List Char} (h : Spaced ws cs) : Spaced ws (' ' :: cs) := by
  have hcons {blanks : List Char} (hblanks : ∀ c ∈ blanks, Token.isBlank c) :
      ∀ c ∈ ' ' :: blanks, Token.isBlank c := List.forall_mem_cons.mpr ⟨rfl, hblanks⟩
  cases h with
  | done hblanks => exact .done (hcons hblanks)
  | word hblanks hend hrest => exact .word (hcons hblanks) hend hrest

/-- A word may stand in front of words, with a blank behind it or without one behind a mark. -/
theorem Spaced.cons {w : Word} {ws : List Word} {cs : List Char} (hend : w.isMark ∨ Separated cs)
    (h : Spaced ws cs) : Spaced (w :: ws) (w.chars ++ cs) :=
  .word (List.forall_mem_nil _) hend h

/-- A blank separates what is before it. -/
theorem separated_blank (cs : List Char) : Separated (' ' :: cs) := separated_cons.mpr (Or.inl rfl)

/-- The words of an equality, with one blank around the sign. -/
theorem spaced_equals (w : PlainWord) (t : QuotedText) :
    Spaced (equalsPhrase w t).words
      (w.chars ++ ([' ', '=', ' '] ++ (LiteralText.string t).chars)) := by
  have hliteral : Spaced [.literal (.string t)] ((LiteralText.string t).chars ++ []) :=
    .cons (Or.inr (by simp [Separated])) (.done (by simp))
  have hsign := Spaced.cons (w := .comparison .equal) (Or.inr (separated_blank _)) hliteral.blank
  have hcolumn := Spaced.cons (w := .column w.column) (Or.inr (separated_blank _)) hsign.blank
  rw [chars_column, List.append_nil] at hcolumn
  exact hcolumn

/-- The literals behind the first one and the closing parenthesis, which stand behind any word. -/
theorem spaced_more (more : List QuotedText) :
    Spaced ((more.flatMap fun t => [.comma, .literal (.string t)]) ++ [.closing])
        ((more.flatMap fun t => [',', ' '] ++ (LiteralText.string t).chars) ++ [')']) ∧
      Separated ((more.flatMap fun t => [',', ' '] ++ (LiteralText.string t).chars) ++ [')']) := by
  induction more with
  | nil => exact ⟨.cons (w := .closing) (Or.inl rfl) (.done (by simp)), by simp [Separated]⟩
  | cons t more ih =>
    refine ⟨?_, separated_cons.mpr (by simp)⟩
    have hliteral := Spaced.cons (w := .literal (.string t)) (Or.inr ih.2) ih.1
    have hcomma := Spaced.cons (w := .comma) (Or.inl rfl) hliteral.blank
    simpa [Word.chars] using hcomma

/-- The words of a set, with a blank behind each comma. -/
theorem spaced_among (w : PlainWord) (first : QuotedText) (more : List QuotedText) :
    Spaced (amongPhrase w first more).words
      (w.chars ++ ([' ', 'i', 'n', ' ', '('] ++ ((LiteralText.string first).chars ++
        ((more.flatMap fun t => [',', ' '] ++ (LiteralText.string t).chars) ++ [')'])))) := by
  obtain ⟨hmore, hbehind⟩ := spaced_more more
  have hfirst := Spaced.cons (w := .literal (.string first)) (Or.inr hbehind) hmore
  have hopen := Spaced.cons (w := .opening) (Or.inl rfl) hfirst
  have hin := Spaced.cons (w := .keyword smallIn) (Or.inr (separated_blank _)) hopen.blank
  have hcolumn := Spaced.cons (w := .column w.column) (Or.inr (separated_blank _)) hin.blank
  rw [chars_column] at hcolumn
  simpa [amongPhrase, Phrase.words, LeafText.words, negationWords, List.flatMap_map, Word.chars,
    smallIn] using hcolumn

/-! ## Tabs of equations and lists -/

/-- Words and the blanks behind them stay as they are. -/
theorem expandTabs_word (w : PlainWord) {behind : List Char}
    (hbehind : ∀ c ∈ behind, c ≠ '\t' ∧ c ≠ '\n' ∧ c ≠ '\r') (rest : List Char) :
    Text.expandTabs Token.tabWidth 0 (w.chars ++ (behind ++ rest)) =
      w.chars ++ (behind ++
        Text.expandTabs Token.tabWidth (w.chars.length + behind.length) rest) := by
  rw [Text.expandTabs_append_of_noTab _ w.isLine w.noTab,
    Text.expandTabs_append_of_noTab _ (fun c hc => (hbehind c hc).2)
      (fun htab => (hbehind _ htab).1 rfl), Nat.zero_add]

/-- A quoted string has two quotes around its body. -/
theorem length_chars_string (t : QuotedText) :
    (LiteralText.string t).chars.length = t.body.length + 2 := by
  simp [LiteralText.chars]

/-- The tabs of the contents behind the first are replaced from the column each of them has reached. -/
theorem expandTabs_more (more : List LineText) (column : Nat) :
    Text.expandTabs Token.tabWidth column ((more.flatMap fun t => [',', ' '] ++ t.quoted) ++ [')']) =
      ((readsFrom (column + 3) more).flatMap fun t => [',', ' '] ++ (LiteralText.string t).chars) ++
        [')'] := by
  induction more generalizing column with
  | nil => exact Text.expandTabs_of_noTab _ (by decide) column
  | cons t more ih =>
    have hcomma : Text.IsLine [',', ' '] := forall_mem_of_all (by decide)
    have hnext (n : Nat) : column + [',', ' '].length + (n + 2) + 3 = column + 3 + n + 4 := by
      rw [List.length_cons, List.length_singleton]
      omega
    rw [List.flatMap_cons, List.append_assoc, List.append_assoc,
      Text.expandTabs_append_of_noTab _ hcomma (by decide),
      Text.expandTabs_append_of_isLine _ t.isLine_quoted, t.expandTabs_quoted, length_chars_string, ih,
      hnext, readsFrom, List.flatMap_cons, List.append_assoc, List.append_assoc]
    rfl

/-- The tabs of a whole list are replaced content by content. -/
theorem expandTabs_among (w : PlainWord) (first : LineText) (more : List LineText) :
    Text.expandTabs Token.tabWidth 0 (w.chars ++ ([' ', 'i', 'n', ' ', '('] ++
        (first.quoted ++ ((more.flatMap fun t => [',', ' '] ++ t.quoted) ++ [')'])))) =
      w.chars ++ ([' ', 'i', 'n', ' ', '('] ++
        ((LiteralText.string (first.readAt (w.chars.length + 6))).chars ++
          (((readsFrom (w.chars.length + 6 + (first.readAt (w.chars.length + 6)).body.length + 4)
            more).flatMap fun t => [',', ' '] ++ (LiteralText.string t).chars) ++ [')']))) := by
  have hnext (n : Nat) :
      w.chars.length + [' ', 'i', 'n', ' ', '('].length + (n + 2) + 3 = w.chars.length + 6 + n + 4 := by
    simp only [List.length_cons, List.length_nil]
    omega
  rw [expandTabs_word w (forall_mem_of_all (by decide)),
    Text.expandTabs_append_of_isLine _ first.isLine_quoted, first.expandTabs_quoted,
    length_chars_string, expandTabs_more, hnext]
  rfl

/-! ## What is read -/

open PartitionPruning.Filter (ofPredicate ofLiterals)

/-- **An equation** is read with the literal that starts four columns behind the name. -/
theorem parse_equalsText (w : PlainWord) (t : LineText) :
    Filter.parse (equalsText w t) =
      .ok (ofPredicate (.compare .equal w.text (t.readAt (w.chars.length + 4)).literal)) := by
  have hspaced : Spaced (equalsPhrase w (t.readAt (w.chars.length + 4))).words (String.ofList
      (Text.expandTabs Token.tabWidth 0 (w.chars ++ ([' ', '=', ' '] ++ t.quoted)))).toList := by
    rw [expandTabs_word w (forall_mem_of_all (by decide)), t.expandTabs_quoted, String.toList_ofList]
    exact spaced_equals w _
  rw [equalsText, Filter.parse_expandTabs, parse_of_spaced hspaced, ← w.name_column]
  rfl

/-- The phrase of a set is read to the set of its contents. -/
theorem read_among (w : PlainWord) (first : QuotedText) (more : List QuotedText) :
    (amongPhrase w first more).read =
      ofLiterals .isIn w.text ((first :: more).map QuotedText.literal) := by
  have hread : ((.string first :: more.map .string).mapM LiteralText.read) =
      .ok ((.string first :: more.map .string).map LiteralText.literal) :=
    mapM_of_ok fun l hl => LiteralText.read_of_readable (by
      obtain rfl | ⟨t, -, rfl⟩ : l = .string first ∨ ∃ t ∈ more, .string t = l := by simpa using hl
      · trivial
      · trivial)
  simp only [Phrase.read, amongPhrase, Phrase.build, LeafText.build, hread, w.name_column]
  rw [Outcome.ok_bind, List.map_cons, List.map_map]
  rfl

/-- **A list** is read with the literals in the columns where they start. -/
theorem parse_amongText (w : PlainWord) (first : LineText) (more : List LineText) :
    Filter.parse (amongText w first more) =
      ofLiterals .isIn w.text
        ((readsFrom (w.chars.length + 6) (first :: more)).map QuotedText.literal) := by
  have hspaced := spaced_among w (first.readAt (w.chars.length + 6))
    (readsFrom (w.chars.length + 6 + (first.readAt (w.chars.length + 6)).body.length + 4) more)
  rw [← expandTabs_among, ← String.toList_ofList (l := Text.expandTabs ..)] at hspaced
  rw [amongText, Filter.parse_expandTabs, parse_of_spaced hspaced, read_among, readsFrom]

/-- Contents without tabs are read as they stand. -/
theorem readsFrom_of_noTab {ts : List LineText} (h : ∀ t ∈ ts, '\t' ∉ t.content) (column : Nat) :
    (readsFrom column ts).map QuotedText.literal = ts.map LineText.literal := by
  induction ts generalizing column with
  | nil => rfl
  | cons t ts ih =>
    rw [List.forall_mem_cons] at h
    have hfirst : (t.readAt column).literal = t.literal :=
      congrArg (fun cs => Literal.string (String.ofList cs)) ((t.content_readAt_iff column).mpr h.1)
    rw [readsFrom, List.map_cons, List.map_cons, hfirst, ih h.2]

/-- Lists that give the same test are read with each of the texts that are written. -/
theorem exists_content_of_ofLiterals_eq {op : Membership} {name : String} {qs : List QuotedText}
    {ts : List LineText}
    (h : ofLiterals op name (qs.map QuotedText.literal) =
      ofLiterals op name (ts.map LineText.literal)) {t : LineText} (ht : t ∈ ts) :
    ∃ q ∈ qs, q.content = t.content := by
  have hqs : qs.map QuotedText.literal = (qs.map fun q => String.ofList q.content).map .string := by
    rw [List.map_map]
    rfl
  have hts : ts.map LineText.literal = (ts.map fun t => String.ofList t.content).map .string := by
    rw [List.map_map]
    rfl
  rw [hqs, hts] at h
  have hmem := Filter.mem_of_ofLiterals_eq h.symm
    (List.mem_map_of_mem (f := fun t : LineText => String.ofList t.content) ht)
  obtain ⟨q, hq, htext⟩ := List.mem_map.mp hmem
  exact ⟨q, hq, String.ofList_inj.mp htext⟩

/-- **What stands between quotes** is read with blanks in the place of tabs, in an equation and in a
list. So the literals that are read are those that are written exactly if there is no tab in them. -/
theorem parse_quoted_iff (w : PlainWord) (t : LineText) (more : List LineText) :
    Filter.parse (equalsText w t) =
        .ok (ofPredicate (.compare .equal w.text (t.readAt (w.chars.length + 4)).literal)) ∧
      (Filter.parse (equalsText w t) = .ok (ofPredicate (.compare .equal w.text t.literal)) ↔
        '\t' ∉ t.content) ∧
      Filter.parse (amongText w t more) =
        ofLiterals .isIn w.text
          ((readsFrom (w.chars.length + 6) (t :: more)).map QuotedText.literal) ∧
      (Filter.parse (amongText w t more) =
          ofLiterals .isIn w.text ((t :: more).map LineText.literal) ↔
        ∀ u ∈ t :: more, '\t' ∉ u.content) ∧
      Succeeds (Filter.parse (amongText w t more)) := by
  rw [parse_equalsText, parse_amongText]
  refine ⟨rfl, ?equation, rfl, ⟨?noTab, ?written⟩, ?succeeds⟩
  case equation =>
    rw [← t.content_readAt_iff (w.chars.length + 4)]
    simp [ofPredicate, QuotedText.literal, LineText.literal, String.ofList_inj]
  case noTab =>
    intro h u hu htab
    -- A set keeps each of its contents, so a tab that was replaced would be missing.
    obtain ⟨q, -, hcontent⟩ := exists_content_of_ofLiterals_eq h hu
    rw [← hcontent] at htab
    exact (q.isPlain _ htab).2.1 rfl
  case written => exact fun h => by rw [readsFrom_of_noTab h]
  case succeeds =>
    have hmade := succeeds_ofLiterals .isIn w.text
      ((readsFrom (w.chars.length + 6) (t :: more)).map .string)
    rw [List.map_map] at hmade
    exact hmade

/-- **A tab between quotes** is read as two blanks, as many as lead to the next column. -/
theorem parse_of_tab :
    let w : PlainWord := ⟨'a', [], by decide, by simp, by intro k; cases k <;> decide⟩
    let t : LineText := ⟨['x', '\t', 'y'], forall_mem_of_all (by decide)⟩
    equalsText w t = "a = 'x\ty'" ∧
      Filter.parse "a = 'x\ty'" = .ok (ofPredicate (.compare .equal "a" (.string "x  y"))) ∧
      Filter.parse "a = 'x\ty'" ≠ .ok (ofPredicate (.compare .equal "a" (.string "x\ty"))) := by
  intro w t
  have hparse : Filter.parse "a = 'x\ty'" =
      .ok (ofPredicate (.compare .equal "a" (.string "x  y"))) := parse_equalsText w t
  refine ⟨by decide, hparse, ?_⟩
  rw [hparse]
  simp [ofPredicate]

end Surface

end PartitionPruning
