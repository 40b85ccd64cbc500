import PartitionPruning.Proofs.Filter.Words

/-!
# Texts of words

A text is made of words with blanks between them. Two words need a blank between them unless one of
them is a mark. Whatever the blanks are, the words are read as their tokens; tabs are blanks, and
putting others in their place leaves the words apart.

* **`spaced_expandTabs`** — tabs may be replaced,
* **`scanFrom_of_spaced`** — the words of a text are read from anywhere where the first one may start,
* **`scan_of_spaced`** — the words of a text are read.
-/

namespace PartitionPruning

namespace Surface

/-- Whether a text is made of words, with blanks between them and around them. -/
inductive Spaced : List Word → List Char → Prop
  | done {blanks : List Char} (h : ∀ c ∈ blanks, Token.isBlank c) : Spaced [] blanks
  | word {blanks rest : List Char} {w : Word} {ws : List Word}
      (h : ∀ c ∈ blanks, Token.isBlank c) (hend : w.isMark ∨ Separated rest)
      (hrest : Spaced ws rest) : Spaced (w :: ws) (blanks ++ (w.chars ++ rest))

/-- A plain word has no tab. -/
theorem PlainWord.noTab (w : PlainWord) : '\t' ∉ w.chars := by
  have hfirst : '\t' ≠ w.first := by
    intro h
    rcases w.starts with hs | hs <;> rw [← h] at hs <;> exact absurd hs (by decide)
  have hmore : '\t' ∉ w.more := fun h => by
    rcases w.goesOn _ h with hs | hs | hs <;> exact absurd hs (by decide)
  simp [PlainWord.chars, hfirst, hmore]

/-- A literal has no tab, not even inside its quotes. -/
theorem LiteralText.noTab (l : LiteralText) : '\t' ∉ l.chars := by
  have hsign (s : Sign) : '\t' ∉ s.chars := by cases s <;> decide
  have hdigits {ds : List Char} (h : ∀ c ∈ ds, Text.isDecimalDigit c) : '\t' ∉ ds := fun htab =>
    absurd (h _ htab) (by decide)
  cases l with
  | integer t => simp [LiteralText.chars, hsign, hdigits t.areDigits]
  | decimal t =>
    have hboth := hdigits t.areDigits
    simp only [List.mem_append, not_or] at hboth
    simp [LiteralText.chars, hsign, hboth]
  | string t =>
    -- Doubling a quote adds quotes only.
    have hbody : '\t' ∉ t.body := by
      intro h
      obtain ⟨c, hc, htab⟩ := List.mem_flatMap.mp h
      split at htab
      · simp at htab
      · exact (t.isPlain c hc).2.1 (List.mem_singleton.mp htab).symm
    simp [LiteralText.chars, hbody]

/-- No word has a tab. -/
theorem Word.noTab (w : Word) : '\t' ∉ w.chars := by
  cases w with
  | keyword s => exact fun h => absurd (s.isAlpha _ h) (by decide)
  | column c =>
    have hmore : '\t' ∉ c.more.flatMap fun w => '.' :: w.chars := by
      intro h
      obtain ⟨w, -, htab⟩ := List.mem_flatMap.mp h
      exact (List.mem_cons.mp htab).elim (by decide) w.noTab
    simp [Word.chars, ColumnName.chars, c.first.noTab, hmore]
  | literal l => exact l.noTab
  | comparison s => cases s <;> decide
  | opening | closing | comma => decide

/-- Text without tabs stays as it is, and moves the column for what is behind it. -/
theorem expandTabs_append (width : Nat) {cs : List Char} (h : '\t' ∉ cs) (column : Nat)
    (rest : List Char) : ∃ column',
      Text.expandTabs width column (cs ++ rest) = cs ++ Text.expandTabs width column' rest := by
  induction cs generalizing column with
  | nil => exact ⟨column, rfl⟩
  | cons c cs ih =>
    rw [List.mem_cons, not_or] at h
    obtain ⟨column', hcs⟩ := ih h.2 (if c = '\n' ∨ c = '\r' then 0 else column + 1)
    exact ⟨column', by rw [List.cons_append, Text.expandTabs, if_neg (Ne.symm h.1), hcs,
      List.cons_append]⟩

/-- Blanks stay blanks. -/
theorem expandTabs_blanks (width : Nat) {blanks : List Char}
    (h : ∀ c ∈ blanks, Token.isBlank c) (column : Nat) (rest : List Char) : ∃ column' blanks',
      (∀ c ∈ blanks', Token.isBlank c) ∧
      Text.expandTabs width column (blanks ++ rest) =
        blanks' ++ Text.expandTabs width column' rest := by
  induction blanks generalizing column with
  | nil => exact ⟨column, [], by simp, rfl⟩
  | cons c blanks ih =>
    rw [List.forall_mem_cons] at h
    -- A tab becomes blanks, and any other blank stays, so blanks stay blanks.
    by_cases htab : c = '\t'
    · subst htab
      obtain ⟨column', blanks', hblanks', heq⟩ := ih h.2 (column + (width - column % width))
      refine ⟨column', List.replicate (width - column % width) ' ' ++ blanks', fun d hd => ?_, ?_⟩
      · rcases List.mem_append.mp hd with hd | hd
        · rw [(List.mem_replicate.mp hd).2]
          rfl
        · exact hblanks' d hd
      · rw [List.cons_append, Text.expandTabs_tab, heq, List.append_assoc]
    · obtain ⟨column', blanks', hblanks', heq⟩ :=
        ih h.2 (if c = '\n' ∨ c = '\r' then 0 else column + 1)
      refine ⟨column', c :: blanks', List.forall_mem_cons.mpr ⟨h.1, hblanks'⟩, ?_⟩
      rw [List.cons_append, Text.expandTabs, if_neg htab, heq, List.cons_append]

/-- What is separated stays so, for a tab leaves a blank at least. -/
theorem separated_expandTabs {width : Nat} (hwidth : 0 < width) {cs : List Char}
    (h : Separated cs) (column : Nat) : Separated (Text.expandTabs width column cs) := by
  cases cs with
  | nil => exact h
  | cons c rest =>
    by_cases htab : c = '\t'
    · subst htab
      obtain ⟨n, hn⟩ : ∃ n, width - column % width = n + 1 :=
        ⟨width - column % width - 1, by have := Nat.mod_lt column hwidth; omega⟩
      rw [Text.expandTabs_tab, hn, List.replicate_succ, List.cons_append, separated_cons]
      exact Or.inl rfl
    · rw [Text.expandTabs, if_neg htab, separated_cons]
      exact separated_cons.mp h

/-- **Tabs may be replaced** by blanks. -/
theorem spaced_expandTabs {width : Nat} (hwidth : 0 < width) {ws : List Word} {cs : List Char}
    (h : Spaced ws cs) (column : Nat) : Spaced ws (Text.expandTabs width column cs) := by
  induction h generalizing column with
  | @done blanks h =>
    obtain ⟨column', blanks', hblanks', heq⟩ := expandTabs_blanks width h column []
    rw [List.append_nil] at heq
    rw [heq, Text.expandTabs, List.append_nil]
    exact .done hblanks'
  | @word blanks rest w ws h hend hrest ih =>
    obtain ⟨column', blanks', hblanks', heq⟩ :=
      expandTabs_blanks width h column (w.chars ++ rest)
    obtain ⟨column'', hword⟩ := expandTabs_append width w.noTab column' rest
    rw [heq, hword]
    exact .word hblanks' (hend.imp_right fun h => separated_expandTabs hwidth h column'')
      (ih column'')

/-! ## Tokens -/

/-- No word is empty. -/
theorem Word.chars_ne_nil (w : Word) : w.chars ≠ [] := by
  cases w with
  | keyword s => exact s.letters_ne_nil
  | column c => simp [Word.chars, ColumnName.chars, PlainWord.chars]
  | literal l =>
    cases l with
    | integer t => simp [Word.chars, LiteralText.chars, t.nonempty]
    | decimal t => simp [Word.chars, LiteralText.chars]
    | string t => simp [Word.chars, LiteralText.chars]
  | comparison s => cases s <;> decide
  | opening | closing | comma => decide

/-- Blanks only separate. -/
theorem scanFrom_blanks {blanks : List Char} (h : ∀ c ∈ blanks, Token.isBlank c)
    {left : Nat} {continues : Bool} {cs : List Char} (hleft : (blanks ++ cs).length ≤ left)
    (hcontinues : continues = true → Separated (blanks ++ cs)) : ∃ left' continues',
      cs.length ≤ left' ∧ (continues' = true → Separated cs) ∧
      Token.scanFrom left continues (blanks ++ cs) = Token.scanFrom left' continues' cs := by
  induction blanks generalizing left continues with
  | nil => exact ⟨left, continues, hleft, hcontinues, rfl⟩
  | cons c blanks ih =>
    rw [List.forall_mem_cons] at h
    rw [List.cons_append, List.length_cons] at hleft
    obtain ⟨left, rfl⟩ : ∃ n, left = n + 1 := ⟨left - 1, by omega⟩
    rw [List.cons_append, Token.scanFrom, if_pos h.1]
    exact ih h.2 (Nat.le_of_succ_le_succ hleft) (by simp)

/-- **The words of a text** are read from where the first one may start. -/
theorem scanFrom_of_spaced {ws : List Word} {cs : List Char} (h : Spaced ws cs) {left : Nat}
    {continues : Bool} (hleft : cs.length ≤ left) (hcontinues : continues = true → Separated cs) :
    Token.scanFrom left continues cs = ws.map Word.token := by
  induction h generalizing left continues with
  | @done blanks h =>
    rw [← List.append_nil blanks] at hleft hcontinues ⊢
    obtain ⟨left', continues', -, -, heq⟩ := scanFrom_blanks h hleft hcontinues
    rw [heq]
    cases left' <;> rfl
  | @word blanks rest w ws h hend hrest ih =>
    obtain ⟨left', continues', hleft', hcontinues', heq⟩ := scanFrom_blanks h hleft hcontinues
    obtain ⟨c, cs, next, hcons, hblank, hone, hnext⟩ := readAs_word w hend hcontinues'
    -- Every word has a character, so the scan has fuel for the next one.
    have hshort : rest.length < left' := by
      have hword := List.length_pos_iff.mpr w.chars_ne_nil
      rw [List.length_append] at hleft'
      omega
    obtain ⟨left', rfl⟩ : ∃ n, left' = n + 1 := ⟨left' - 1, by omega⟩
    rw [heq, hcons, Token.scanFrom, if_neg (by simp [hblank]), hone]
    simp only [List.map_cons]
    rw [ih (Nat.le_of_lt_succ hshort) hnext]

/-- **The words of a text** are read as their tokens. -/
theorem scan_of_spaced {ws : List Word} {text : String} (h : Spaced ws text.toList) :
    Token.scan text = ws.map Word.token :=
  scanFrom_of_spaced (spaced_expandTabs (by decide) h 0) (Nat.le_refl _) (by simp)

end Surface

end PartitionPruning
