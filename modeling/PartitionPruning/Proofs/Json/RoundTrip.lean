import PartitionPruning.Json.Reader
import PartitionPruning.Json.Writer
import PartitionPruning.Proofs.Numeral.Digits

/-!
# Documents are read back

A document without fractions, in which no key of an object occurs twice and no integer is too long to
be read, is read back from its text. The reader takes no more steps than the text has characters.

* **`units?_escapeChar`** — each character of a string is read back from its escape,
* **`number?_intChars`** — an integer is read back if no character of a numeral follows it,
* **`Readable.readsBack`** — a document is read back, whatever follows it,
* **`parse?_render`** — a text that holds one document is read back.
-/

namespace PartitionPruning

namespace Text.Hex

/-- A hexadecimal digit is read back. -/
theorem value?_digit : ∀ d < 16, value? (digit d) = some d := by decide

/-- The lowest digits of a number are read back. -/
theorem nat?_padded (width n : Nat) : nat? (padded width n) = some (n % 16 ^ width) := by
  induction width generalizing n with
  | zero => simp [padded, nat?, Nat.mod_one]
  | succ width ih =>
    have hlow : value? (digit (n % 16)) = some (n % 16) :=
      value?_digit _ (Nat.mod_lt _ (by decide))
    have hsplit : n % 16 ^ (width + 1) = 16 * (n / 16 % 16 ^ width) + n % 16 := by
      rw [Nat.pow_succ', Nat.mod_mul, Nat.add_comm]
    have hhigh := ih (n / 16)
    rw [nat?] at hhigh
    rw [padded, nat?, List.foldlM_append, hhigh, hsplit]
    simp [hlow]

end Text.Hex

namespace Json

/-! ## Members -/

/-- A new name is put behind the others. -/
theorem Member.put_of_notMem {key : String} (value : Json) {members : List Member}
    (h : key ∉ members.map Member.key) : put key value members = members ++ [⟨key, value⟩] := by
  induction members with
  | nil => rfl
  | cons m rest ih =>
    obtain ⟨k, v⟩ := m
    rw [List.map_cons, List.mem_cons, not_or] at h
    rw [put, if_neg (Ne.symm h.1), ih h.2, List.cons_append]

/-- Members of different keys stay as they are. -/
theorem Member.ofPairs_of_nodup {pairs : List Member} (h : (pairs.map Member.key).Nodup) :
    ofPairs pairs = pairs := by
  -- what has been put so far goes before the rest
  suffices ∀ members : List Member, ((members ++ pairs).map Member.key).Nodup →
      pairs.foldl (fun members m => put m.key m.value members) members = members ++ pairs from
    this [] (by simpa using h)
  intro members hnodup
  induction pairs generalizing members with
  | nil => simp
  | cons m rest ih =>
    have hfresh : m.key ∉ members.map Member.key := by
      rw [List.map_append, List.map_cons] at hnodup
      exact fun hmem => (List.nodup_append.mp hnodup).2.2 _ hmem _ List.mem_cons_self rfl
    have hm : (⟨m.key, m.value⟩ : Member) = m := by cases m; rfl
    rw [List.foldl_cons, put_of_notMem _ hfresh, hm,
      ih (List.nodup_cons.mp h).2 _ (by simpa using hnodup)]
    simp

/-! ## Strings -/

/-- An escape of one letter stands for its character. -/
theorem units?_named {e c : Char} (h : namedEscape? e = some c) (rest : List Char) :
    units? ('\x5c' :: e :: rest) =
      (units? rest).map fun (units, rest) => (c.toNat :: units, rest) := by
  have hu : e ≠ 'u' := by
    rintro rfl
    simp [namedEscape?] at h
  rw [units?]
  · cases units? rest <;> simp [h]
  · simp [hu]

/-- **Each character** of a string is read back from its escape. -/
theorem units?_escapeChar (c : Char) (rest : List Char) :
    units? (escapeChar c ++ rest) =
      (units? rest).map fun (units, rest) => (c.toNat :: units, rest) := by
  unfold escapeChar
  -- One case for each escape that has a name, then the other control characters, then the rest.
  split_ifs with hquote hslash hn hr ht hb hf hcontrol
  · exact units?_named (by simp [namedEscape?, hquote]) rest
  · exact units?_named (by simp [namedEscape?, hslash]) rest
  · exact units?_named (by simp [namedEscape?, hn]) rest
  · exact units?_named (by simp [namedEscape?, hr]) rest
  · exact units?_named (by simp [namedEscape?, ht]) rest
  · exact units?_named (by simp [namedEscape?, hb]) rest
  · exact units?_named (by simp [namedEscape?, hf]) rest
  · have hcode : Text.Hex.nat? (Text.Hex.padded 4 c.toNat) = some c.toNat := by
      rw [Text.Hex.nat?_padded, Nat.mod_eq_of_lt (by omega)]
    simp only [Text.Hex.padded, List.nil_append, List.cons_append] at hcode ⊢
    rw [units?, hcode]
    cases units? rest <;> simp
  · rw [List.singleton_append, units?]
    · cases units? rest <;> simp
    all_goals simp_all

/-- The escaped characters of a string are read back to its code points. -/
theorem units?_flatMap (cs rest : List Char) :
    units? (cs.flatMap escapeChar ++ '\x22' :: rest) = some (cs.map Char.toNat, rest) := by
  induction cs with
  | nil => simp [units?]
  | cons c cs ih => simp [units?_escapeChar, ih]

/-- The code point of a character is one. -/
theorem isValidChar_toNat (c : Char) : c.toNat.isValidChar := c.valid

/-- The code units of characters are joined to the same characters, for none of them is half of a
pair. -/
theorem ofUnits_map_toNat : ∀ cs : List Char, ofUnits (cs.map Char.toNat) = cs
  | [] => rfl
  | [c] => by simp [ofUnits, isValidChar_toNat]
  | c :: d :: rest => by
    have hvalid := isValidChar_toNat c
    have hhigh : ¬(0xD800 ≤ c.toNat ∧ c.toNat < 0xDC00 ∧ 0xDC00 ≤ d.toNat ∧ d.toNat < 0xE000) := by
      simp only [Nat.isValidChar] at hvalid
      omega
    have ih := ofUnits_map_toNat (d :: rest)
    rw [List.map_cons] at ih
    rw [List.map_cons, List.map_cons, ofUnits, if_neg hhigh, ih, if_pos hvalid, Char.ofNat_toNat]

/-- An escaped string is read back, and the reading stops behind its quote. -/
theorem string?_flatMap (s : String) (rest : List Char) :
    string? (s.toList.flatMap escapeChar ++ '\x22' :: rest) = some (s, rest) := by
  simp [string?, units?_flatMap, ofUnits_map_toNat]

/-! ## Numbers -/

/-- Whether no character of a numeral comes first. -/
def EndsNumber (cs : List Char) : Prop := ∀ c ∈ cs.head?, isNumberChar c = false

/-- A number ends where the text does. -/
theorem endsNumber_nil : EndsNumber [] := by simp [EndsNumber]

/-- A number ends before a character that is none of its own. -/
theorem endsNumber_cons {c : Char} {cs : List Char} (h : isNumberChar c = false) :
    EndsNumber (c :: cs) := by simp [EndsNumber, h]

/-- A natural number is written with decimal digits. -/
theorem isDigit_of_mem_toDigits {n : Nat} {c : Char} (h : c ∈ Nat.toDigits 10 n) :
    Numeral.Scientific.isDigit c := by
  simp [Numeral.Scientific.isDigit,
    Numeral.asciiDigit?_of_isDigit (Numeral.isDigit_of_mem_toDigits h)]

/-- An integer is written with characters of numbers. -/
theorem isNumberChar_of_mem_intChars {n : Int} {c : Char} (h : c ∈ intChars n) :
    isNumberChar c := by
  unfold intChars at h
  split at h
  · rcases List.mem_cons.mp h with rfl | h
    · decide
    · simp [isNumberChar, isDigit_of_mem_toDigits h]
  · simp [isNumberChar, isDigit_of_mem_toDigits h]

/-- **An integer** is read back if it is not too long and no character of a numeral follows it. -/
theorem number?_intChars {n : Int} {rest : List Char} (h : Numeral.Readable n.natAbs)
    (hrest : EndsNumber rest) : number? (intChars n ++ rest) = some (.int n, rest) := by
  obtain ⟨htake, hdrop⟩ := Text.span_append (fun c => isNumberChar_of_mem_intChars (n := n)) hrest
  have hvalue := Numeral.natOfDigits_toDigits n.natAbs fun _ => Numeral.asciiDigit?_of_isDigit
  have hall : (Nat.toDigits 10 n.natAbs).all Numeral.Scientific.isDigit :=
    List.all_eq_true.mpr fun c => isDigit_of_mem_toDigits
  have hlength : (Nat.toDigits 10 n.natAbs).length ≤ Numeral.digitLimit := h
  rw [number?, htake, hdrop]
  simp only
  -- The sign is looked at first, and a negative number has its digits behind it.
  by_cases hneg : n < 0
  · have hchars : intChars n = '-' :: Nat.toDigits 10 n.natAbs := if_pos hneg
    simp only [hchars, Numeral.toDigits_ne_nil, if_false, hall, if_true, hlength, hvalue,
      Numeral.signed_true, pure]
    rw [Int.ofNat_natAbs_of_nonpos (Int.le_of_lt hneg), Int.neg_neg]
  · have hchars : intChars n = Nat.toDigits 10 n.natAbs := if_neg hneg
    obtain ⟨d, ds, hcons, hd⟩ := Numeral.exists_toDigits_cons n.natAbs
    rw [hchars, hcons]
    split
    · rename_i heq
      obtain ⟨rfl, -⟩ := List.cons.inj heq
      simp at hd
    · rw [← hcons]
      simp only [Numeral.toDigits_ne_nil, if_false, hall, if_true, hlength, hvalue,
        Numeral.signed_false, pure]
      rw [Int.natAbs_of_nonneg (Int.not_lt.mp hneg)]

/-! ## Documents -/

/-- A document that can be read from its text. -/
inductive Readable : Json → Prop
  | null : Readable .null
  | bool (b : Bool) : Readable (.bool b)
  | int {n : Int} (h : Numeral.Readable n.natAbs) : Readable (.int n)
  | string (s : String) : Readable (.string s)
  | array {items : List Json} (h : ∀ j ∈ items, Readable j) : Readable (.array items)
  | object {members : List Member} (names : (members.map Member.key).Nodup)
      (h : ∀ m ∈ members, Readable m.value) : Readable (.object members)

/-- Whether a document is read back from its text, whatever follows it. -/
def ReadsBack (j : Json) : Prop :=
  ∀ fuel rest, j.chars.length ≤ fuel → EndsNumber rest →
    value? fuel (j.chars ++ rest) = some (j, rest)

/-- There is nothing to skip before a character that is no blank. -/
theorem skipSpace_cons {c : Char} (h : isSpace c = false) (cs : List Char) :
    skipSpace (c :: cs) = c :: cs := by simp [skipSpace, h]

/-- A digit is no blank. -/
theorem not_isSpace_of_isDigit {c : Char} (h : c.isDigit) : isSpace c = false := by
  by_contra hspace
  simp only [isSpace, Bool.or_eq_true, decide_eq_true_eq, Bool.not_eq_false] at hspace
  rcases hspace with ((rfl | rfl) | rfl) | rfl <;> simp at h

/-- The first character of a text is no blank and closes no array. -/
theorem Readable.exists_chars_cons {j : Json} (h : Readable j) :
    ∃ c cs, j.chars = c :: cs ∧ isSpace c = false ∧ c ≠ ']' := by
  cases h with
  | null => exact ⟨_, _, rfl, rfl, by decide⟩
  | bool b => cases b <;> exact ⟨_, _, rfl, rfl, by decide⟩
  | @int n h =>
    by_cases hneg : n < 0
    · exact ⟨_, _, if_pos hneg, rfl, by decide⟩
    · obtain ⟨d, ds, hcons, hd⟩ := Numeral.exists_toDigits_cons n.natAbs
      refine ⟨d, ds, (if_neg hneg).trans hcons, not_isSpace_of_isDigit hd, ?_⟩
      rintro rfl
      simp at hd
  | string s => exact ⟨_, _, rfl, rfl, by decide⟩
  | @array items h => cases items <;> exact ⟨_, _, rfl, rfl, by decide⟩
  | @object members names h => cases members <;> exact ⟨_, _, rfl, rfl, by decide⟩

/-- A text that opens like an integer is read as a number: no other value opens so. -/
theorem value?_intChars {n : Int} {fuel : Nat} (rest : List Char) :
    value? (fuel + 1) (intChars n ++ rest) = number? (intChars n ++ rest) := by
  obtain ⟨d, ds, hcons, hd⟩ := Numeral.exists_toDigits_cons n.natAbs
  by_cases hneg : n < 0
  · have hchars : intChars n = '-' :: d :: ds := (if_pos hneg).trans (congrArg _ hcons)
    rw [hchars, List.cons_append, value?, skipSpace_cons rfl]
    split <;> simp_all
    rename_i heq
    rw [heq.1]
  · have hchars : intChars n = d :: ds := (if_neg hneg).trans hcons
    rw [hchars, List.cons_append, value?, skipSpace_cons (not_isSpace_of_isDigit hd)]
    split <;> simp_all

/-- The items of an array and its closing bracket. -/
theorem items?_chars {item : Json} {items : List Json} (h : ∀ j ∈ item :: items, ReadsBack j)
    {fuel : Nat} (rest : List Char)
    (hfuel : (item.chars ++ itemsChars items).length ≤ fuel) :
    items? fuel (item.chars ++ itemsChars items ++ rest) = some (item :: items, rest) := by
  induction items generalizing item fuel with
  | nil =>
    rw [itemsChars, List.length_append, List.length_singleton] at hfuel
    obtain ⟨fuel, rfl⟩ : ∃ n, fuel = n + 1 := ⟨fuel - 1, by omega⟩
    -- What stands behind an item ends a number, so the item is not read on into it.
    have hitem := h item List.mem_cons_self fuel (']' :: rest) (by omega)
      (endsNumber_cons (by decide))
    rw [itemsChars, List.append_assoc, List.singleton_append, items?, hitem]
    rfl
  | cons next items ih =>
    rw [itemsChars, List.length_append, List.length_cons] at hfuel
    obtain ⟨fuel, rfl⟩ : ∃ n, fuel = n + 1 := ⟨fuel - 1, by omega⟩
    have hitem := h item List.mem_cons_self fuel
      (',' :: (next.chars ++ itemsChars items ++ rest)) (by omega) (endsNumber_cons (by decide))
    have hitems : items? fuel (next.chars ++ itemsChars items ++ rest) =
        some (next :: items, rest) :=
      ih (fun j hj => h j (List.mem_cons_of_mem _ hj)) (by omega)
    rw [itemsChars, List.append_assoc, List.cons_append, items?, hitem]
    simp only [Option.bind_eq_bind, Option.bind_some, skipSpace_cons (c := ',') rfl, hitems]
    rfl

/-- The key of a member is read back, and then its value is read. -/
theorem members?_memberChars (key : String) (value : Json) (fuel : Nat) (rest : List Char) :
    members? (fuel + 1) (memberChars ⟨key, value⟩ ++ rest) =
      (do
        let (value, rest) ← value? fuel (value.chars ++ rest)
        match skipSpace rest with
        | ',' :: rest =>
          let (members, rest) ← members? fuel rest
          pure (⟨key, value⟩ :: members, rest)
        | '\x7d' :: rest => pure ([⟨key, value⟩], rest)
        | _ => none) := by
  have hkey := string?_flatMap key (':' :: (value.chars ++ rest))
  simp only [memberChars, stringChars, List.cons_append, List.append_assoc, List.nil_append]
  rw [members?, skipSpace_cons rfl]
  simp only [hkey]
  rfl

/-- A member's text is longer than its value's, which is what the fuel of the reading is spent on. -/
theorem length_memberChars (key : String) (value : Json) :
    value.chars.length < (memberChars ⟨key, value⟩).length := by
  simp [memberChars]
  omega

/-- The members of an object and its closing brace. -/
theorem members?_chars {m : Member} {members : List Member}
    (h : ∀ n ∈ m :: members, ReadsBack n.value) {fuel : Nat} (rest : List Char)
    (hfuel : (memberChars m ++ membersChars members).length ≤ fuel) :
    members? fuel (memberChars m ++ membersChars members ++ rest) = some (m :: members, rest) := by
  induction members generalizing m fuel with
  | nil =>
    obtain ⟨key, value⟩ := m
    -- The name takes characters of its own, which leaves the value more fuel than it needs.
    have hlength := length_memberChars key value
    rw [membersChars, List.length_append, List.length_singleton] at hfuel
    obtain ⟨fuel, rfl⟩ : ∃ n, fuel = n + 1 := ⟨fuel - 1, by omega⟩
    have hvalue := h ⟨key, value⟩ List.mem_cons_self fuel ('\x7d' :: rest) (by simp only; omega)
      (endsNumber_cons (by decide))
    simp only at hvalue
    rw [membersChars, List.append_assoc, List.singleton_append, members?_memberChars, hvalue]
    rfl
  | cons next members ih =>
    obtain ⟨key, value⟩ := m
    have hlength := length_memberChars key value
    rw [membersChars, List.length_append, List.length_cons] at hfuel
    obtain ⟨fuel, rfl⟩ : ∃ n, fuel = n + 1 := ⟨fuel - 1, by omega⟩
    have hvalue := h ⟨key, value⟩ List.mem_cons_self fuel
      (',' :: (memberChars next ++ membersChars members ++ rest)) (by simp only; omega)
      (endsNumber_cons (by decide))
    have hmembers : members? fuel (memberChars next ++ membersChars members ++ rest) =
        some (next :: members, rest) :=
      ih (fun n hn => h n (List.mem_cons_of_mem _ hn)) (by omega)
    simp only at hvalue
    rw [membersChars, List.append_assoc, List.cons_append, members?_memberChars, hvalue]
    simp only [Option.bind_eq_bind, Option.bind_some, skipSpace_cons (c := ',') rfl, hmembers]
    rfl

/-- The steps that a document takes are bounded by the characters of its text. -/
theorem exists_fuel {j : Json} (h : Readable j) {fuel : Nat} (hfuel : j.chars.length ≤ fuel) :
    ∃ n, fuel = n + 1 := by
  obtain ⟨c, cs, hcons, -⟩ := h.exists_chars_cons
  rw [hcons, List.length_cons] at hfuel
  exact ⟨fuel - 1, by omega⟩

/-- An array is read back when its items are. -/
theorem readsBack_array {items : List Json} (h : ∀ j ∈ items, Readable j)
    (ih : ∀ j ∈ items, ReadsBack j) : ReadsBack (.array items) := by
  intro fuel rest hfuel hrest
  obtain ⟨fuel, rfl⟩ := exists_fuel (.array h) hfuel
  cases items with
  | nil => rfl
  | cons item items =>
    -- No item opens with the closing bracket, so the array is not taken for an empty one.
    obtain ⟨c, cs, hcons, hspace, hbracket⟩ := (h item List.mem_cons_self).exists_chars_cons
    rw [chars, List.length_cons] at hfuel
    have hitems := items?_chars ih rest (Nat.le_of_succ_le_succ hfuel)
    rw [hcons, List.cons_append, List.cons_append] at hitems
    rw [chars, hcons, List.cons_append, List.cons_append, List.cons_append, value?,
      skipSpace_cons rfl]
    simp only [skipSpace_cons hspace]
    split
    · rename_i heq
      exact absurd (List.cons.inj heq).1 hbracket
    · simp only [hitems]
      rfl

/-- An object is read back when its members' values are. -/
theorem readsBack_object {members : List Member} (names : (members.map Member.key).Nodup)
    (h : ∀ m ∈ members, Readable m.value) (ih : ∀ m ∈ members, ReadsBack m.value) :
    ReadsBack (.object members) := by
  intro fuel rest hfuel hrest
  obtain ⟨fuel, rfl⟩ := exists_fuel (.object names h) hfuel
  cases members with
  | nil => rfl
  | cons m members =>
    rw [chars, List.length_cons] at hfuel
    have hmembers := members?_chars ih rest (Nat.le_of_succ_le_succ hfuel)
    obtain ⟨key, value⟩ := m
    rw [memberChars, stringChars, List.cons_append, List.cons_append, List.cons_append] at hmembers
    rw [chars, memberChars, stringChars, List.cons_append, List.cons_append, List.cons_append,
      List.cons_append, value?, skipSpace_cons rfl]
    simp only [skipSpace_cons (c := '\x22') rfl]
    split
    · rename_i heq
      -- A name opens with a quote and not with the closing brace.
      exact absurd (List.cons.inj heq).1 (by decide)
    · simp only [hmembers, Option.bind_eq_bind, Option.bind_some, Member.ofPairs_of_nodup names]
      rfl

/-- **A document is read back**, whatever follows it. -/
theorem Readable.readsBack {j : Json} (h : Readable j) : ReadsBack j := by
  -- Arrays and objects are read back when what is in them is; the others are read at once.
  induction h with
  | null =>
    rintro (_ | fuel) rest hfuel -
    · simp [chars] at hfuel
    · rfl
  | bool b =>
    rintro (_ | fuel) rest hfuel -
    · cases b <;> simp [chars] at hfuel
    · cases b <;> rfl
  | int h =>
    intro fuel rest hfuel hrest
    obtain ⟨fuel, rfl⟩ := exists_fuel (.int h) hfuel
    rw [chars, value?_intChars, number?_intChars h hrest]
  | string s =>
    intro fuel rest hfuel hrest
    obtain ⟨fuel, rfl⟩ := exists_fuel (.string s) hfuel
    simp only [chars, stringChars, List.cons_append, List.append_assoc, List.nil_append]
    rw [value?, skipSpace_cons rfl]
    simp only [string?_flatMap]
    rfl
  | array h ih => exact readsBack_array h ih
  | object names h ih => exact readsBack_object names h ih

/-- **A text that holds one document** is read back. -/
theorem parse?_render {j : Json} (h : Readable j) : parse? j.render = some j := by
  have hvalue := h.readsBack (2 * j.chars.length + 2) [] (by omega) endsNumber_nil
  rw [List.append_nil] at hvalue
  rw [parse?, render, String.toList_ofList, hvalue]
  rfl

end Json

end PartitionPruning
