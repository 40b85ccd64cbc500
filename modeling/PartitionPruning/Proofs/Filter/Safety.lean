import PartitionPruning.Literal.Class
import PartitionPruning.Proofs.Filter.Definedness
import PartitionPruning.Proofs.Filter.NormalForm
import PartitionPruning.Proofs.Schema.Rows

/-!
# Bound filters and rows

Binding is the only check of types. A filter that was bound to a schema has a truth value on the rows
of the schema, with one exception: a test of the beginning is bound to a column of any type, but only
texts and bytes have beginnings.

* **`scale?_of_convert`** — literals of a decimal column have the scale of the column.
* **`isUnordered_of_isOrdered`** — converted literals can be compared.
* **`succeeds_evaluate_iff`** — when a bound predicate has an outcome on a row.
* **`succeeds_evaluateIn_iff`** — when a filter has a truth value on a row.
-/

namespace PartitionPruning

open Outcome

/-! ## Literals -/

namespace Literal

/-- The literals that there are: those of values, those of a class, marks, and converted ones. -/
inductive Made : Literal → Prop
  | value {v : Value} {l : Literal} (h : Literal.ofValue v = .ok l) : Made l
  | ofClass {c : LiteralClass} {v : Value} {l : Literal} (h : c.ofValue v = .ok l) : Made l
  | aboveMax (t : Bounded) : Made (.aboveMax t)
  | belowMin (t : Bounded) : Made (.belowMin t)
  | converted {l l' : Literal} {t : DataType} (hl : Made l) (h : l.convert t = .ok l') : Made l'

/-- Whether a literal is no double that is not a number. -/
def isOrdered : Literal → Bool
  | .float x | .double x => !x.isNaN
  | _ => true

/-- A float is made of a number only. -/
theorem isOrdered_ofDouble {make : Binary64 → Literal} {x : Binary64} {l : Literal}
    (hmake : make = .float ∨ make = .double) (h : ofDouble make x = .ok l) :
    l.isOrdered = true := by
  obtain ⟨hnan, rfl⟩ := ofDouble_eq_ok.mp h
  rcases hmake with rfl | rfl <;> simp [isOrdered, hnan]

/-- The literal of a number is ordered. -/
theorem isOrdered_ofNumber {v : Value} {l : Literal} (h : ofNumber v = .ok l) :
    l.isOrdered = true := by
  unfold ofNumber at h
  split at h
  · simp at h
  · split at h
    · simp at h
    · exact isOrdered_ofDouble (Or.inl rfl) h

/-- Marks and numbers are ordered. -/
theorem isOrdered_clamp (t : Bounded) (low high : Int) (n : Whole) :
    (clamp t low high n).isOrdered = true := by
  rcases clamp_cases t low high n with ⟨h, _⟩ | h | h
  · rw [h]
    rfl
  · rw [h]
    rfl
  · rw [h]
    rfl

/-- Literals are converted to primitive types only. -/
theorem primitive_of_convert {l l' : Literal} {t : DataType} (h : l.convert t = .ok l') :
    ∃ p, t = .primitive p := by
  cases t with
  | primitive p => exact ⟨p, rfl⟩
  | struct | other => cases l <;> simp [convert, convertLong, convertText] at h

/-- Conversion keeps literals ordered. -/
theorem isOrdered_of_convert {l l' : Literal} {p : Primitive} (hl : l.isOrdered = true)
    (h : l.convert (.primitive p) = .ok l') : l'.isOrdered = true := by
  have hconverted := isConverted_of_convert h
  cases p with
  | float =>
    -- the numbers that become singles are checked when they are rounded
    cases l with
    | long n =>
      obtain ⟨x, _, h⟩ := bind_eq_ok.mp h
      exact isOrdered_ofNumber h
    | float x =>
      obtain rfl := Except.ok.inj h
      exact hl
    | double x =>
      simp only [convert, toFloat] at h
      split at h
      · obtain rfl := Except.ok.inj h
        rfl
      · obtain rfl := Except.ok.inj h
        rfl
      · exact isOrdered_ofNumber h
    | string s => simp [convert, convertText] at h
    | _ => simp [convert] at h
  | double =>
    cases l with
    | long n =>
      obtain ⟨x, _, h⟩ := bind_eq_ok.mp h
      exact isOrdered_ofDouble (Or.inr rfl) h
    | float x => exact isOrdered_ofDouble (Or.inr rfl) h
    | double x =>
      obtain rfl := Except.ok.inj h
      exact hl
    | string s => simp [convert, convertText] at h
    | _ => simp [convert] at h
  | int | long =>
    obtain ⟨n, rfl⟩ := hconverted
    exact isOrdered_clamp _ _ _ n
  | decimal precision scale =>
    obtain ⟨d, rfl, _⟩ := hconverted
    rfl
  | fixed length =>
    obtain ⟨bs, rfl, _⟩ := hconverted
    rfl
  | boolean | date | time | timestamp | timestamptz | string | uuid | binary =>
    obtain ⟨_, rfl⟩ := hconverted
    rfl

/-- A literal that could be made is ordered, whatever its class. -/
theorem isOrdered_ofClass {c : LiteralClass} {v : Value} {l : Literal} (h : c.ofValue v = .ok l) :
    l.isOrdered = true := by
  cases c with
  | long | date | time | timestamp =>
    obtain ⟨n, _, rfl⟩ := LiteralClass.ofInteger_eq_ok h
    rfl
  | float => exact isOrdered_ofNumber h
  | double =>
    cases v with
    | float x => exact isOrdered_ofDouble (Or.inr rfl) h
    | _ => simp [LiteralClass.ofValue] at h
  | boolean | decimal | string | uuid | fixed | binary =>
    cases v <;> simp only [LiteralClass.ofValue, reduceCtorEq, Except.ok.injEq] at h
    obtain rfl := h
    rfl

/-- **Literals are no doubles that are not numbers**, however they are made. -/
theorem isOrdered_of_made {l : Literal} (h : l.Made) : l.isOrdered = true := by
  induction h with
  | @value v l h =>
    cases v with
    | float x => exact isOrdered_ofDouble (Or.inr rfl) h
    | null | list | record | type => simp [ofValue] at h
    | _ => obtain rfl := Except.ok.inj h; rfl
  | @ofClass c v l h => exact isOrdered_ofClass h
  | aboveMax t => rfl
  | belowMin t => rfl
  | converted _ h ih =>
    obtain ⟨p, rfl⟩ := primitive_of_convert h
    exact isOrdered_of_convert ih h

/-- A decimal that has a scale is a number. -/
theorem isUnordered_of_scale? {d : Decimal} {scale : Nat} (h : d.scale? = some scale) :
    (Literal.decimal d).value.isUnordered = false := by
  cases d with
  | finite negative c e => rfl
  | _ => simp [Decimal.scale?] at h

/-- **Literals of a decimal column** have the scale of the column. -/
theorem scale?_of_convert {l l' : Literal} {precision scale : Nat} (hl : l.isOrdered = true)
    (h : l.convert (.primitive (.decimal precision scale)) = .ok l') :
    ∃ d, l' = .decimal d ∧ d.scale? = some scale := by
  -- Each class of literals has its own way to the scale, and keeps to it.
  cases l with
  | long n =>
    obtain rfl := Except.ok.inj h
    exact ⟨_, rfl, by simp [Decimal.scale?]⟩
  | float x | double x =>
    obtain ⟨d, rfl, hscale | ⟨hnan, _⟩⟩ := decimalOfDouble_eq_ok h
    · exact ⟨d, rfl, hscale⟩
    · simp [isOrdered, hnan] at hl
  | decimal d =>
    obtain ⟨hscale, rfl⟩ := decimalOfScale_eq_ok.mp h
    exact ⟨d, rfl, hscale⟩
  | string s =>
    simp only [convert, convertText] at h
    split at h
    · obtain ⟨hscale, rfl⟩ := decimalOfScale_eq_ok.mp h
      exact ⟨_, rfl, hscale⟩
    · simp at h
  | _ => simp [convert] at h

/-- **Converted literals can be compared**: a decimal among them is a number. Only a double could
become another one. -/
theorem isUnordered_of_isOrdered {l l' : Literal} {p : Primitive} (hl : l.isOrdered = true)
    (h : l.convert (.primitive p) = .ok l') : l'.value.isUnordered = false := by
  cases p with
  | decimal precision scale =>
    obtain ⟨d, rfl, hscale⟩ := scale?_of_convert hl h
    exact isUnordered_of_scale? hscale
  | _ =>
    have hkind := kind_of_convert h
    cases hvalue : l'.value with
    | decimal d => simp [hvalue, Primitive.hasKind, Value.whole?] at hkind
    | _ => rfl

end Literal

/-! ## Predicates -/

/-- Whether the values of a column have beginnings. -/
def Column.hasBeginnings (c : Column) : Bool :=
  match c.field.type with
  | .primitive p => p.hasBeginnings
  | _ => false

namespace Predicate

/-- Whether a bound predicate that tests the beginning finds a null in the row, or is on a column whose
values have one. -/
def MayTest (row : Value) : Predicate Column → Prop
  | .compare op c _ =>
    op.isBeginning = true → c.accessor.get row = .ok .null ∨ c.hasBeginnings = true
  | _ => True

variable {schema : Schema} {caseSensitive : Bool} {row v : Value}
variable {p : Predicate String} {q : Predicate Column} {c : Column}

/-- Tests for numbers are bound to floating-point columns only. -/
theorem isFloating_of_bindTo {op : UnaryTest} (h : p.bindTo c = .ok (.leaf (.unary op c))) :
    op = .isNull ∨ op = .notNull ∨ c.isFloating = true := by
  cases p with
  | unary op' name =>
    have hunary : bindUnary op' c = .leaf (.unary op c) := Except.ok.inj h
    cases op' <;> simp only [bindUnary] at hunary <;> split at hunary <;>
      simp_all
  | compare op' name l =>
    obtain ⟨l', _, hcompare⟩ := map_eq_ok.mp h
    unfold bindCompare at hcompare
    split at hcompare <;> simp at hcompare
  | member op' name ls =>
    obtain ⟨ls', _, hmember⟩ := bind_eq_ok.mp h
    obtain ⟨set, _, hset⟩ := map_eq_ok.mp hmember
    unfold ofSetAgain ofSet at hset
    split at hset <;> simp at hset

/-- A bound test of one value has an outcome on all the column may hold: tests for no number are bound
to columns of floats only. -/
theorem succeeds_testUnary_of_bindTo {op : UnaryTest}
    (h : p.bindTo c = .ok (.leaf (.unary op c)))
    (hv : ∀ prim, c.field.type = .primitive prim → prim.mayHold v) : Succeeds (testUnary op v) := by
  rcases isFloating_of_bindTo h with rfl | rfl | hfloating
  · exact ⟨_, rfl⟩
  · exact ⟨_, rfl⟩
  · unfold Column.isFloating at hfloating
    split at hfloating
    · rename_i htype
      exact succeeds_testUnary (hv _ htype)
    · rename_i htype
      exact succeeds_testUnary (hv _ htype)
    · simp at hfloating

/-- **Bound predicates** have an outcome on the rows of the schema, but for tests of the beginning of
what has none. -/
theorem succeeds_evaluate_iff (hrow : schema.admits row = true)
    (hlits : ∀ l ∈ p.literals, l.Made) (h : p.bind schema caseSensitive = .ok (.leaf q)) :
    Succeeds (q.evaluate row) ↔ q.MayTest row := by
  obtain ⟨c, hc, hbind⟩ := bind_eq_ok.mp h
  obtain ⟨v, hv, hadmits⟩ := Schema.get_of_column hc hrow
  obtain ⟨b, hb⟩ | ⟨q', hq', hterm, hconverted⟩ := bindTo_inv hbind
  · simp at hb
  obtain rfl := Expr.leaf.inj hq'
  have hevaluate : q.evaluate row = q.test v := by rw [evaluate, hterm, hv]; rfl
  rw [hevaluate]
  cases q with
  | unary op c' =>
    obtain rfl : c' = c := hterm
    exact iff_of_true (succeeds_testUnary_of_bindTo hbind hadmits) trivial
  | compare op c' l' =>
    obtain rfl : c' = c := hterm
    obtain ⟨l, hl, hll'⟩ := hconverted l' (by simp [literals])
    obtain ⟨prim, hprim⟩ := Literal.primitive_of_convert hll'
    have hordered := Literal.isOrdered_of_made (hlits l hl)
    rw [hprim] at hll'
    have htest : Succeeds (testCompare op v l'.value) ↔
        (op.isBeginning = true → v.isNull = true ∨ prim.hasBeginnings = true) :=
      succeeds_testCompare (hadmits prim hprim) (Literal.kind_of_convert hll')
        (Literal.isUnordered_of_isOrdered hordered hll')
    have hnull : c'.accessor.get row = .ok .null ↔ v.isNull = true := by
      rw [hv, Except.ok.injEq]
      exact ⟨fun h => h ▸ rfl, Value.eq_null_of_isNull⟩
    rw [MayTest, Column.hasBeginnings, hprim, hnull]
    exact htest
  | member op c' ls =>
    obtain rfl : c' = c := hterm
    -- a set has a literal, which was converted to a primitive type
    have hproper : 2 ≤ ls.length := by
      have := isProper_of_bindTo hbind
      simp only [isProper, Bool.and_eq_true, decide_eq_true_eq] at this
      exact this.1
    obtain ⟨l', hl'⟩ := List.exists_mem_of_length_pos (by omega : 0 < ls.length)
    obtain ⟨l, _, hll'⟩ := hconverted l' hl'
    obtain ⟨prim, hprim⟩ := Literal.primitive_of_convert hll'
    exact iff_of_true (succeeds_testMember (hadmits prim hprim)) trivial

end Predicate

/-! ## Filters -/

namespace Filter

/-- **Safety of filters.** A filter that was bound to a schema has a truth value on a row of the schema
exactly if its tests of the beginning are on texts and bytes, or on nulls. -/
theorem succeeds_evaluateIn_iff {schema : Schema} {caseSensitive : Bool} {f B : Filter} {row : Value}
    (hlits : ∀ p, Leaf.unbound p ∈ f.leaves → ∀ l ∈ p.literals, l.Made)
    (hbind : f.bind schema caseSensitive = .ok B) (hrow : schema.admits row = true) :
    (∃ b, f.evaluateIn schema caseSensitive row = .ok b) ↔
      ∀ q, Leaf.bound q ∈ B.leaves → q.MayTest row := by
  have hevaluate : f.evaluateIn schema caseSensitive row = B.evaluate row := by
    rw [evaluateIn, hbind]
    rfl
  rw [hevaluate]
  -- Every bound leaf comes from one of the filter's, so its literals are converted ones.
  refine Expr.succeeds_evaluate.trans ?_
  constructor
  · intro hleaves q hq
    obtain ⟨p, q', hp, heq, hpq⟩ := exists_bind_of_mem_leaves hbind hq
    obtain rfl := Leaf.bound.inj heq
    exact (Predicate.succeeds_evaluate_iff hrow (hlits p hp) hpq).mp (hleaves _ hq)
  · intro htests l hl
    obtain ⟨p, q, hp, rfl, hpq⟩ := exists_bind_of_mem_leaves hbind hl
    exact (Predicate.succeeds_evaluate_iff hrow (hlits p hp) hpq).mpr (htests q hl)

/-- The text of a row is tested for its beginning. -/
theorem succeeds_evaluateIn_iff_text :
    let schema := Schema.ofFields [⟨1, "s", .primitive .string, false, none⟩]
    let beginning : Filter := ofPredicate (.compare .startsWith "s" (.string "ab"))
    let row : Value := .record [.text "abc"]
    ∃ B, beginning.bind schema true = .ok B ∧ schema.admits row = true ∧
      ((∃ b, beginning.evaluateIn schema true row = .ok b) ↔
        ∀ q, Leaf.bound q ∈ B.leaves → q.MayTest row) := by
  intro schema beginning row
  have hlits : ∀ p, Leaf.unbound p ∈ beginning.leaves → ∀ l ∈ p.literals, l.Made := by
    intro p hp l hl
    obtain rfl : p = .compare .startsWith "s" (.string "ab") := by
      simpa [beginning, ofPredicate, Expr.leaves] using hp
    obtain rfl := List.mem_singleton.mp hl
    exact .value (v := .text "ab") rfl
  have hrow : schema.admits row = true := Schema.admits_of_holds rfl
  exact ⟨_, rfl, hrow, succeeds_evaluateIn_iff hlits rfl hrow⟩

/-- **A bound filter without a truth value.** A test of the beginning is bound to a column of integers,
and the integer of a row has none. The other operand does not help: both are evaluated. -/
theorem evaluateIn_of_number_beginning :
    let schema := Schema.ofFields [⟨1, "c", .primitive .int, false, none⟩]
    let beginning : Filter := .or (ofPredicate (.unary .notNull "c"))
      (ofPredicate (.compare .startsWith "c" (.long (.number 5))))
    (∃ B, beginning.bind schema true = .ok B) ∧ schema.holds (.record [.int 5]) = true ∧
      beginning.evaluateIn schema true (.record [.int 5]) = .error .noBeginning :=
  ⟨⟨_, rfl⟩, rfl, rfl⟩

end Filter

end PartitionPruning
