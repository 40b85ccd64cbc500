import PartitionPruning.Filter.Grammar
import PartitionPruning.Proofs.Filter.Binding

/-!
# What reading a text gives

A filter that is read from a text is built of constants and of predicates that name their column, with
the connectives. Whatever holds of these and is kept by the connectives holds of it, by induction on
`Built`.

* **`readersBuild`** — the readers of connectives, which call each other, give such filters.
* **`built_of_parseWithin`** — so does reading a text.
* **`isUnbound_of_built`** — the predicates of such a filter are unbound.

How many calls may be open decides only whether there is a filter, not which one it is.

* **`parse_of_parseWithin`** — a filter that is read within a bound is the one that is read without.
-/

namespace PartitionPruning

namespace Filter

open Outcome (bind_eq_ok map_eq_ok)

/-- The filters that are built of constants and unbound predicates with the connectives. -/
inductive Built : Filter → Prop
  | constant (b : Bool) : Built (.constant b)
  | unary (op : UnaryTest) (column : String) : Built (ofPredicate (.unary op column))
  | compare (op : Comparison) (column : String) (literal : Literal) :
      Built (ofPredicate (.compare op column literal))
  | among {op : Membership} {column : String} {literals : List Literal} {f : Filter}
      (h : ofLiterals op column literals = .ok f) : Built f
  | conj {f g : Filter} (hf : Built f) (hg : Built g) : Built (Expr.conj f g)
  | disj {f g : Filter} (hf : Built f) (hg : Built g) : Built (Expr.disj f g)
  | negate {f : Filter} (hf : Built f) : Built (Expr.negate f)

variable {f : Filter}

/-! ## Predicates -/

/-- Whether whatever is read is built. -/
def GivesBuilt (r : Reading) : Prop := ∀ f rest, r = .ok (f, rest) → f.Built

/-- A built filter is one that a reading may give. -/
theorem givesBuilt_ok {rest : List Token} (hf : f.Built) :
    GivesBuilt (.ok (f, rest)) := by
  intro f' rest' h
  obtain ⟨rfl, rfl⟩ := Prod.mk.inj (Except.ok.inj h)
  exact hf

/-- A reading that fails gives nothing that was not built. -/
theorem givesBuilt_error (fault : Fault) : GivesBuilt (.error fault) := by
  intro f rest h
  simp at h

/-- Readings one after the other give built filters when the last one does. -/
theorem givesBuilt_bind {α : Type} {x : Except Fault α} {k : α → Reading}
    (h : ∀ a, x = .ok a → GivesBuilt (k a)) : GivesBuilt (x >>= k) := by
  intro f rest hread
  obtain ⟨a, ha, hread⟩ := bind_eq_ok.mp hread
  exact h a ha f rest hread

/-- A reading that goes on from what another one gave may rely on that filter being built. -/
theorem givesBuilt_next {r : Reading} {k : Filter × List Token → Reading} (hr : GivesBuilt r)
    (hk : ∀ f rest, f.Built → GivesBuilt (k (f, rest))) : GivesBuilt (r >>= k) :=
  givesBuilt_bind fun read hread => hk read.1 read.2 (hr read.1 read.2 hread)

/-- A test of one value is built. -/
theorem givesBuilt_readTest (column : String) (ts : List Token) :
    GivesBuilt (readTest column ts) := by
  unfold readTest
  split
  dsimp only
  split
  · exact givesBuilt_ok (.unary _ column)
  · split
    · exact givesBuilt_ok (.unary _ column)
    · exact givesBuilt_error _

/-- A set predicate is built. -/
theorem givesBuilt_readMembers (negated : Bool) (column : String) (ts : List Token) :
    GivesBuilt (readMembers negated column ts) := by
  refine givesBuilt_bind fun a _ => givesBuilt_bind fun f hf => ?_
  exact givesBuilt_ok (.among hf)

/-- A pattern is built: one of the tests of the beginning, or an equality. -/
theorem givesBuilt_readPattern (negated : Bool) (column : String) (ts : List Token) :
    GivesBuilt (readPattern negated column ts) := by
  unfold readPattern
  split
  · exact givesBuilt_ok (.compare _ column _)
  · exact givesBuilt_error _

/-- Whatever comes behind a name, the predicate is built. -/
theorem givesBuilt_readTail (first : Token) (column : String) (ts : List Token) :
    GivesBuilt (readTail first column ts) := by
  unfold readTail
  split
  · exact givesBuilt_readTest column _
  · split
    split
    · exact givesBuilt_readMembers _ column _
    · split
      · exact givesBuilt_readPattern _ column _
      · split
        · exact givesBuilt_ok (.constant true)
        · exact givesBuilt_ok (.constant false)
        · exact givesBuilt_error _

/-- A predicate that opens with a name is built. -/
theorem givesBuilt_readFromName (first : Token) (ts : List Token) :
    GivesBuilt (readFromName first ts) := by
  unfold readFromName
  split
  · exact givesBuilt_bind fun column _ => givesBuilt_bind fun literal _ =>
      givesBuilt_ok (.compare _ column literal)
  · split
    · exact givesBuilt_readTail first _ _
    · split
      · exact givesBuilt_ok (.constant false)
      · exact givesBuilt_error _

/-- A predicate that opens with a literal is built. -/
theorem givesBuilt_readFromLiteral (first : Token) (ts : List Token) :
    GivesBuilt (readFromLiteral first ts) := by
  unfold readFromLiteral
  split
  · exact givesBuilt_bind fun literal _ => givesBuilt_bind fun column _ =>
      givesBuilt_ok (.compare _ column literal)
  · exact givesBuilt_bind fun _ _ => givesBuilt_error _

/-- Every predicate read is built. -/
theorem givesBuilt_readPredicate (ts : List Token) : GivesBuilt (readPredicate ts) := by
  match ts with
  | [] => exact givesBuilt_error _
  | t :: rest =>
    rw [readPredicate]
    split
    · exact givesBuilt_readFromLiteral t rest
    · exact givesBuilt_readFromName t rest

/-! ## Connectives -/

variable {stack : CallStack}

/-- What the readers of connectives give up to some depth. The readers of further operands go on from
a filter that is built. -/
structure ReadersBuild (stack : CallStack) (fuel : Nat) : Prop where
  disjunction : ∀ room ts, GivesBuilt (readDisjunction stack fuel room ts)
  disjuncts : ∀ room calls left ts, left.Built →
    GivesBuilt (readDisjuncts stack fuel room calls left ts)
  conjunction : ∀ room ts, GivesBuilt (readConjunction stack fuel room ts)
  conjuncts : ∀ room calls left ts, left.Built →
    GivesBuilt (readConjuncts stack fuel room calls left ts)
  negation : ∀ room ts, GivesBuilt (readNegation stack fuel room ts)

/-- Each reader calls the others one level deeper, so the induction is on the depth for all of them
together. -/
theorem readersBuild (stack : CallStack) (fuel : Nat) : ReadersBuild stack fuel := by
  induction fuel with
  -- Without fuel nothing is read.
  | zero =>
    refine ⟨fun room ts => ?_, fun room calls left ts _ => ?_, fun room ts => ?_,
      fun room calls left ts _ => ?_, fun room ts => ?_⟩
    · rw [readDisjunction]
      exact givesBuilt_error _
    · rw [readDisjuncts]
      exact givesBuilt_error _
    · rw [readConjunction]
      exact givesBuilt_error _
    · rw [readConjuncts]
      exact givesBuilt_error _
    · rw [readNegation]
      exact givesBuilt_error _
  -- Each reader calls the others with less fuel, which is why the five are proved together.
  | succ fuel ih =>
    refine ⟨fun room ts => ?disjunction, fun room calls left ts hleft => ?disjuncts,
      fun room ts => ?conjunction, fun room calls left ts hleft => ?conjuncts,
      fun room ts => ?negation⟩
    case disjunction =>
      rw [readDisjunction]
      exact givesBuilt_next (ih.conjunction room ts) fun first rest hfirst =>
        ih.disjuncts room 0 first rest hfirst
    case disjuncts =>
      rw [readDisjuncts]
      split
      · rename_i rest _
        exact givesBuilt_bind fun inner _ =>
          givesBuilt_next (ih.conjunction inner rest) fun right rest' hright =>
            ih.disjuncts _ _ _ rest' (.disj hleft hright)
      · exact givesBuilt_ok hleft
    case conjunction =>
      rw [readConjunction]
      exact givesBuilt_next (ih.negation room ts) fun first rest hfirst =>
        ih.conjuncts room 0 first rest hfirst
    case conjuncts =>
      rw [readConjuncts]
      split
      · rename_i rest _
        exact givesBuilt_bind fun inner _ =>
          givesBuilt_next (ih.negation inner rest) fun right rest' hright =>
            ih.conjuncts _ _ _ rest' (.conj hleft hright)
      · exact givesBuilt_ok hleft
    case negation =>
      unfold readNegation
      split
      · rename_i rest
        refine givesBuilt_bind fun room' _ =>
          givesBuilt_next (ih.disjunction room' rest) fun inner rest' hinner => ?_
        dsimp only
        split
        · exact givesBuilt_ok hinner
        · exact givesBuilt_error _
      · rename_i t rest _
        split
        · exact givesBuilt_bind fun room' _ =>
            givesBuilt_next (ih.negation room' rest) fun inner rest' hinner =>
              givesBuilt_ok (.negate hinner)
        · split
          · exact givesBuilt_error _
          · exact givesBuilt_readPredicate _
      · exact givesBuilt_error _

/-- **Reading** gives filters that are built. -/
theorem built_of_parseWithin {text : String} (h : parseWithin stack text = .ok f) : f.Built := by
  obtain ⟨⟨g, rest⟩, hread, h⟩ := bind_eq_ok.mp h
  have hg : g.Built := (readersBuild stack _).disjunction _ _ g rest hread
  dsimp only at h
  split at h
  · rwa [← Outcome.pure_eq_ok.mp h]
  · simp at h

/-- Every filter that comes of a text is built, with no limit on nesting. -/
theorem built_of_parse {text : String} (h : parse text = .ok f) : f.Built :=
  built_of_parseWithin h

/-! ## Room for calls -/

/-- Calls that take no room can always be entered. -/
theorem enter_zero (room : Nat) : CallStack.enter 0 room = .ok room := rfl

/-- Whether a reading gives whatever another one gives. -/
def GivesMore (r r' : Reading) : Prop := ∀ f rest, r = .ok (f, rest) → r' = .ok (f, rest)

/-- A reading gives what it gives. -/
theorem givesMore_refl (r : Reading) : GivesMore r r := fun _ _ h => h

/-- Readings one after the other give more when each of them does. -/
theorem givesMore_bind {r r' : Reading} {k k' : Filter × List Token → Reading}
    (h : GivesMore r r') (hk : ∀ f rest, GivesMore (k (f, rest)) (k' (f, rest))) :
    GivesMore (r >>= k) (r' >>= k') := by
  intro f rest hread
  obtain ⟨⟨g, rest'⟩, hg, hread⟩ := bind_eq_ok.mp hread
  exact bind_eq_ok.mpr ⟨(g, rest'), h g rest' hg, hk g rest' f rest hread⟩

/-- Calls that need room may be refused, which those that need none are not. -/
theorem givesMore_enter {calls room room' : Nat} {k k' : Nat → Reading}
    (h : ∀ inner inner', GivesMore (k inner) (k' inner')) :
    GivesMore (CallStack.enter calls room >>= k) (CallStack.enter 0 room' >>= k') := by
  intro f rest hread
  obtain ⟨inner, _, hread⟩ := bind_eq_ok.mp hread
  rw [enter_zero]
  exact h inner room' f rest hread

/-- What the readers give within a bound on the calls they also give without it, up to some depth. -/
structure ReadersAgree (stack : CallStack) (fuel : Nat) : Prop where
  disjunction : ∀ room room' ts,
    GivesMore (readDisjunction stack fuel room ts) (readDisjunction .unbounded fuel room' ts)
  disjuncts : ∀ room room' calls left ts,
    GivesMore (readDisjuncts stack fuel room calls left ts)
      (readDisjuncts .unbounded fuel room' 0 left ts)
  conjunction : ∀ room room' ts,
    GivesMore (readConjunction stack fuel room ts) (readConjunction .unbounded fuel room' ts)
  conjuncts : ∀ room room' calls left ts,
    GivesMore (readConjuncts stack fuel room calls left ts)
      (readConjuncts .unbounded fuel room' 0 left ts)
  negation : ∀ room room' ts,
    GivesMore (readNegation stack fuel room ts) (readNegation .unbounded fuel room' ts)

/-- The two runs look at the same tokens, and part only where a call is refused. -/
theorem readersAgree (stack : CallStack) (fuel : Nat) : ReadersAgree stack fuel := by
  induction fuel with
  | zero =>
    refine ⟨fun room room' ts => ?_, fun room room' calls left ts => ?_, fun room room' ts => ?_,
      fun room room' calls left ts => ?_, fun room room' ts => ?_⟩
    · rw [readDisjunction, readDisjunction]
      exact givesMore_refl _
    · rw [readDisjuncts, readDisjuncts]
      exact givesMore_refl _
    · rw [readConjunction, readConjunction]
      exact givesMore_refl _
    · rw [readConjuncts, readConjuncts]
      exact givesMore_refl _
    · rw [readNegation, readNegation]
      exact givesMore_refl _
  -- The room only decides whether a level is entered: what is read there is the same.
  | succ fuel ih =>
    refine ⟨fun room room' ts => ?disjunction, fun room room' calls left ts => ?disjuncts,
      fun room room' ts => ?conjunction, fun room room' calls left ts => ?conjuncts,
      fun room room' ts => ?negation⟩
    case disjunction =>
      rw [readDisjunction, readDisjunction]
      exact givesMore_bind (ih.conjunction room room' ts) fun f rest =>
        ih.disjuncts room room' 0 f rest
    case disjuncts =>
      rw [readDisjuncts, readDisjuncts]
      split
      · exact givesMore_enter fun inner inner' =>
          givesMore_bind (ih.conjunction inner inner' _) fun f rest =>
            ih.disjuncts room room' _ _ rest
      · exact givesMore_refl _
    case conjunction =>
      rw [readConjunction, readConjunction]
      exact givesMore_bind (ih.negation room room' ts) fun f rest =>
        ih.conjuncts room room' 0 f rest
    case conjuncts =>
      rw [readConjuncts, readConjuncts]
      split
      · exact givesMore_enter fun inner inner' =>
          givesMore_bind (ih.negation inner inner' _) fun f rest =>
            ih.conjuncts room room' _ _ rest
      · exact givesMore_refl _
    case negation =>
      unfold readNegation
      split
      · exact givesMore_enter fun inner inner' =>
          givesMore_bind (ih.disjunction inner inner' _) fun f rest => givesMore_refl _
      · split
        · exact givesMore_enter fun inner inner' =>
            givesMore_bind (ih.negation inner inner' _) fun f rest => givesMore_refl _
        · exact givesMore_refl _
      · exact givesMore_refl _

/-- **A bound on the calls** takes filters away, but gives no other ones. -/
theorem parse_of_parseWithin {text : String} (h : parseWithin stack text = .ok f) :
    parse text = .ok f := by
  obtain ⟨⟨g, rest⟩, hread, h⟩ := bind_eq_ok.mp h
  exact bind_eq_ok.mpr
    ⟨(g, rest), (readersAgree stack _).disjunction _ _ _ g rest hread, h⟩

/-! ## Unbound predicates -/

/-- **What is built** has unbound predicates only. -/
theorem isUnbound_of_built (h : f.Built) : ∀ l ∈ f.leaves, l.isUnbound = true := by
  induction h with
  | constant b => simp [Expr.leaves]
  | unary | compare => simp [ofPredicate, Expr.leaves, Leaf.isUnbound]
  | @among op column _ _ h =>
    obtain ⟨e, he, rfl⟩ := map_eq_ok.mp h
    obtain ⟨set, _, rfl⟩ := map_eq_ok.mp he
    rcases Predicate.ofSet_cases op column set with hconstant | ⟨q, hq, _⟩
    · simp [hconstant, Expr.map, Expr.leaves]
    · simp [hq, Expr.map, Expr.leaves, Leaf.isUnbound]
  | conj _ _ hf hg => exact fun l hl => (Expr.mem_leaves_conj hl).elim (hf l) (hg l)
  | disj _ _ hf hg => exact fun l hl => (Expr.mem_leaves_disj hl).elim (hf l) (hg l)
  | negate _ hf => rwa [Expr.leaves_negate]

end Filter

end PartitionPruning
