import PartitionPruning.Literal.Basic
import PartitionPruning.Numeral.Residue

/-!
# Sets of literals

A set keeps its literals in a table and lists them in the order of the table, which decides which of
several conversions is the first. The place of a literal follows from its hash; if the place is taken,
some places behind it are tried and then places further on. The table grows before it is full, and
then the literals move in the order in which they are listed.

The hash of a number is its residue. Texts and bytes have no hash here; a set that holds any of them
lists its literals in the order in which they were put into it.

`Literal.toSet` makes a set of literals and `Literal.relisted` makes it once more.
-/

namespace PartitionPruning

/-! ### Hashes -/

def hashCount : Nat := 2 ^ (64 : Nat)

/-- The hash of a residue, which is never minus one. -/
def hashOfResidue (r : Int) : Nat := ((if r = -1 then -2 else r) % hashCount).toNat

def Value.hash? : Value → Option Nat
  | .uuid u => (Decimal.ofInt u.number.toNat).residue?.map hashOfResidue
  | v => (v.number?.bind Decimal.residue?).map hashOfResidue

/-! ### Places in a table -/

/-- A table: in each place the position of a literal and its hash, if it is taken. -/
abbrev SlotTable := Array (Option (Nat × Nat))

namespace SlotTable

/-- An empty table with some places. -/
def empty (size : Nat) : SlotTable := Array.replicate size none

def isFree (t : SlotTable) (place : Nat) : Bool := t.getD place none |>.isNone

/-- How many places behind a place are tried with it. -/
def reach : Nat := 9

/-- The places that are tried together with a place. -/
def nearby (t : SlotTable) (place : Nat) : List Nat :=
  if place + reach < t.size then List.range' place (reach + 1) else [place]

/-- The first free place that is found from a place on. The rest of the hash moves each further
attempt; when it is used up, all places are reached in turn. -/
def freePlace (t : SlotTable) : (attempts place rest : Nat) → Nat
  | 0, place, _ => place
  | attempts + 1, place, rest => match (t.nearby place).find? t.isFree with
    | some found => found
    | none => freePlace t attempts ((place * 5 + 1 + rest / 32) % t.size) (rest / 32)

/-- The table with one more literal. -/
def put (t : SlotTable) (entry : Nat × Nat) : SlotTable :=
  t.setIfInBounds (t.freePlace (t.size + 16) (entry.2 % t.size) entry.2) (some entry)

/-- The literals in the order of their places. -/
def entries (t : SlotTable) : List (Nat × Nat) := t.toList.reduceOption

/-- The size of a table for more than so many literals. -/
def sizeAbove (count : Nat) : (attempts size : Nat) → Nat
  | 0, size => size
  | attempts + 1, size => if size ≤ count then sizeAbove count attempts (size * 2) else size

/-- The table with room for more, if it has got too full. -/
def grown (t : SlotTable) : SlotTable :=
  let found := t.entries
  let used := found.length
  if used * 5 < (t.size - 1) * 3 then t
  else
    let size := sizeAbove (if 50000 < used then used * 2 else used * 4) 64 8
    found.foldl put (empty size)

def ofHashes (hashes : List Nat) : SlotTable :=
  hashes.zipIdx.foldl (fun t (hash, position) => (t.put (position, hash)).grown) (empty 8)

def places (t : SlotTable) (count : Nat) : Array Nat :=
  t.toList.zipIdx.foldl (fun found (entry, place) => match entry with
    | some (position, _) => found.setIfInBounds position place
    | none => found) (Array.replicate count 0)

end SlotTable

/-! ### Sets -/

namespace Literal

/-- Distinct literals in the order in which a set of them lists them. -/
def relisted (ls : List Literal) : List Literal :=
  match ls.mapM fun l => l.value.hash? with
  | none => ls
  | some hashes =>
    let places := (SlotTable.ofHashes hashes).places ls.length
    let place (i : Nat) : Nat := places.getD i 0
    (ls.zipIdx.mergeSort fun a b => place a.2 ≤ place b.2).map Prod.fst

/-- The set of some literals, of equal ones the first; each must be able to be a member. -/
def toSet (ls : List Literal) : Except Fault (List Literal) :=
  if ls.all (·.value.isHashable) then .ok (relisted (distinct ls)) else .error .notHashable

/-- Listing literals anew changes their order only. -/
theorem relisted_perm (ls : List Literal) : (relisted ls).Perm ls := by
  unfold relisted
  split
  · exact .refl ls
  · refine ((List.mergeSort_perm ls.zipIdx _).map Prod.fst).trans ?_
    rw [List.zipIdx_map_fst]

/-- Listing literals anew loses none and repeats none. -/
theorem length_relisted (ls : List Literal) : (relisted ls).length = ls.length :=
  (relisted_perm ls).length_eq

/-- The literals that are listed anew are the same ones. -/
theorem mem_relisted {l : Literal} {ls : List Literal} : l ∈ relisted ls ↔ l ∈ ls :=
  (relisted_perm ls).mem_iff

end Literal

end PartitionPruning
