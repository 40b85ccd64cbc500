/-!
# Assignments

Names with values, in the order in which the names were assigned first. `Assignment.put` assigns a
name: in place when it has a value already, at the end otherwise.
-/

namespace PartitionPruning.Assignment

/-- The assignments with a name set to a value. -/
def put (name : String) (value : α) : List (String × α) → List (String × α)
  | [] => [(name, value)]
  | (n, v) :: rest => if n = name then (n, value) :: rest else (n, v) :: put name value rest

/-- The outcome of assigning one name after the other. -/
def ofPairs (pairs : List (String × α)) : List (String × α) :=
  pairs.foldl (fun assigned (name, value) => put name value assigned) []

/-- What was assigned last is found under its name. -/
theorem lookup_put_self (name : String) (value : α) (assigned : List (String × α)) :
    (put name value assigned).lookup name = some value := by
  induction assigned with
  | nil => simp [put]
  | cons p rest ih =>
    obtain ⟨n, v⟩ := p
    by_cases h : n = name
    · simp [put, h]
    · have hb : (name == n) = false := by simpa using Ne.symm h
      simp [put, h, List.lookup_cons, hb, ih]

/-- An assignment changes nothing under other names. -/
theorem lookup_put_of_ne {name other : String} (h : other ≠ name) (value : α)
    (assigned : List (String × α)) :
    (put name value assigned).lookup other = assigned.lookup other := by
  induction assigned with
  | nil =>
    have hb : (other == name) = false := by simpa using h
    simp [put, List.lookup_cons, hb]
  | cons p rest ih =>
    obtain ⟨n, v⟩ := p
    by_cases hn : n = name
    · have hb : (other == name) = false := by simpa using h
      simp [put, hn, List.lookup_cons, hb]
    · simp [put, hn, List.lookup_cons, ih]

/-- A new name comes last. -/
theorem put_of_notMem {name : String} {value : α} {assigned : List (String × α)}
    (h : name ∉ assigned.map Prod.fst) : put name value assigned = assigned ++ [(name, value)] := by
  induction assigned with
  | nil => rfl
  | cons p rest ih =>
    obtain ⟨n, v⟩ := p
    rw [List.map_cons, List.mem_cons, not_or] at h
    rw [put, if_neg (Ne.symm h.1), ih h.2, List.cons_append]

/-- Names that are assigned once each keep their order. -/
theorem ofPairs_of_nodup {pairs : List (String × α)} (h : (pairs.map Prod.fst).Nodup) :
    ofPairs pairs = pairs := by
  -- what has been assigned so far goes before the rest
  suffices ∀ assigned : List (String × α), ((assigned ++ pairs).map Prod.fst).Nodup →
      pairs.foldl (fun assigned (name, value) => put name value assigned) assigned =
        assigned ++ pairs from this [] h
  clear h
  induction pairs with
  | nil => simp
  | cons p rest ih =>
    intro assigned h
    obtain ⟨n, v⟩ := p
    have hnew : n ∉ assigned.map Prod.fst := by
      intro hmem
      rw [List.map_append, List.nodup_append] at h
      exact h.2.2 n hmem n (by simp) rfl
    rw [List.foldl_cons]
    dsimp only
    rw [put_of_notMem hnew, ih _ (by simpa using h), List.append_assoc, List.singleton_append]

end PartitionPruning.Assignment
