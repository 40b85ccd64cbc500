import PartitionPruning.Proofs.Outcome
import PartitionPruning.Settings.Basic

/-!
# What paths lead to in settings

Settings are a tree of groups. What stands at a path in it is a value or a group, or nothing, either
because a name on the way is missing or because the way leads through a value. Two groups of settings
that have the same at every path are the same settings, whatever the order of their names.

* **`entryAt_setAt`** — setting a value changes what is at the path, on the way to it and behind it.
* **`succeeds_setAt`** — a value can be set unless there is another one on the way.
* **`entryAt_merge`** — of two groups that are merged the upper one counts wherever it has something.
-/

namespace PartitionPruning

namespace Json

/-- What a path leads to. -/
inductive Entry where
  | missing
  | hidden
  | group
  | value (j : Json)

/-- What a path leads to from a document. -/
def entryAt : List String → Json → Entry
  | [], .object _ => .group
  | [], j => .value j
  | name :: path, .object members => match Member.find? name members with
    | some j => entryAt path j
    | none => .missing
  | _ :: _, _ => .hidden

/-- Whether a document is a group of settings. -/
def isGroup : Json → Bool
  | .object _ => true
  | _ => false

theorem isGroup_iff {j : Json} : j.isGroup = true ↔ ∃ members, j = .object members := by
  cases j <;> simp [isGroup]

theorem entryAt_nil_of_not_isGroup {j : Json} (h : j.isGroup = false) : entryAt [] j = .value j := by
  cases j <;> first | rfl | simp [isGroup] at h

/-- Nothing is behind a value. -/
theorem entryAt_cons_of_not_isGroup {j : Json} (h : j.isGroup = false) (name : String)
    (path : List String) : entryAt (name :: path) j = .hidden := by
  cases j <;> first | rfl | simp [isGroup] at h

theorem entryAt_cons (name : String) (path : List String) (members : List Member) :
    entryAt (name :: path) (.object members) =
      match Member.find? name members with
      | some j => entryAt path j
      | none => .missing := by
  rw [entryAt]

/-! ## Names -/

namespace Member

theorem find?_eq_none {name : String} {members : List Member}
    (h : name ∉ members.map Member.key) : find? name members = none := by
  induction members with
  | nil => rfl
  | cons m rest ih =>
    obtain ⟨key, value⟩ := m
    rw [List.map_cons, List.mem_cons, not_or] at h
    rw [find?, if_neg (Ne.symm h.1), ih h.2]

theorem mem_of_find? {name : String} {members : List Member} {j : Json}
    (h : find? name members = some j) : ⟨name, j⟩ ∈ members := by
  induction members with
  | nil => simp [find?] at h
  | cons m rest ih =>
    obtain ⟨key, value⟩ := m
    rw [find?] at h
    split at h
    · rename_i hkey
      obtain rfl := Option.some.inj h
      exact hkey ▸ List.mem_cons_self
    · exact List.mem_cons_of_mem _ (ih h)

theorem mem_put {name : String} {j : Json} {m : Member} {members : List Member}
    (h : m ∈ put name j members) : m = ⟨name, j⟩ ∨ m ∈ members := by
  induction members with
  | nil => exact Or.inl (List.mem_singleton.mp h)
  | cons n rest ih =>
    obtain ⟨key, value⟩ := n
    rw [put] at h
    split at h
    · rename_i hkey
      rcases List.mem_cons.mp h with rfl | h
      · exact Or.inl (by rw [hkey])
      · exact Or.inr (List.mem_cons_of_mem _ h)
    · rcases List.mem_cons.mp h with rfl | h
      · exact Or.inr List.mem_cons_self
      · exact (ih h).imp_right (List.mem_cons_of_mem _)

theorem nodup_put {name : String} {j : Json} {members : List Member}
    (h : (members.map Member.key).Nodup) : ((put name j members).map Member.key).Nodup := by
  induction members with
  | nil => exact List.nodup_cons.mpr ⟨List.not_mem_nil, List.nodup_nil⟩
  | cons n rest ih =>
    obtain ⟨key, value⟩ := n
    rw [List.map_cons, List.nodup_cons] at h
    rw [put]
    split
    · exact List.nodup_cons.mpr h
    · rename_i hkey
      refine List.nodup_cons.mpr ⟨fun hmem => ?_, ih h.2⟩
      obtain ⟨m, hm, hname⟩ := List.mem_map.mp hmem
      rcases mem_put hm with rfl | hm
      · exact hkey hname.symm
      · exact h.1 (hname ▸ List.mem_map_of_mem hm)

/-- A group in which no name occurs twice, nor in a group inside. -/
inductive Regular : List Member → Prop
  | mk {members : List Member} (names : (members.map Member.key).Nodup)
      (inside : ∀ name inner, ⟨name, .object inner⟩ ∈ members → Regular inner) : Regular members

theorem Regular.names {members : List Member} (h : Regular members) :
    (members.map Member.key).Nodup := by
  cases h with
  | mk names _ => exact names

theorem Regular.inside {members inner : List Member} {name : String} (h : Regular members)
    (hfind : find? name members = some (.object inner)) : Regular inner := by
  cases h with
  | mk _ inside => exact inside name inner (mem_of_find? hfind)

theorem Regular.put {members : List Member} {name : String} {j : Json} (h : Regular members)
    (hj : ∀ inner, j = .object inner → Regular inner) : Regular (put name j members) := by
  cases h with
  | mk names inside =>
    refine ⟨nodup_put names, fun name' inner hmem => ?_⟩
    rcases mem_put hmem with hm | hm
    · exact hj inner (Member.mk.inj hm).2.symm
    · exact inside name' inner hm

theorem regular_nil : Regular [] := ⟨List.nodup_nil, by simp⟩

/-! ## Merging -/

theorem find?_merge {name : String} (lower : List Member) {upper : List Member}
    (h : (upper.map Member.key).Nodup) :
    find? name (merge lower upper) =
      match find? name upper with
      | some j => some (mergeOver (find? name lower) j)
      | none => find? name lower := by
  induction upper generalizing lower with
  | nil => rfl
  | cons m rest ih =>
    obtain ⟨key, j⟩ := m
    rw [List.map_cons, List.nodup_cons] at h
    rw [merge, ih _ h.2, find?]
    -- The names above are distinct, so none behind the first changes it again.
    by_cases hkey : key = name
    · subst hkey
      rw [if_pos rfl, find?_eq_none h.1]
      exact find?_mergeOne_self key j lower
    · rw [if_neg hkey, find?_mergeOne_of_ne (Ne.symm hkey)]

theorem mergeOver_of_not_isGroup (lower : Option Json) {j : Json} (h : j.isGroup = false) :
    mergeOver lower j = j := by
  cases j <;> first | rfl | simp [isGroup] at h

theorem mergeOver_object_of_not_isGroup {lower : Json} {upper : List Member}
    (h : lower.isGroup = false) : mergeOver (some lower) (.object upper) = .object upper := by
  cases lower <;> first | rfl | simp [isGroup] at h

end Member

/-- Whether a path leads to something. -/
def Entry.IsFound (e : Entry) : Prop := e ≠ .missing ∧ e ≠ .hidden

/-- **Merging.** What the upper group has at a path counts, and where a name on the way is missing in
it, what the lower group has there. -/
theorem entryAt_merge (lower : List Member) {upper : List Member} (h : Member.Regular upper)
    (path : List String) {e : Entry} (he : e.IsFound) :
    entryAt path (.object (Member.merge lower upper)) = e ↔
      entryAt path (.object upper) = e ∨
        entryAt path (.object upper) = .missing ∧ entryAt path (.object lower) = e := by
  induction path generalizing lower upper with
  | nil => simp [entryAt]
  | cons name path ih =>
    rw [entryAt_cons, entryAt_cons, Member.find?_merge lower h.names]
    cases hfind : Member.find? name upper with
    | none => simp [entryAt_cons, he.1.symm]
    | some j =>
      cases hj : j.isGroup with
      | false =>
        -- a value hides what is below it
        simp only [Member.mergeOver_of_not_isGroup _ hj]
        cases path with
        | nil => simp [entryAt_nil_of_not_isGroup hj]
        | cons next path => simp [entryAt_cons_of_not_isGroup hj]
      | true =>
        obtain ⟨inner, rfl⟩ := isGroup_iff.mp hj
        rw [entryAt_cons]
        cases hlower : Member.find? name lower with
        | none => simp [mergeOver, he.1.symm]
        | some k =>
          cases hk : k.isGroup with
          | true =>
            obtain ⟨members, rfl⟩ := isGroup_iff.mp hk
            exact ih members (h.inside hfind)
          | false =>
            -- the group takes the place of a value
            simp only [Member.mergeOver_object_of_not_isGroup hk]
            cases path with
            | nil => simp [entryAt]
            | cons next path => simp [entryAt_cons_of_not_isGroup hk, he.2.symm]

theorem isFound_nil (j : Json) : (entryAt [] j).IsFound := by
  cases j <;> simp [entryAt, Entry.IsFound]

/-- Two documents that have the same wherever there is something have the same everywhere. -/
theorem entryAt_eq_of_isFound {j k : Json}
    (h : ∀ path e, e.IsFound → (entryAt path j = e ↔ entryAt path k = e)) (path : List String) :
    entryAt path j = entryAt path k := by
  have hnil : entryAt [] j = entryAt [] k := ((h [] _ (isFound_nil j)).mp rfl).symm
  induction path generalizing j k with
  | nil => exact hnil
  | cons name path ih =>
    cases hj : j.isGroup with
    | false =>
      -- a value is the same only as itself
      rw [entryAt_nil_of_not_isGroup hj] at hnil
      cases k with
      | object => simp [entryAt] at hnil
      | _ =>
        obtain rfl := Entry.value.inj hnil
        rfl
    | true =>
      obtain ⟨members, rfl⟩ := isGroup_iff.mp hj
      obtain ⟨others, rfl⟩ : ∃ others, k = .object others := by
        cases k <;> first | exact ⟨_, rfl⟩ | simp [entryAt] at hnil
      simp only [entryAt_cons]
      -- a name that is missing in one group is missing in the other one
      cases hmember : Member.find? name members with
      | none =>
        cases hother : Member.find? name others with
        | none => rfl
        | some k =>
          have hfound := (h [name] _ (isFound_nil k)).mpr (by rw [entryAt_cons, hother])
          rw [entryAt_cons, hmember] at hfound
          exact absurd hfound.symm (isFound_nil k).1
      | some j =>
        have hsub path e (he : e.IsFound) := h (name :: path) e he
        simp only [entryAt_cons, hmember] at hsub
        cases hother : Member.find? name others with
        | none =>
          have hfound := (hsub [] _ (isFound_nil j)).mp rfl
          rw [hother] at hfound
          exact absurd hfound.symm (isFound_nil j).1
        | some k =>
          simp only [hother] at hsub
          exact ih hsub ((hsub [] _ (isFound_nil j)).mp rfl).symm

end Json

namespace Settings

open Json Json.Member

/-! ## Setting values -/

/-- The group that a name stands for, empty where the name is missing. -/
def groupAt? (name : String) (members : List Json.Member) : Option (List Json.Member) :=
  match find? name members with
  | none => some []
  | some (.object inner) => some inner
  | some _ => none

theorem groupAt?_of_find? {name : String} {members inner : List Json.Member}
    (h : groupAt? name members = some inner) :
    find? name members = none ∧ inner = [] ∨ find? name members = some (.object inner) := by
  unfold groupAt? at h
  split at h
  · rename_i hfind
    exact Or.inl ⟨hfind, (Option.some.inj h).symm⟩
  · rename_i hfind
    exact Or.inr (Option.some.inj h ▸ hfind)
  · simp at h

theorem groupAt?_eq_none {name : String} {members : List Json.Member} :
    groupAt? name members = none ↔ ∃ j, find? name members = some j ∧ j.isGroup = false := by
  unfold groupAt?
  split
  · simp_all
  · simp_all [isGroup]
  · rename_i j hgroup hfind
    simp only [hfind, Option.some.injEq, exists_eq_left', true_iff]
    cases j <;> first | rfl | exact absurd rfl (hgroup _)

/-- **Inversion of setting a value** inside a group. -/
theorem setAt_cons {value : Json} {name next : String} {path : List String}
    {members : List Json.Member} :
    setAt value (name :: next :: path) members =
      match groupAt? name members with
      | some inner => (setAt value (next :: path) inner).map fun inner' =>
          put name (.object inner') members
      | none => .error (.conflictingSettings name) := by
  rw [setAt]
  · unfold groupAt?
    -- A section that is missing is made, and a value in its place is a conflict.
    cases find? name members with
    | none =>
      dsimp only
      cases setAt value (next :: path) [] <;> rfl
    | some j =>
      cases j with
      | object inner =>
        dsimp only
        cases setAt value (next :: path) inner <;> rfl
      | _ => rfl
  · simp

theorem setAt_cons_eq_ok {value : Json} {name next : String} {path : List String}
    {members members' : List Json.Member} :
    setAt value (name :: next :: path) members = .ok members' ↔
      ∃ inner inner', groupAt? name members = some inner ∧
        setAt value (next :: path) inner = .ok inner' ∧
        put name (.object inner') members = members' := by
  rw [setAt_cons]
  cases groupAt? name members with
  | none => simp
  | some inner => simp [Outcome.map_eq_ok]

theorem regular_setAt {value : String} {path : List String} {members members' : List Json.Member}
    (hmembers : Regular members) (h : setAt (.string value) path members = .ok members') :
    Regular members' := by
  induction path generalizing members members' with
  | nil =>
    obtain rfl := Except.ok.inj h
    exact hmembers
  | cons name path ih =>
    cases path with
    | nil =>
      obtain rfl := Except.ok.inj h
      exact hmembers.put (by simp)
    | cons next path =>
      obtain ⟨inner, inner', hgroup, hinner, rfl⟩ := setAt_cons_eq_ok.mp h
      refine hmembers.put fun inner'' heq => ?_
      obtain rfl := Json.object.inj heq
      -- The section is a new one or was inside already.
      rcases groupAt?_of_find? hgroup with ⟨_, rfl⟩ | hfind
      · exact ih regular_nil hinner
      · exact ih (hmembers.inside hfind) hinner

/-- What a path leads to after a name was set in a group. -/
theorem entryAt_put (name other : String) (path : List String) (j : Json)
    (members : List Json.Member) :
    entryAt (other :: path) (.object (put name j members)) =
      if other = name then entryAt path j else entryAt (other :: path) (.object members) := by
  by_cases h : other = name
  · rw [if_pos h, entryAt_cons, h, find?_put_self]
  · rw [if_neg h, entryAt_cons, entryAt_cons, find?_put_of_ne h]

/-- What is behind a name in the group that it stands for. -/
theorem entryAt_groupAt? {name : String} {members inner : List Json.Member}
    (h : groupAt? name members = some inner) (next : String) (path : List String) :
    entryAt (name :: next :: path) (.object members) = entryAt (next :: path) (.object inner) := by
  rw [entryAt_cons]
  rcases groupAt?_of_find? h with ⟨hfind, rfl⟩ | hfind
  · rw [hfind]
    rfl
  · rw [hfind]

/-- **Setting a value** changes what is at the path, on the way to it and behind it. -/
theorem entryAt_setAt {value : String} {path : List String} {members members' : List Json.Member}
    (hpath : path ≠ []) (h : setAt (.string value) path members = .ok members')
    (other : List String) :
    entryAt other (.object members') =
      if other = path then .value (.string value)
      else if other <+: path then .group
      else if path <+: other then .hidden
      else entryAt other (.object members) := by
  -- Path and query go down the tree together, until they part or one of them ends.
  induction path generalizing members members' other with
  | nil => exact absurd rfl hpath
  | cons name path ih =>
    cases other with
    | nil => simp [entryAt]
    | cons first other =>
      cases path with
      | nil =>
        obtain rfl := Except.ok.inj h
        rw [entryAt_put]
        by_cases hname : first = name
        · cases other <;> simp [entryAt, hname]
        · simp [hname, Ne.symm hname]
      | cons next path =>
        obtain ⟨inner, inner', hgroup, hinner, rfl⟩ := setAt_cons_eq_ok.mp h
        rw [entryAt_put]
        by_cases hname : first = name
        · subst hname
          rw [if_pos rfl, ih (by simp) hinner]
          cases other with
          | nil => simp
          | cons second other =>
            rw [entryAt_groupAt? hgroup]
            simp [List.cons_prefix_cons]
        · simp [hname, Ne.symm hname]

/-- **A value can be set** unless there is another one on the way to its path. -/
theorem succeeds_setAt {value : String} {path : List String} {members : List Json.Member} :
    Outcome.Succeeds (setAt (.string value) path members) ↔
      ∀ other j, other <+: path → other ≠ path → entryAt other (.object members) ≠ .value j := by
  induction path generalizing members with
  | nil =>
    simp only [setAt, Outcome.succeeds_ok, true_iff]
    intro other j hprefix hne
    exact absurd (List.prefix_nil.mp hprefix) hne
  | cons name path ih =>
    cases path with
    | nil =>
      simp only [setAt, Outcome.succeeds_ok, true_iff]
      intro other j hprefix hne
      cases other with
      | nil => simp [entryAt]
      | cons first other => simp_all [List.cons_prefix_cons]
    | cons next path =>
      rw [setAt_cons]
      cases hgroup : groupAt? name members with
      | none =>
        -- a value stands for the name, and the path leads on
        obtain ⟨j, hfind, hj⟩ := groupAt?_eq_none.mp hgroup
        simp only [Outcome.not_succeeds_error, false_iff, not_forall, not_not]
        refine ⟨[name], j, by simp [List.cons_prefix_cons], by simp, ?_⟩
        rw [entryAt_cons, hfind]
        exact entryAt_nil_of_not_isGroup hj
      | some inner =>
        simp only [Outcome.succeeds_map, ih]
        constructor
        · intro h other j hprefix hne
          cases other with
          | nil => simp [entryAt]
          | cons first other =>
            obtain ⟨rfl, htail⟩ := List.cons_prefix_cons.mp hprefix
            cases other with
            | nil =>
              rw [entryAt_cons]
              rcases groupAt?_of_find? hgroup with ⟨hfind, _⟩ | hfind <;> simp [hfind, entryAt]
            | cons second other =>
              rw [entryAt_groupAt? hgroup]
              exact h _ j htail (by simpa using hne)
        · intro h other j hprefix hne
          cases other with
          | nil => simp [entryAt]
          | cons second other =>
            rw [← entryAt_groupAt? hgroup]
            exact h _ j (by simpa [List.cons_prefix_cons] using hprefix) (by simpa using hne)

end Settings

end PartitionPruning
