import PartitionPruning.Proofs.Settings.Order

/-!
# Merging groups of settings

A group that is put over another one covers a path if it has something there, or a value on the way.
What is not covered stays as it was in the lower group, and nothing else is in the merged one.

* **`entryAt_merge_eq_value`** — the values of merged groups, path by path.
* **`merge_self`** — a group put over itself changes nothing.
* **`merge_merge_self`** — a group put over another one twice does what it does once.
-/

namespace PartitionPruning

namespace Json

open Settings (LeadsThrough)

/-! ## What a group covers -/

/-- A path is hidden exactly if there is a value on the way. -/
theorem entryAt_eq_hidden_iff {path : List String} {j : Json} :
    entryAt path j = .hidden ↔
      ∃ front k, LeadsThrough path front ∧ entryAt front j = .value k := by
  induction path generalizing j with
  | nil =>
    refine ⟨fun h => absurd h (isFound_nil j).2, ?_⟩
    rintro ⟨front, k, hlead, -⟩
    exact absurd (List.prefix_nil.mp hlead.1) hlead.2
  | cons name path ih =>
    cases hj : j.isGroup with
    | false =>
      -- the value at the beginning of the path hides all that is behind it
      rw [entryAt_cons_of_not_isGroup hj, eq_self, true_iff]
      exact ⟨[], j, ⟨List.nil_prefix, by simp⟩, entryAt_nil_of_not_isGroup hj⟩
    | true =>
      obtain ⟨members, rfl⟩ := isGroup_iff.mp hj
      rw [entryAt_cons]
      constructor
      · intro h
        cases hfind : Member.find? name members with
        | none => simp [hfind] at h
        | some inner =>
          rw [hfind] at h
          obtain ⟨front, k, hlead, hvalue⟩ := ih.mp h
          refine ⟨name :: front, k, ⟨List.cons_prefix_cons.mpr ⟨rfl, hlead.1⟩, ?_⟩, ?_⟩
          · simpa using hlead.2
          · rw [entryAt_cons, hfind]
            exact hvalue
      · rintro ⟨front, k, hlead, hvalue⟩
        cases front with
        | nil => simp [entryAt] at hvalue
        | cons first front =>
          obtain ⟨rfl, hfront⟩ := List.cons_prefix_cons.mp hlead.1
          rw [entryAt_cons] at hvalue
          cases hfind : Member.find? first members with
          | none => simp [hfind] at hvalue
          | some inner =>
            rw [hfind] at hvalue
            exact ih.mpr ⟨front, k, ⟨hfront, by simpa using hlead.2⟩, hvalue⟩

namespace Member

/-- Whether a group that is put over another one decides what is at a path: it has a value on the way,
or something at the path itself. -/
def Covers (upper : List Member) (path : List String) : Prop :=
  (∃ front j, LeadsThrough path front ∧ entryAt front (.object upper) = .value j) ∨
    (entryAt path (.object upper)).IsFound

theorem not_covers_iff {upper : List Member} {path : List String} :
    ¬ Covers upper path ↔ entryAt path (.object upper) = .missing := by
  rw [Covers, ← entryAt_eq_hidden_iff, Entry.IsFound]
  by_cases hhidden : entryAt path (.object upper) = .hidden
  · simp [hhidden]
  · simp [hhidden]

/-- **The values of merged groups**: those of the upper group, and those of the lower one that it does
not cover. -/
theorem entryAt_merge_eq_value (lower : List Member) {upper : List Member} (h : Regular upper)
    (path : List String) (j : Json) :
    entryAt path (.object (merge lower upper)) = .value j ↔
      entryAt path (.object upper) = .value j ∨
        entryAt path (.object lower) = .value j ∧ ¬ Covers upper path := by
  rw [entryAt_merge lower h path (by simp [Entry.IsFound]), not_covers_iff,
    and_comm (a := entryAt path (.object upper) = .missing)]

/-! ## Groups that change nothing -/

theorem find?_of_mem {name : String} {j : Json} {members : List Member}
    (h : (members.map key).Nodup) (hmem : ⟨name, j⟩ ∈ members) : find? name members = some j := by
  induction members with
  | nil => simp at hmem
  | cons m rest ih =>
    obtain ⟨key, value⟩ := m
    rw [List.map_cons, List.nodup_cons] at h
    rw [find?]
    rcases List.mem_cons.mp hmem with heq | hmem
    · obtain ⟨rfl, rfl⟩ := Member.mk.inj heq
      exact if_pos rfl
    · rw [if_neg, ih h.2 hmem]
      rintro rfl
      exact h.1 (List.mem_map.mpr ⟨_, hmem, rfl⟩)

theorem put_eq_self {name : String} {j : Json} {members : List Member}
    (h : find? name members = some j) : put name j members = members := by
  induction members with
  | nil => simp [find?] at h
  | cons m rest ih =>
    obtain ⟨key, value⟩ := m
    rw [find?] at h
    rw [put]
    split at h
    · rename_i hkey
      rw [if_pos hkey, Option.some.inj h]
    · rename_i hkey
      rw [if_neg hkey, ih h]

/-- A setting that is put over another one and leaves it as it is. -/
def IsAbsorbed (lower : List Member) (m : Member) : Prop :=
  ∃ j, find? m.key lower = some j ∧ mergeOver (some j) m.value = j

theorem mergeOne_eq_self {lower : List Member} {m : Member} (h : IsAbsorbed lower m) :
    mergeOne lower m = lower := by
  obtain ⟨key, value⟩ := m
  obtain ⟨j, hfind, hmerge⟩ := h
  rw [mergeOne, hfind, hmerge, put_eq_self hfind]

theorem merge_eq_self {lower upper : List Member} (h : ∀ m ∈ upper, IsAbsorbed lower m) :
    merge lower upper = lower := by
  induction upper with
  | nil => rfl
  | cons m rest ih =>
    rw [List.forall_mem_cons] at h
    rw [merge, mergeOne_eq_self h.1, ih h.2]

/-- **A group put over itself** changes nothing. -/
theorem merge_self {members : List Member} (h : Regular members) : merge members members = members := by
  induction h with
  | mk names _ ih =>
    refine merge_eq_self fun ⟨name, j⟩ hmem => ⟨j, find?_of_mem names hmem, ?_⟩
    cases hj : j.isGroup with
    | false => exact mergeOver_of_not_isGroup _ hj
    | true =>
      obtain ⟨inner, rfl⟩ := isGroup_iff.mp hj
      exact congrArg object (ih name inner hmem)

/-- **A group put over another one twice** does what it does once. -/
theorem merge_merge_self (lower : List Member) {upper : List Member} (h : Regular upper) :
    merge (merge lower upper) upper = merge lower upper := by
  induction h generalizing lower with
  | @mk upper names inside ih =>
    refine merge_eq_self fun ⟨name, j⟩ hmem => ?_
    have hfind : find? name (merge lower upper) = some (mergeOver (find? name lower) j) := by
      rw [find?_merge lower names, find?_of_mem names hmem]
    refine ⟨_, hfind, ?_⟩
    cases hj : j.isGroup with
    | false => simp only [mergeOver_of_not_isGroup _ hj]
    | true =>
      -- unless the lower group has a group of that name, the upper one stands there already
      obtain ⟨inner, rfl⟩ := isGroup_iff.mp hj
      have hself : mergeOver (some (.object inner)) (.object inner) = .object inner :=
        congrArg object (merge_self (inside name inner hmem))
      cases find? name lower with
      | none => exact hself
      | some k =>
        cases hk : k.isGroup with
        | false =>
          rw [mergeOver_object_of_not_isGroup hk]
          exact hself
        | true =>
          obtain ⟨members, rfl⟩ := isGroup_iff.mp hk
          exact congrArg object (ih name inner hmem members)

/-- **Merging** two groups: at each path the value of the upper group counts, one of the lower group
stays unless the upper group covers its path, and there are no other values. To put a group over itself,
or over another one for a second time, changes nothing. -/
theorem merge_laws {lower upper : List Member} (hlower : Regular lower) (hupper : Regular upper) :
    (∀ path j, entryAt path (.object (merge lower upper)) = .value j ↔
        entryAt path (.object upper) = .value j ∨
          entryAt path (.object lower) = .value j ∧ ¬ Covers upper path) ∧
      merge lower lower = lower ∧ merge (merge lower upper) upper = merge lower upper :=
  ⟨entryAt_merge_eq_value lower hupper, merge_self hlower, merge_merge_self lower hupper⟩

/-- A value stays beside another one that gives way to a group. -/
theorem merge_laws_sections :
    Regular [⟨"a", .object [⟨"b", .int 1⟩, ⟨"c", .int 2⟩]⟩, ⟨"d", .int 3⟩] ∧
      Regular [⟨"a", .object [⟨"b", .object [⟨"e", .null⟩]⟩]⟩, ⟨"d", .object []⟩] ∧
      entryAt ["a", "c"] (.object (merge
        [⟨"a", .object [⟨"b", .int 1⟩, ⟨"c", .int 2⟩]⟩, ⟨"d", .int 3⟩]
        [⟨"a", .object [⟨"b", .object [⟨"e", .null⟩]⟩]⟩, ⟨"d", .object []⟩])) = .value (.int 2) := by
  -- Both trees are regular by looking at their names, level by level.
  have hlower : Regular [⟨"a", .object [⟨"b", .int 1⟩, ⟨"c", .int 2⟩]⟩, ⟨"d", .int 3⟩] := by
    refine ⟨by decide, fun name inner hmem => ?_⟩
    obtain ⟨-, rfl⟩ : name = "a" ∧ inner = [⟨"b", .int 1⟩, ⟨"c", .int 2⟩] := by simpa using hmem
    exact ⟨by decide, by simp⟩
  have hupper : Regular [⟨"a", .object [⟨"b", .object [⟨"e", .null⟩]⟩]⟩, ⟨"d", .object []⟩] := by
    have hinner : Regular [⟨"b", .object [⟨"e", .null⟩]⟩] :=
      regular_nil.put fun inner h => object.inj h ▸ ⟨by decide, by simp⟩
    refine ⟨by decide, fun name inner hmem => ?_⟩
    obtain ⟨-, rfl⟩ | ⟨-, rfl⟩ : name = "a" ∧ inner = [⟨"b", .object [⟨"e", .null⟩]⟩] ∨
        name = "d" ∧ inner = [] := by simpa using hmem
    · exact hinner
    · exact regular_nil
  refine ⟨hlower, hupper, ?_⟩
  exact ((merge_laws hlower hupper).1 ["a", "c"] (.int 2)).mpr
    (Or.inr ⟨rfl, not_covers_iff.mpr rfl⟩)

end Member

end Json

end PartitionPruning
