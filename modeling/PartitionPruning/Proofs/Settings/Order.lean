import Mathlib.Data.List.Perm.Basic
import Mathlib.Data.List.Sort
import PartitionPruning.Proofs.Settings.Entries

/-!
# The order of environment variables

Variables are set one after the other. Two of them get in each other's way if the path of one leads
through that of the other: the longer path cannot be set behind the shorter one, but the shorter one
drops whatever is behind it. Where no two variables do, the settings depend on the variables alone.

* **`succeeds_setAll`** — values can be set if none of them leads through one that is set before.
* **`describes_setAll`** — values that are apart are found again, and nothing else is.
* **`load_perm_iff`** — the order of the variables does not matter exactly if they are apart.
-/

namespace PartitionPruning

namespace Settings

open Json Json.Member
open Outcome (Agree bind_eq_ok map_eq_ok)

/-- The path that a variable sets and its value, if the variable is a setting. -/
def assignmentOf? (entry : String × String) : Option (List String × String) :=
  (pathOfVariable? entry.1).map (·, entry.2)

/-- The paths that are set by variables, with their values. -/
def assignments (environment : List (String × String)) : List (List String × String) :=
  environment.filterMap assignmentOf?

/-- A group with values set at the ends of paths, one after the other. -/
def setAll (members : List Json.Member) (entries : List (List String × String)) :
    Except Fault (List Json.Member) :=
  entries.foldlM (fun members e => setAt (.string e.2) e.1 members) members

/-- Whether one path leads through the end of another one. -/
def LeadsThrough (p q : List String) : Prop := q <+: p ∧ q ≠ p

/-- Whether two assignments do not get in each other's way: neither path leads through the other one,
and one path is set to one value only. -/
def Apart (a b : List String × String) : Prop :=
  ¬ LeadsThrough a.1 b.1 ∧ ¬ LeadsThrough b.1 a.1 ∧ (a.1 = b.1 → a.2 = b.2)

instance (p q : List String) : Decidable (LeadsThrough p q) :=
  inferInstanceAs (Decidable (q <+: p ∧ q ≠ p))

instance (a b : List String × String) : Decidable (Apart a b) :=
  inferInstanceAs (Decidable (¬ _ ∧ ¬ _ ∧ (_ → _)))

/-- Whether two groups of settings have the same at every path. -/
def Same (s t : Settings) : Prop :=
  ∀ path, entryAt path (.object s.members) = entryAt path (.object t.members)

theorem LeadsThrough.trans {p q r : List String} (h : LeadsThrough p q) (h' : LeadsThrough q r) :
    LeadsThrough p r := by
  refine ⟨h'.1.trans h.1, fun heq => h'.2 ?_⟩
  exact h'.1.eq_of_length_le (heq ▸ h.1.length_le)

theorem LeadsThrough.length_lt {p q : List String} (h : LeadsThrough p q) : q.length < p.length :=
  h.1.length_le.lt_of_ne fun hlength => h.2 (h.1.eq_of_length hlength)

theorem Apart.symm {a b : List String × String} (h : Apart a b) : Apart b a :=
  ⟨h.2.1, h.1, fun heq => (h.2.2 heq.symm).symm⟩

/-! ## Variables -/

theorem splitNested_ne_nil (cs : List Char) : splitNested cs ≠ [] := by
  induction cs using splitNested.induct with
  | case1 => simp [splitNested]
  | case2 c rest hc hrest ih => exact absurd hrest ih
  | case3 c rest hc part parts hrest ih =>
    rw [splitNested, hrest]
    · simp
    · exact hc
  | case4 => simp [splitNested]

theorem ne_nil_of_mem_assignments {environment : List (String × String)}
    {e : List String × String} (h : e ∈ assignments environment) : e.1 ≠ [] := by
  obtain ⟨entry, -, he⟩ := List.mem_filterMap.mp h
  obtain ⟨path, hpath, rfl⟩ := Option.map_eq_some_iff.mp he
  unfold pathOfVariable? at hpath
  dsimp only at hpath
  split at hpath
  · obtain rfl := Option.some.inj hpath
    simpa using splitNested_ne_nil _
  · simp at hpath

theorem foldlM_setVariable (environment : List (String × String)) (members : List Json.Member) :
    environment.foldlM (fun members (name, value) => setVariable members name value) members =
      setAll members (assignments environment) := by
  induction environment generalizing members with
  | nil => rfl
  | cons entry rest ih =>
    obtain ⟨name, value⟩ := entry
    rw [List.foldlM_cons]
    dsimp only
    simp only [ih]
    unfold setVariable assignments
    -- A variable of another prefix assigns nothing.
    cases hpath : pathOfVariable? name with
    | none =>
      have hnone : assignmentOf? (name, value) = none := by rw [assignmentOf?, hpath]; rfl
      rw [List.filterMap_cons_none hnone]
      rfl
    | some path =>
      have hsome : assignmentOf? (name, value) = some (path, value) := by
        rw [assignmentOf?, hpath]; rfl
      rw [List.filterMap_cons_some hsome]
      rfl

/-- Variables with different names are set one after the other. -/
theorem ofVariables_eq_setAll {environment : List (String × String)}
    (h : (environment.map Prod.fst).Nodup) :
    ofVariables environment = setAll [] (assignments environment) := by
  rw [ofVariables, Assignment.ofPairs_of_nodup h, foldlM_setVariable]

/-! ## Setting one value after the other -/

@[simp] theorem setAll_nil (members : List Json.Member) : setAll members [] = .ok members := rfl

theorem setAll_cons (members : List Json.Member) (e : List String × String)
    (rest : List (List String × String)) :
    setAll members (e :: rest) =
      setAt (.string e.2) e.1 members >>= fun members => setAll members rest := by
  rw [setAll, List.foldlM_cons]
  rfl

theorem setAll_append (members : List Json.Member) (entries rest : List (List String × String)) :
    setAll members (entries ++ rest) =
      setAll members entries >>= fun members => setAll members rest := by
  rw [setAll, List.foldlM_append]
  rfl

theorem regular_setAll {members members' : List Json.Member}
    {entries : List (List String × String)} (hmembers : Regular members)
    (h : setAll members entries = .ok members') : Regular members' := by
  induction entries generalizing members with
  | nil =>
    obtain rfl := Except.ok.inj h
    exact hmembers
  | cons e rest ih =>
    obtain ⟨_, hset, hrest⟩ := bind_eq_ok.mp (setAll_cons .. ▸ h)
    exact ih (regular_setAt hmembers hset) hrest

/-- Where a value is after another one was set: it was set itself, or it was there and does not get in
the way. -/
theorem entryAt_setAt_eq_value {value : String} {path : List String}
    {members members' : List Json.Member} (hpath : path ≠ [])
    (h : setAt (.string value) path members = .ok members') (other : List String) (j : Json) :
    entryAt other (.object members') = .value j ↔
      other = path ∧ j = .string value ∨
        other ≠ path ∧ ¬ LeadsThrough other path ∧ entryAt other (.object members) = .value j := by
  rw [entryAt_setAt hpath h]
  by_cases heq : other = path
  · simp [heq, eq_comm]
  by_cases hstart : other <+: path
  · -- no value is on the way to one that can be set
    have hno := succeeds_setAt.mp ⟨members', h⟩ other j hstart heq
    simp [heq, hstart, hno]
  by_cases hbehind : path <+: other
  · simp [heq, hstart, hbehind, LeadsThrough, Ne.symm heq]
  · simp [heq, hstart, hbehind, LeadsThrough]

/-- **Values can be set** one after the other if none of them leads through one that is set before, and
none through one that is there. -/
theorem succeeds_setAll {members : List Json.Member} {entries : List (List String × String)}
    (hpaths : ∀ e ∈ entries, e.1 ≠ []) :
    Outcome.Succeeds (setAll members entries) ↔
      entries.Pairwise (fun a b => ¬ LeadsThrough b.1 a.1) ∧
        ∀ e ∈ entries, ∀ other j, LeadsThrough e.1 other →
          entryAt other (.object members) ≠ .value j := by
  induction entries generalizing members with
  | nil => simp
  | cons e rest ih =>
    rw [List.forall_mem_cons] at hpaths
    rw [setAll_cons, Outcome.succeeds_bind, List.pairwise_cons, List.forall_mem_cons]
    constructor
    · rintro ⟨members', hset, hrest⟩
      -- what is in the way of a later entry has been there before, or is the value of this one
      obtain ⟨hpairs, hfree⟩ := (ih hpaths.2).mp hrest
      have hentry := entryAt_setAt_eq_value hpaths.1 hset
      have hway other j (hlead : LeadsThrough e.1 other) :=
        succeeds_setAt.mp ⟨_, hset⟩ other j hlead.1 hlead.2
      have hthrough : ∀ b ∈ rest, ¬ LeadsThrough b.1 e.1 := fun b hb hlead =>
        hfree b hb e.1 (.string e.2) hlead ((hentry _ _).mpr (Or.inl ⟨rfl, rfl⟩))
      refine ⟨⟨hthrough, hpairs⟩, hway, fun b hb other j hlead hvalue => ?_⟩
      by_cases heq : other = e.1
      · exact hthrough b hb (heq ▸ hlead)
      · refine hfree b hb other j hlead ((hentry _ _).mpr (Or.inr ⟨heq, fun hbehind => ?_, hvalue⟩))
        exact hthrough b hb (hlead.trans hbehind)
    · rintro ⟨⟨hthrough, hpairs⟩, hway, hfree⟩
      obtain ⟨members', hset⟩ := succeeds_setAt.mpr fun other j hstart hne =>
        hway other j ⟨hstart, hne⟩
      refine ⟨members', hset, (ih hpaths.2).mpr ⟨hpairs, fun b hb other j hlead hvalue => ?_⟩⟩
      rcases (entryAt_setAt_eq_value hpaths.1 hset _ _).mp hvalue with ⟨rfl, -⟩ | ⟨-, -, hvalue⟩
      · exact hthrough b hb hlead
      · exact hfree b hb other j hlead hvalue

theorem succeeds_setAll_nil {entries : List (List String × String)}
    (hpaths : ∀ e ∈ entries, e.1 ≠ []) :
    Outcome.Succeeds (setAll [] entries) ↔
      entries.Pairwise (fun a b => ¬ LeadsThrough b.1 a.1) := by
  rw [succeeds_setAll hpaths, and_iff_left]
  intro e _ other j _
  cases other <;> simp [entryAt, find?]

/-- What is in a group when values have been set: the values at the ends of their paths, and groups on
the way. -/
structure Describes (entries : List (List String × String)) (members : List Json.Member) : Prop where
  value : ∀ path j, entryAt path (.object members) = .value j ↔
    ∃ v, (path, v) ∈ entries ∧ j = .string v
  group : ∀ path, entryAt path (.object members) = .group ↔
    path = [] ∨ ∃ e ∈ entries, LeadsThrough e.1 path

theorem describes_nil : Describes [] [] where
  value path j := by cases path <;> simp [entryAt, find?]
  group path := by cases path <;> simp [entryAt, find?]

theorem exists_leadsThrough_append {entries : List (List String × String)}
    {e : List String × String} {path : List String} :
    (∃ a ∈ entries ++ [e], LeadsThrough a.1 path) ↔
      (∃ a ∈ entries, LeadsThrough a.1 path) ∨ LeadsThrough e.1 path := by
  simp only [List.mem_append, List.mem_singleton, or_and_right, exists_or, exists_eq_left]

/-- **One value more** that is apart from those that have been set. -/
theorem Describes.setAt {entries : List (List String × String)} {members members' : List Json.Member}
    {e : List String × String} (hpath : e.1 ≠ []) (hdescribes : Describes entries members)
    (hapart : ∀ a ∈ entries, Apart a e)
    (h : setAt (.string e.2) e.1 members = .ok members') : Describes (entries ++ [e]) members' where
  value path j := by
    obtain ⟨last, v⟩ := e
    rw [entryAt_setAt_eq_value hpath h, hdescribes.value]
    constructor
    · rintro (⟨rfl, rfl⟩ | ⟨-, -, v', hmem, rfl⟩)
      · exact ⟨v, by simp, rfl⟩
      · exact ⟨v', by simp [hmem], rfl⟩
    · rintro ⟨v', hmem, rfl⟩
      rcases List.mem_append.mp hmem with hmem | hmem
      · have ha := hapart _ hmem
        by_cases heq : path = last
        · exact Or.inl ⟨heq, congrArg Json.string (ha.2.2 heq)⟩
        · exact Or.inr ⟨heq, ha.1, v', hmem, rfl⟩
      · obtain ⟨rfl, rfl⟩ := Prod.mk.inj (List.mem_singleton.mp hmem)
        exact Or.inl ⟨rfl, rfl⟩
  group path := by
    have hno : e.1 <+: path → ¬ ∃ a ∈ entries, LeadsThrough a.1 path := by
      -- what leads through a path behind the value leads through the value
      rintro hbehind ⟨a, ha, hlead⟩
      by_cases heq : path = e.1
      · exact (hapart a ha).1 (heq ▸ hlead)
      · exact (hapart a ha).1 (hlead.trans ⟨hbehind, Ne.symm heq⟩)
    have hlast : LeadsThrough e.1 path ↔ path <+: e.1 ∧ path ≠ e.1 := Iff.rfl
    rw [entryAt_setAt hpath h, exists_leadsThrough_append, hlast]
    by_cases heq : path = e.1
    · simp [heq, hpath, heq ▸ hno (heq ▸ List.prefix_rfl)]
    by_cases hstart : path <+: e.1
    · simp [heq, hstart]
    by_cases hbehind : e.1 <+: path
    · have hnil : path ≠ [] := fun hnil => hstart (hnil ▸ List.nil_prefix)
      simp [heq, hstart, hbehind, hnil, hno hbehind]
    · simp [heq, hstart, hbehind, hdescribes.group]

/-- **Values that are apart** are found again, and nothing else is. -/
theorem describes_setAll {done entries : List (List String × String)}
    {members members' : List Json.Member} (hpaths : ∀ e ∈ entries, e.1 ≠ [])
    (hdescribes : Describes done members) (hapart : (done ++ entries).Pairwise Apart)
    (h : setAll members entries = .ok members') : Describes (done ++ entries) members' := by
  induction entries generalizing done members with
  | nil =>
    obtain rfl := Except.ok.inj h
    rwa [List.append_nil]
  | cons e rest ih =>
    rw [List.forall_mem_cons] at hpaths
    obtain ⟨_, hset, hrest⟩ := bind_eq_ok.mp (setAll_cons .. ▸ h)
    have hbefore : ∀ a ∈ done, Apart a e := fun a ha =>
      (List.pairwise_append.mp hapart).2.2 a ha e List.mem_cons_self
    have hnext := hdescribes.setAt hpaths.1 hbefore hset
    rw [List.append_cons] at hapart ⊢
    exact ih hpaths.2 hnext hapart hrest

/-! ## Any order -/

/-- What is done with each order of a list: a pair that may stand at the end of one is related. -/
theorem pairwise_of_forall_perm {α : Type} [DecidableEq α] {R : α → α → Prop} {xs : List α}
    (h : ∀ a b rest, (rest ++ [a, b]).Perm xs → R a b) : xs.Pairwise R := by
  induction xs with
  | nil => exact .nil
  | cons x xs ih =>
    refine List.pairwise_cons.mpr ⟨fun b hb => h x b (xs.erase b) ?_, ih fun a b rest hperm => ?_⟩
    · have hlast : (xs.erase b ++ [b]).Perm xs :=
        List.perm_append_comm.trans (List.perm_cons_erase hb).symm
      exact List.perm_middle.trans (hlast.cons x)
    · exact h a b (x :: rest) (hperm.cons x)

/-- An order of what is picked from a list comes from an order of the list. -/
theorem exists_perm_filterMap {α β : Type} [DecidableEq α] {f : α → Option β} {xs : List α}
    {ys : List β} (h : ys.Perm (xs.filterMap f)) : ∃ l : List α, l.Perm xs ∧ l.filterMap f = ys := by
  induction ys generalizing xs with
  | nil => exact ⟨xs, .refl _, List.nil_perm.mp h⟩
  | cons y ys ih =>
    obtain ⟨x, hx, hy⟩ := List.mem_filterMap.mp (h.subset List.mem_cons_self)
    have hfirst := List.perm_cons_erase hx
    have hpicked := h.trans (hfirst.filterMap f)
    rw [List.filterMap_cons_some hy] at hpicked
    obtain ⟨l, hl, rfl⟩ := ih hpicked.cons_inv
    exact ⟨x :: l, (hl.cons x).trans hfirst.symm, List.filterMap_cons_some hy⟩

/-- What settings come out of a file and assignments in an order. -/
def overlaid (file : List Json.Member) (entries : List (List String × String)) :
    Except Fault Settings :=
  (setAll [] entries).map fun environment => ⟨merge file environment⟩

theorem overlaid_eq_ok {file : List Json.Member} {entries : List (List String × String)}
    {s : Settings} : overlaid file entries = .ok s ↔
      ∃ members, setAll [] entries = .ok members ∧ ⟨merge file members⟩ = s :=
  map_eq_ok

theorem succeeds_overlaid (file : List Json.Member) {entries : List (List String × String)}
    (hpaths : ∀ e ∈ entries, e.1 ≠ []) :
    Outcome.Succeeds (overlaid file entries) ↔
      entries.Pairwise (fun a b => ¬ LeadsThrough b.1 a.1) := by
  rw [overlaid, Outcome.succeeds_map, succeeds_setAll_nil hpaths]

theorem load_eq_overlaid {source : SettingsSource} {file : List Json.Member}
    (hfile : ofFiles source = .ok file) (h : (source.environment.map Prod.fst).Nodup) :
    load source = overlaid file (assignments source.environment) := by
  rw [load, hfile, ofVariables_eq_setAll h, overlaid]
  cases setAll [] (assignments source.environment) <;> rfl

/-- Values that are apart give the same settings in each order. -/
theorem agree_of_apart {file : List Json.Member} {entries entries' : List (List String × String)}
    (hpaths : ∀ e ∈ entries, e.1 ≠ []) (hperm : entries'.Perm entries)
    (hapart : entries.Pairwise Apart) :
    Agree Same (overlaid file entries) (overlaid file entries') := by
  have hpaths' : ∀ e ∈ entries', e.1 ≠ [] := fun e he => hpaths e (hperm.mem_iff.mp he)
  have hapart' : entries'.Pairwise Apart := hapart.perm hperm.symm Apart.symm
  obtain ⟨members, hset⟩ := (succeeds_setAll_nil hpaths).mpr (hapart.imp fun h => h.2.1)
  obtain ⟨members', hset'⟩ := (succeeds_setAll_nil hpaths').mpr (hapart'.imp fun h => h.2.1)
  have hdescribes := describes_setAll hpaths describes_nil hapart hset
  have hdescribes' := describes_setAll hpaths' describes_nil hapart' hset'
  simp only [overlaid, hset, hset', Outcome.map_ok]
  -- each group has what the entries say, and these are the same ones
  have henvironment := entryAt_eq_of_isFound (j := .object members) (k := .object members')
    fun path e he => by
      cases e with
      | missing => exact absurd rfl he.1
      | hidden => exact absurd rfl he.2
      | group => simp [hdescribes.group, hdescribes'.group, hperm.mem_iff]
      | value j => simp [hdescribes.value, hdescribes'.value, hperm.mem_iff]
  refine entryAt_eq_of_isFound fun path e he => ?_
  rw [entryAt_merge file (regular_setAll regular_nil hset) path he,
    entryAt_merge file (regular_setAll regular_nil hset') path he, henvironment]

/-- Values can be set in some order: longer paths first. -/
theorem exists_perm_succeeds (file : List Json.Member) {entries : List (List String × String)}
    (hpaths : ∀ e ∈ entries, e.1 ≠ []) :
    ∃ entries', entries'.Perm entries ∧ Outcome.Succeeds (overlaid file entries') := by
  let longer (a b : List String × String) : Bool := b.1.length ≤ a.1.length
  have hperm : (entries.mergeSort longer).Perm entries := List.mergeSort_perm ..
  refine ⟨_, hperm, (succeeds_overlaid file fun e he => hpaths e (hperm.mem_iff.mp he)).mpr ?_⟩
  have hsorted : (entries.mergeSort longer).Pairwise (longer · ·) :=
    List.pairwise_mergeSort (fun a b c hab hbc => by simp_all [longer]; omega)
      (fun a b => by simp [longer]; omega) entries
  refine hsorted.imp fun {a b} hlength hlead => ?_
  have := hlead.length_lt
  simp only [longer, decide_eq_true_eq] at hlength
  omega

/-- What the last value that is set leaves behind. -/
theorem entryAt_overlaid_last {file : List Json.Member} (entries : List (List String × String))
    {e : List String × String} {s : Settings} (hpath : e.1 ≠ [])
    (h : overlaid file (entries ++ [e]) = .ok s) :
    entryAt e.1 (.object s.members) = .value (.string e.2) := by
  obtain ⟨members, hset, rfl⟩ := overlaid_eq_ok.mp h
  rw [entryAt_merge file (regular_setAll regular_nil hset) _ (by simp [Entry.IsFound])]
  rw [setAll_append] at hset
  obtain ⟨_, -, hrest⟩ := bind_eq_ok.mp hset
  obtain ⟨_, hlast, hnil⟩ := bind_eq_ok.mp (setAll_cons .. ▸ hrest)
  obtain rfl := Except.ok.inj hnil
  exact Or.inl (by rw [entryAt_setAt hpath hlast, if_pos rfl])

/-- Values that give the same settings in each order are apart. -/
theorem apart_of_agree (file : List Json.Member) {entries : List (List String × String)}
    (hpaths : ∀ e ∈ entries, e.1 ≠ [])
    (h : ∀ l l' : List (List String × String), l.Perm entries → l'.Perm entries →
      Agree Same (overlaid file l) (overlaid file l')) :
    entries.Pairwise Apart := by
  obtain ⟨first, hfirst, hsucceeds⟩ := exists_perm_succeeds file hpaths
  refine pairwise_of_forall_perm fun a b rest hperm => ?_
  have hswapped : (rest ++ [b, a]).Perm entries :=
    ((List.Perm.swap a b []).append_left rest).trans hperm
  obtain ⟨s, hs⟩ := (h _ _ hfirst hperm).succeeds_iff.mp hsucceeds
  obtain ⟨t, ht⟩ := (h _ _ hfirst hswapped).succeeds_iff.mp hsucceeds
  have hfree {l : List (List String × String)} (hl : l.Perm entries) :=
    succeeds_overlaid file fun e he => hpaths e (hl.mem_iff.mp he)
  have hab := (List.pairwise_append.mp ((hfree hperm).mp ⟨s, hs⟩)).2.1
  have hba := (List.pairwise_append.mp ((hfree hswapped).mp ⟨t, ht⟩)).2.1
  refine ⟨by simpa using hba, by simpa using hab, fun heq => ?_⟩
  -- each of the two comes last once
  have hsame := h _ _ hperm hswapped
  rw [hs, ht] at hsame
  have hb := entryAt_overlaid_last (rest ++ [a])
    (hpaths b (hperm.subset (by simp))) (by simpa using hs)
  have ha := entryAt_overlaid_last (rest ++ [b])
    (hpaths a (hperm.subset (by simp))) (by simpa using ht)
  have hvalue := (ha.symm.trans (heq ▸ (hsame b.1).symm)).trans hb
  simpa using hvalue

/-- **The order of variables** does not matter exactly if nothing is loaded in any order, because of
the files, or if any two of the variables are apart. -/
theorem load_perm_iff {source : SettingsSource} (hnames : (source.environment.map Prod.fst).Nodup) :
    (∀ environment environment', environment.Perm source.environment →
        environment'.Perm source.environment →
        Agree Same (load { source with environment := environment })
          (load { source with environment := environment' })) ↔
      ¬ Outcome.Succeeds (ofFiles source) ∨ (assignments source.environment).Pairwise Apart := by
  have hpaths : ∀ e ∈ assignments source.environment, e.1 ≠ [] :=
    fun _ => ne_nil_of_mem_assignments
  cases hfile : ofFiles source with
  | error fault =>
    have hload environment : load { source with environment := environment } = .error fault := by
      have hsame : ofFiles { source with environment := environment } = .error fault := hfile
      rw [load, hsame]
      rfl
    simp [hload, Agree]
  | ok file =>
    have hload environment (hperm : environment.Perm source.environment) :
        load { source with environment := environment } = overlaid file (assignments environment) :=
      load_eq_overlaid hfile ((hperm.map Prod.fst).nodup_iff.mpr hnames)
    simp only [Outcome.succeeds_ok, not_true_eq_false, false_or]
    constructor
    · intro h
      -- Every order of the assignments is that of some order of the variables.
      refine apart_of_agree file hpaths fun l l' hl hl' => ?_
      obtain ⟨environment, hperm, rfl⟩ := exists_perm_filterMap hl
      obtain ⟨environment', hperm', rfl⟩ := exists_perm_filterMap hl'
      have hsame := h _ _ hperm hperm'
      rwa [hload _ hperm, hload _ hperm'] at hsame
    · intro hapart environment environment' hperm hperm'
      rw [hload _ hperm, hload _ hperm']
      have hentries := hperm.filterMap assignmentOf?
      refine agree_of_apart (fun e => ne_nil_of_mem_assignments)
        ((hperm'.trans hperm.symm).filterMap assignmentOf?) ?_
      exact hapart.perm hentries.symm Apart.symm

/-- Two settings of the program in any order. -/
theorem load_perm_workers :
    ([("PYRESIDUAL_MAX_WORKERS", "4"), ("PYRESIDUAL_CASE_SENSITIVE", "false")].map Prod.fst).Nodup ∧
      ∀ environment environment' : List (String × String),
        environment.Perm [("PYRESIDUAL_MAX_WORKERS", "4"), ("PYRESIDUAL_CASE_SENSITIVE", "false")] →
        environment'.Perm
          [("PYRESIDUAL_MAX_WORKERS", "4"), ("PYRESIDUAL_CASE_SENSITIVE", "false")] →
        Agree Same (load ⟨environment, none, none⟩) (load ⟨environment', none, none⟩) := by
  have hnames : ([("PYRESIDUAL_MAX_WORKERS", "4"),
      ("PYRESIDUAL_CASE_SENSITIVE", "false")].map Prod.fst).Nodup := by decide
  exact ⟨hnames, (@load_perm_iff ⟨_, none, none⟩ hnames).mpr (Or.inr (by decide +kernel))⟩

/-- **A value takes the place of a group** that was set before it, but no group the place of a value:
the names of the two variables differ even if case is ignored. -/
theorem load_of_group_behind_value :
    (["PYRESIDUAL_A", "PYRESIDUAL_A__B"].map Text.toLower).Nodup ∧
      load ⟨[("PYRESIDUAL_A", "1"), ("PYRESIDUAL_A__B", "2")], none, none⟩ =
        .error (.conflictingSettings "a") ∧
      load ⟨[("PYRESIDUAL_A__B", "2"), ("PYRESIDUAL_A", "1")], none, none⟩ =
        .ok ⟨[⟨"a", .string "1"⟩]⟩ := by
  -- There are no files here, so the variables are all there is.
  have hload environment (h : (environment.map Prod.fst).Nodup) :
      load ⟨environment, none, none⟩ = overlaid [] (assignments environment) :=
    @load_eq_overlaid ⟨environment, none, none⟩ _ rfl h
  have hvalue : assignmentOf? ("PYRESIDUAL_A", "1") = some (["a"], "1") := by decide +kernel
  have hgroup : assignmentOf? ("PYRESIDUAL_A__B", "2") = some (["a", "b"], "2") := by
    decide +kernel
  refine ⟨by decide +kernel, ?_, ?_⟩
  · rw [hload _ (by decide), assignments, List.filterMap_cons_some hvalue,
      List.filterMap_cons_some hgroup]
    rfl
  · rw [hload _ (by decide), assignments, List.filterMap_cons_some hgroup,
      List.filterMap_cons_some hvalue]
    rfl

end Settings

end PartitionPruning
