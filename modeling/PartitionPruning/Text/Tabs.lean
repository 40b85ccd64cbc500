/-!
# Tabs

A tab stands for as many blanks as lead to the next column that is a multiple of a width. Columns are
counted from the last line break.
-/

namespace PartitionPruning.Text

/-- The text from a column on, with blanks in the place of tabs. -/
def expandTabs (width column : Nat) : List Char → List Char
  | [] => []
  | c :: rest =>
    if c = '\t' then
      let blanks := width - column % width
      List.replicate blanks ' ' ++ expandTabs width (column + blanks) rest
    else
      c :: expandTabs width (if c = '\n' ∨ c = '\r' then 0 else column + 1) rest

/-- A text without tabs stays as it is. -/
theorem expandTabs_of_noTab (width : Nat) {cs : List Char} (h : '\t' ∉ cs) (column : Nat) :
    expandTabs width column cs = cs := by
  induction cs generalizing column with
  | nil => rfl
  | cons c rest ih =>
    have hc : c ≠ '\t' := fun e => h (e ▸ List.mem_cons_self)
    have hr : '\t' ∉ rest := fun m => h (List.mem_cons_of_mem c m)
    simp [expandTabs, hc, ih hr]

/-- A tab becomes blanks up to the next stop. -/
theorem expandTabs_tab (width column : Nat) (rest : List Char) :
    expandTabs width column ('\t' :: rest) =
      List.replicate (width - column % width) ' ' ++
        expandTabs width (column + (width - column % width)) rest := by
  simp [expandTabs]

end PartitionPruning.Text
