import Mathlib.Data.List.Nodup
import Mathlib.Data.List.Perm.Basic

/-! # Tables of sections

A table asks for its contents by section and row. Its index paths go through the rows of
all sections one after the other; where the sections are the groups of a list by a key,
that is the list again, in another order.
-/

namespace Table

structure IndexPath where
  sectionIndex : Nat
  row : Nat
deriving DecidableEq, Repr

/-- The index paths of a table with this many rows in each section. -/
def indexPaths (sectionsCount : Nat) (rowsCount : Nat → Nat) : List IndexPath :=
  (List.range sectionsCount).flatMap fun i => (List.range (rowsCount i)).map fun row => ⟨i, row⟩

theorem mem_indexPaths {sectionsCount : Nat} {rowsCount : Nat → Nat} {indexPath : IndexPath} :
    indexPath ∈ indexPaths sectionsCount rowsCount ↔
      indexPath.sectionIndex < sectionsCount ∧
        indexPath.row < rowsCount indexPath.sectionIndex := by
  obtain ⟨i, row⟩ := indexPath
  simp [indexPaths]

section Reading

variable {α β : Type*}

theorem map_range_getElem (rows : List α) (f : Nat → β) (g : α → β)
    (h : ∀ row p, rows[row]? = some p → f row = g p) :
    (List.range rows.length).map f = rows.map g := by
  apply List.ext_getElem?
  intro row
  by_cases hrow : row < rows.length
  · have hread := h row rows[row] (List.getElem?_eq_getElem hrow)
    simp [hrow, hread]
  · simp [hrow]

/-- What is read at the index paths is what the sections hold, one after the other. -/
theorem map_indexPaths (sections : List (List α)) (rowsCount : Nat → Nat)
    (f : IndexPath → β) (g : α → β)
    (hcount : ∀ i rows, sections[i]? = some rows → rowsCount i = rows.length)
    (h : ∀ i rows row p, sections[i]? = some rows → rows[row]? = some p → f ⟨i, row⟩ = g p) :
    (indexPaths sections.length rowsCount).map f = sections.flatten.map g := by
  have hsection : ∀ i rows, sections[i]? = some rows →
      (((List.range (rowsCount i)).map fun row => (⟨i, row⟩ : IndexPath)).map f) = rows.map g := by
    intro i rows hrows
    rw [hcount i rows hrows, List.map_map]
    exact map_range_getElem rows _ g fun row p hp => h i rows row p hrows hp
  have hflat := map_range_getElem sections _ (fun rows => rows.map g) hsection
  rw [indexPaths, List.map_flatMap, List.map_flatten, ← hflat, List.flatMap_def]

end Reading

/-! ## Groups -/

section Groups

variable {α κ : Type*} [DecidableEq κ]

def group (key : α → κ) (xs : List α) (k : κ) : List α := xs.filter fun x => key x = k

/-- The groups of distinct keys are the elements that have one of them. -/
theorem perm_flatMap_group (key : α → κ) (xs : List α) {keys : List κ} (hkeys : keys.Nodup) :
    (keys.flatMap (group key xs)).Perm (xs.filter fun x => key x ∈ keys) := by
  induction keys with
  | nil => simp
  | cons k keys ih =>
      obtain ⟨hnew, hkeys⟩ := List.nodup_cons.mp hkeys
      have hsplit := List.filter_append_perm (fun x => decide (key x = k))
        (xs.filter fun x => key x ∈ k :: keys)
      rw [List.filter_filter, List.filter_filter] at hsplit
      refine List.Perm.trans ?_ hsplit
      rw [List.flatMap_cons]
      apply List.Perm.append
      · refine List.Perm.of_eq (List.filter_congr fun x _ => ?_)
        by_cases hx : key x = k <;> simp [hx]
      · refine (ih hkeys).trans (List.Perm.of_eq (List.filter_congr fun x _ => ?_))
        by_cases hx : key x = k
        · simp [hx, hnew]
        · simp [hx]

/-- Grouping by keys that cover the list loses nothing and doubles nothing. -/
theorem perm_flatMap_group_of_cover {key : α → κ} {xs : List α} {keys : List κ}
    (hkeys : keys.Nodup) (hcover : ∀ x ∈ xs, key x ∈ keys) :
    (keys.flatMap (group key xs)).Perm xs := by
  refine (perm_flatMap_group key xs hkeys).trans (List.Perm.of_eq ?_)
  rw [List.filter_eq_self]
  intro x hx
  simpa using hcover x hx

end Groups

end Table
