import Mathlib.Algebra.GroupWithZero.Nat
import Mathlib.Data.List.Perm.Basic

/-! # A list of things in flight

What has been sent and not yet answered stands in a list, addressed by its place. An
answer replaces one entry or takes it out; counts and sums over the list change by
that entry. The equations are stated without subtraction.
-/

namespace InFlight

variable {α : Type*} {xs : List α} {index : Nat} {x : α}

theorem perm_eraseIdx (h : xs[index]? = some x) : (x :: xs.eraseIdx index).Perm xs := by
  obtain ⟨hindex, hget⟩ := List.getElem?_eq_some_iff.mp h
  rw [← hget]
  exact List.getElem_cons_eraseIdx_perm hindex

/-- A replacement that looks the same does not show in the image. -/
theorem map_set_of_eq {β : Type*} (f : α → β) (h : xs[index]? = some x) {new : α}
    (hnew : f new = f x) : (xs.set index new).map f = xs.map f := by
  have hplace : (xs.map f)[index]? = some (f new) := by
    rw [List.getElem?_map, h, hnew]
    rfl
  rw [List.map_set]
  obtain ⟨hmapped, hat⟩ := List.getElem?_eq_some_iff.mp hplace
  rw [← hat]
  exact List.set_getElem_self hmapped

theorem countP_set_add (p : α → Bool) (h : xs[index]? = some x) (new : α) :
    (xs.set index new).countP p + (if p x then 1 else 0) =
      xs.countP p + if p new then 1 else 0 := by
  obtain ⟨hindex, hget⟩ := List.getElem?_eq_some_iff.mp h
  have hle : (if p x then 1 else 0) ≤ xs.countP p := by
    split
    · rename_i hp
      exact List.countP_pos_iff.mpr ⟨x, List.mem_of_getElem? h, hp⟩
    · exact Nat.zero_le _
  rw [List.countP_set hindex, hget]
  omega

theorem countP_eraseIdx_add (p : α → Bool) (h : xs[index]? = some x) :
    (xs.eraseIdx index).countP p + (if p x then 1 else 0) = xs.countP p := by
  have hcount := (perm_eraseIdx h).countP_eq p
  rw [List.countP_cons] at hcount
  exact hcount

theorem sum_eraseIdx_add (weight : α → Nat) (h : xs[index]? = some x) :
    ((xs.eraseIdx index).map weight).sum + weight x = (xs.map weight).sum := by
  have hsum := ((perm_eraseIdx h).map weight).sum_nat
  rw [List.map_cons, List.sum_cons] at hsum
  omega

/-! ## At most one for each key -/

section Keys

variable {κ : Type*} {target : α → Option κ} {key : κ} {new y : α}

theorem mem_set_iff (h : xs[index]? = some x) (new y : α) :
    y ∈ xs.set index new ↔ y = new ∨ y ∈ xs.eraseIdx index := by
  obtain ⟨hindex, _⟩ := List.getElem?_eq_some_iff.mp h
  have hset : (xs.set index new)[index]? = some new := by
    rw [List.getElem?_set_self hindex]
  have hperm := (perm_eraseIdx hset).mem_iff (a := y)
  rw [List.eraseIdx_set_eq] at hperm
  rw [← hperm, List.mem_cons]

theorem target_ne_of_mem_eraseIdx (halone : (xs.filterMap target).Nodup)
    (h : xs[index]? = some x) (hkey : target x = some key) (hy : y ∈ xs.eraseIdx index) :
    target y ≠ some key := by
  have hperm := (perm_eraseIdx h).filterMap target
  rw [List.filterMap_cons_some hkey] at hperm
  have hnodup := hperm.nodup_iff.mpr halone
  intro hsame
  exact (List.nodup_cons.mp hnodup).1 (List.mem_filterMap.mpr ⟨y, hy, hsame⟩)

theorem nodup_filterMap_eraseIdx (halone : (xs.filterMap target).Nodup) (index : Nat) :
    ((xs.eraseIdx index).filterMap target).Nodup :=
  halone.sublist ((List.eraseIdx_sublist xs index).filterMap target)

/-- Something with the key of what is taken out may be sent in its place. -/
theorem nodup_filterMap_eraseIdx_concat (halone : (xs.filterMap target).Nodup)
    (h : xs[index]? = some x) (hkey : target x = some key) (hnew : target new = some key) :
    ((xs.eraseIdx index ++ [new]).filterMap target).Nodup := by
  rw [List.filterMap_append, List.nodup_append]
  refine ⟨nodup_filterMap_eraseIdx halone index, by simp [hnew], ?_⟩
  intro other hother key' hkey' hsame
  obtain ⟨y, hy, htarget⟩ := List.mem_filterMap.mp hother
  have hlast : key' = key := by simpa [hnew] using hkey'
  exact target_ne_of_mem_eraseIdx halone h hkey hy (by rw [htarget, hsame, hlast])

end Keys

end InFlight
