import Mathlib.Data.List.Perm.Basic

/-! # A register overwritten by a batch

A batch of updates is applied in order; an update may write a value or leave the
register alone, so the last update that writes decides. The outcome does not
depend on the order exactly when all the updates that write agree.
-/

namespace LastWrite

variable {α β : Type*} (writes : α → Option β)

/-- The content of the register after the batch. -/
def register (b : β) (xs : List α) : β := xs.foldl (fun b x => (writes x).getD b) b

@[simp] theorem register_nil (b : β) : register writes b [] = b := rfl

theorem register_cons (b : β) (x : α) (xs : List α) :
    register writes b (x :: xs) = register writes ((writes x).getD b) xs := rfl

theorem register_append (b : β) (xs ys : List α) :
    register writes b (xs ++ ys) = register writes (register writes b xs) ys :=
  List.foldl_append

variable {writes}

theorem register_concat {x : α} {v : β} (h : writes x = some v) (b : β) (xs : List α) :
    register writes b (xs ++ [x]) = v := by
  rw [register_append, register_cons, h]
  rfl

/-- Where every update that writes writes `v`, either nothing was written or `v`. -/
theorem register_of_agree {v : β} {xs : List α}
    (h : ∀ x ∈ xs, ∀ w, writes x = some w → w = v) (b : β) :
    register writes b xs = if ∃ x ∈ xs, (writes x).isSome then v else b := by
  induction xs generalizing b with
  | nil => simp
  | cons x xs ih =>
      have hxs : ∀ y ∈ xs, ∀ w, writes y = some w → w = v := by
        intro y hy
        exact h y (List.mem_cons_of_mem _ hy)
      rw [register_cons, ih hxs]
      cases hx : writes x with
      | none => simp [hx]
      | some w =>
          have hw : w = v := h x List.mem_cons_self w hx
          simp [hx, hw]

/-- The outcome is the same for every order of the batch exactly when all the
updates that write write the same. -/
theorem register_perm_iff {xs : List α} (b : β) :
    (∀ ys, ys.Perm xs → register writes b ys = register writes b xs) ↔
      ∀ x ∈ xs, ∀ y ∈ xs, ∀ v w, writes x = some v → writes y = some w → v = w := by
  classical
  constructor
  · intro hperm x hx y hy v w hv hw
    have hlast : ∀ z ∈ xs, ∀ u, writes z = some u → register writes b xs = u := by
      intro z hz u hu
      have hp : (xs.erase z ++ [z]).Perm xs :=
        List.perm_append_comm.trans (List.perm_cons_erase hz).symm
      rw [← hperm _ hp]
      exact register_concat hu b _
    rw [← hlast x hx v hv, ← hlast y hy w hw]
  · intro hagree ys hys
    have hone : ∃ v, ∀ y ∈ xs, ∀ w, writes y = some w → w = v := by
      by_cases hsome : ∃ x ∈ xs, ∃ v, writes x = some v
      · obtain ⟨x, hx, v, hv⟩ := hsome
        exact ⟨v, fun y hy w hw => hagree y hy x hx w v hw hv⟩
      · exact ⟨b, fun y hy w hw => absurd ⟨y, hy, w, hw⟩ hsome⟩
    obtain ⟨v, hall⟩ := hone
    have hall' : ∀ y ∈ ys, ∀ w, writes y = some w → w = v := by
      intro y hy
      exact hall y (hys.mem_iff.mp hy)
    rw [register_of_agree hall, register_of_agree hall']
    simp only [hys.mem_iff]

end LastWrite
