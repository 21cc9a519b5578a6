import Mathlib.Data.Finset.Card
import Mathlib.Data.Finset.Insert

/-! # A set with a capacity, and the lists that represent it

A toggle removes an element that is there and adds one that is not, unless the
set is restricted and full. A list of records represents the set of the values of
one of its fields; while these values are distinct, the operations on the list
are the operations on the set.
-/

namespace CappedSet

variable {α β κ : Type*} [DecidableEq α]

inductive Answer where
  | removed
  | added
  | full
deriving DecidableEq, Repr

def toggle (cap : Nat) (restricted : Bool) (a : α) (S : Finset α) : Finset α × Answer :=
  if a ∈ S then (S.erase a, .removed)
  else if restricted = true ∧ cap ≤ S.card then (S, .full)
  else (insert a S, .added)

theorem toggle_of_mem {cap : Nat} {restricted : Bool} {a : α} {S : Finset α} (h : a ∈ S) :
    toggle cap restricted a S = (S.erase a, .removed) := if_pos h

theorem toggle_of_full {cap : Nat} {restricted : Bool} {a : α} {S : Finset α} (h : a ∉ S)
    (hfull : restricted = true ∧ cap ≤ S.card) : toggle cap restricted a S = (S, .full) := by
  rw [toggle, if_neg h, if_pos hfull]

theorem toggle_of_room {cap : Nat} {restricted : Bool} {a : α} {S : Finset α} (h : a ∉ S)
    (hroom : ¬ (restricted = true ∧ cap ≤ S.card)) :
    toggle cap restricted a S = (insert a S, .added) := by
  rw [toggle, if_neg h, if_neg hroom]

/-! ## Representation by a list of records -/

/-- The values of the field `index` over the records. -/
def members (index : β → α) (xs : List β) : Finset α := (xs.map index).toFinset

variable {index : β → α} {xs : List β}

theorem mem_members {a : α} : a ∈ members index xs ↔ ∃ x ∈ xs, index x = a := by
  simp [members]

theorem card_members (h : (xs.map index).Nodup) : (members index xs).card = xs.length := by
  rw [members, List.toFinset_card_of_nodup h, List.length_map]

theorem members_concat (x : β) :
    members index (xs ++ [x]) = insert (index x) (members index xs) := by
  ext a
  simp [members, eq_comm]

theorem nodup_concat (h : (xs.map index).Nodup) {x : β} (hx : index x ∉ members index xs) :
    ((xs ++ [x]).map index).Nodup := by
  rw [List.map_append, List.nodup_append]
  refine ⟨h, by simp, ?_⟩
  intro a ha b hb
  rw [List.map_singleton, List.mem_singleton] at hb
  rw [hb]
  exact fun e => hx (e ▸ List.mem_toFinset.mpr ha)

/-- Removing a record by its key removes its value, both being unique. -/
theorem members_filter_ne {key : β → κ} [DecidableEq κ] (hkey : (xs.map key).Nodup)
    (hindex : (xs.map index).Nodup) {x : β} (hx : x ∈ xs) :
    members index (xs.filter fun y => key y ≠ key x) = (members index xs).erase (index x) := by
  ext a
  simp only [mem_members, Finset.mem_erase, List.mem_filter, decide_eq_true_eq]
  constructor
  · rintro ⟨y, ⟨hy, hne⟩, rfl⟩
    refine ⟨fun e => hne ?_, y, hy, rfl⟩
    rw [List.inj_on_of_nodup_map hindex hy hx e]
  · rintro ⟨hne, y, hy, rfl⟩
    refine ⟨y, ⟨hy, fun e => hne ?_⟩, rfl⟩
    rw [List.inj_on_of_nodup_map hkey hy hx e]

end CappedSet
