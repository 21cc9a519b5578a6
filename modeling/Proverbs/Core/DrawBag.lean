import Mathlib.Data.Finset.Card

/-! # Drawing from a bag

Items are taken out of a bag one at a time. A bag that has fallen below a threshold is
filled with all items again before the next draw, so a bag never runs empty. The draws
from one refill to the next are then distinct, and their number is fixed.
-/

namespace DrawBag

/-- One draw: whether the bag was refilled for it, what came out, and how many items
were left. -/
structure Draw (α : Type*) where
  refilled : Bool
  item : α
  left : ℕ
deriving DecidableEq

namespace Draw

def map {α β : Type*} (f : α → β) (draw : Draw α) : Draw β :=
  ⟨draw.refilled, f draw.item, draw.left⟩

@[simp] theorem refilled_map {α β : Type*} (f : α → β) (draw : Draw α) :
    (draw.map f).refilled = draw.refilled := rfl

@[simp] theorem item_map {α β : Type*} (f : α → β) (draw : Draw α) :
    (draw.map f).item = f draw.item := rfl

@[simp] theorem left_map {α β : Type*} (f : α → β) (draw : Draw α) :
    (draw.map f).left = draw.left := rfl

end Draw

variable {α : Type*} {all bag : Finset α} {threshold : ℕ}

/-! ## One draw -/

def refill (all : Finset α) (threshold : ℕ) (bag : Finset α) : Finset α :=
  if bag.card < threshold then all else bag

theorem refill_of_le (h : threshold ≤ bag.card) : refill all threshold bag = bag :=
  if_neg (Nat.not_lt.mpr h)

theorem refill_of_lt (h : bag.card < threshold) : refill all threshold bag = all := if_pos h

theorem refill_subset (h : bag ⊆ all) : refill all threshold bag ⊆ all := by
  unfold refill
  split
  · exact Finset.Subset.refl all
  · exact h

theorem le_card_refill (h : threshold ≤ all.card) :
    threshold ≤ (refill all threshold bag).card := by
  unfold refill
  split
  · exact h
  · omega

variable [DecidableEq α]

theorem card_erase_refill {x : α} (h : x ∈ refill all threshold bag) :
    ((refill all threshold bag).erase x).card + 1 = (refill all threshold bag).card :=
  Finset.card_erase_add_one h

/-! ## Sequences of draws -/

/-- The draws may follow each other from this bag on. -/
def Follow (all : Finset α) (threshold : ℕ) : Finset α → List (Draw α) → Prop
  | _, [] => True
  | bag, draw :: draws =>
      draw.refilled = decide (bag.card < threshold) ∧ draw.item ∈ refill all threshold bag ∧
        draw.left = ((refill all threshold bag).erase draw.item).card ∧
        Follow all threshold ((refill all threshold bag).erase draw.item) draws

variable {draws before middle later : List (Draw α)} {first next : Draw α}

namespace Follow

theorem of_append (hbag : bag ⊆ all) (h : Follow all threshold bag (before ++ later)) :
    ∃ rest ⊆ all, Follow all threshold rest later := by
  induction before generalizing bag with
  | nil => exact ⟨bag, hbag, h⟩
  | cons draw before ih =>
      obtain ⟨_, _, _, hrest⟩ := h
      exact ih ((Finset.erase_subset _ _).trans (refill_subset hbag)) hrest

/-- What is left lies between one less than the threshold and one less than all. -/
theorem left_bounds (hall : threshold ≤ all.card) (hbag : bag ⊆ all)
    (h : Follow all threshold bag draws) :
    ∀ draw ∈ draws, threshold ≤ draw.left + 1 ∧ draw.left + 1 ≤ all.card := by
  induction draws generalizing bag with
  | nil => simp
  | cons draw draws ih =>
      obtain ⟨_, hitem, hleft, hrest⟩ := h
      have hcard := card_erase_refill hitem
      have hlower : threshold ≤ (refill all threshold bag).card := le_card_refill hall
      have hupper : (refill all threshold bag).card ≤ all.card :=
        Finset.card_le_card (refill_subset hbag)
      intro other hother
      rcases List.mem_cons.mp hother with rfl | hother
      · omega
      · exact ih ((Finset.erase_subset _ _).trans (refill_subset hbag)) hrest other hother

/-- Draws without a refill take distinct items out of the bag, and the next refill
comes when one item less than the threshold is left. -/
theorem until_refill (hbag : threshold ≤ bag.card + 1)
    (h : Follow all threshold bag (middle ++ next :: later))
    (hmiddle : ∀ draw ∈ middle, draw.refilled = false) (hnext : next.refilled = true) :
    middle.length + threshold = bag.card + 1 ∧ (middle.map Draw.item).Nodup ∧
      ∀ draw ∈ middle, draw.item ∈ bag := by
  induction middle generalizing bag with
  | nil =>
      have hlow : bag.card < threshold := of_decide_eq_true (h.1.symm.trans hnext)
      refine ⟨?_, List.nodup_nil, by simp⟩
      rw [List.length_nil]
      omega
  | cons draw middle ih =>
      obtain ⟨hrefilled, hitem, _, hrest⟩ := h
      have henough : threshold ≤ bag.card := by
        have hnot : ¬ bag.card < threshold :=
          of_decide_eq_false (hrefilled.symm.trans (hmiddle draw List.mem_cons_self))
        omega
      rw [refill_of_le henough] at hitem hrest
      have hcard := Finset.card_erase_add_one hitem
      obtain ⟨hlength, hnodup, hmem⟩ := ih (by omega) hrest
        fun other hother => hmiddle other (List.mem_cons_of_mem _ hother)
      refine ⟨?_, ?_, ?_⟩
      · rw [List.length_cons]
        omega
      · rw [List.map_cons, List.nodup_cons]
        refine ⟨fun hagain => ?_, hnodup⟩
        obtain ⟨other, hother, hsame⟩ := List.mem_map.mp hagain
        exact absurd hsame (Finset.ne_of_mem_erase (hmem other hother))
      · intro other hother
        rcases List.mem_cons.mp hother with rfl | hother
        · exact hitem
        · exact Finset.mem_of_mem_erase (hmem other hother)

/-- From a refill up to the next one: the items are distinct, and there are as many of
them as are above the threshold, and one more. -/
theorem cycle (hall : threshold ≤ all.card) (hbag : bag ⊆ all)
    (h : Follow all threshold bag (before ++ first :: (middle ++ next :: later)))
    (hfirst : first.refilled = true) (hmiddle : ∀ draw ∈ middle, draw.refilled = false)
    (hnext : next.refilled = true) :
    ((first :: middle).map Draw.item).Nodup ∧
      (first :: middle).length + threshold = all.card + 1 := by
  obtain ⟨rest, _, hrefilled, hitem, _, hrest⟩ := of_append hbag h
  have hlow : rest.card < threshold := of_decide_eq_true (hrefilled.symm.trans hfirst)
  rw [refill_of_lt hlow] at hitem hrest
  have hcard := Finset.card_erase_add_one hitem
  obtain ⟨hlength, hnodup, hmem⟩ := until_refill (by omega) hrest hmiddle hnext
  constructor
  · rw [List.map_cons, List.nodup_cons]
    refine ⟨fun hagain => ?_, hnodup⟩
    obtain ⟨other, hother, hsame⟩ := List.mem_map.mp hagain
    exact absurd hsame (Finset.ne_of_mem_erase (hmem other hother))
  · rw [List.length_cons]
    omega

end Follow

end DrawBag
