import Mathlib.Data.List.Pairwise
import Mathlib.Data.List.Sort

/-! # One list under two orders

A list that is strictly ordered is determined by its members. Mapping one such list to
another with the same members therefore gives this other list exactly when the map takes
the first order to the second one.
-/

namespace OrderedList

variable {α β : Type*} {r : α → α → Prop} {s : β → β → Prop} {f : α → β} {l : List α}
  {l' : List β}

/-- Two members stand in the list in one of two ways, and the first order tells which. -/
theorem rel_of_pairwise_map [Std.Asymm r] (hl : l.Pairwise r) (hmap : (l.map f).Pairwise s)
    {a b : α} (ha : a ∈ l) (hb : b ∈ l) (h : r a b) : s (f a) (f b) := by
  have hboth : l.Pairwise fun a b => r a b ∧ s (f a) (f b) :=
    hl.and (List.pairwise_map.mp hmap)
  have heither : l.Pairwise fun a b => (r a b ∧ s (f a) (f b)) ∨ (r b a ∧ s (f b) (f a)) :=
    hboth.imp Or.inl
  have hne : a ≠ b := by
    intro hsame
    rw [hsame] at h
    exact Std.Asymm.asymm _ _ h h
  have : Std.Symm fun a b => (r a b ∧ s (f a) (f b)) ∨ (r b a ∧ s (f b) (f a)) :=
    ⟨fun _ _ => Or.symm⟩
  rcases heither.forall ha hb hne with ⟨_, hs⟩ | ⟨hback, _⟩
  · exact hs
  · exact absurd hback (Std.Asymm.asymm _ _ h)

theorem map_eq_iff [Std.Asymm r] [Std.Asymm s] (hl : l.Pairwise r) (hl' : l'.Pairwise s)
    (hmem : (∀ a ∈ l, ∀ b ∈ l, r a b → s (f a) (f b)) → ∀ b, b ∈ l.map f ↔ b ∈ l') :
    l.map f = l' ↔ ∀ a ∈ l, ∀ b ∈ l, r a b → s (f a) (f b) := by
  constructor
  · intro h a ha b hb hab
    exact rel_of_pairwise_map hl (h ▸ hl') ha hb hab
  · intro hmono
    have hmap : (l.map f).Pairwise s :=
      List.pairwise_map.mpr (hl.imp_of_mem fun ha hb h => hmono _ ha _ hb h)
    exact hmap.eq_of_mem_iff hl' (fun {b} => hmem hmono b)

end OrderedList
