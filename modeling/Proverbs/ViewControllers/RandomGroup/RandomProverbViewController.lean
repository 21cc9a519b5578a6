import Proverbs.Core.Transition
import Proverbs.Managers.RandomProverb

/-! # RandomProverbViewController

The screen that shows one random proverb after the other. What it shows has been marked
as viewed, so the next proverb is another one, unless the call forgets all marks first:
it does so with the shown proverb among those it draws from.
-/

namespace Proverbs

structure RandomProverbViewController where
  catalogue : Catalogue
  currentProverb : Option RProverb

namespace RandomProverbViewController

/-- `showNextProverb`, with successful writes; `choice` is the index `randomElement`
draws. -/
def showNextProverb (s : RandomProverbViewController) (choice : Nat) :
    Option RandomProverbViewController :=
  (s.catalogue.getNextRandom choice false false).map fun (catalogue, proverb) =>
    ⟨catalogue, some proverb⟩

def ShowsElse (s : RandomProverbViewController) (choice : Nat) : Prop :=
  ∀ s', s.showNextProverb choice = some s' →
    ∀ shown ∈ s.currentProverb, ∀ next ∈ s'.currentProverb, next.identifier ≠ shown.identifier

/-- When fewer than ten proverbs are unviewed, the choice misses the place of the shown
one in the catalogue. -/
def ChoiceMisses (s : RandomProverbViewController) (choice : Nat) : Prop :=
  (ProverbsStorage.getAllUnviewed (s.catalogue.proverbsStorage false)).length < 10 →
    ∀ shown ∈ s.currentProverb,
      s.catalogue.file.entries[choice % s.catalogue.file.entries.length]?.map
        RProverb.identifier ≠ some shown.identifier

/-- The invariant: the catalogue is open, and the proverb on the screen is viewed. -/
structure ShownIsViewed (s : RandomProverbViewController) : Prop where
  opened : s.catalogue.opened = true
  viewed : ∀ shown ∈ s.currentProverb, shown.identifier ∉ s.catalogue.unviewed

section Steps

variable {s s' : RandomProverbViewController} {choice : Nat}

theorem showNextProverb_eq_some :
    s.showNextProverb choice = some s' ↔ ∃ catalogue proverb,
      s.catalogue.getNextRandom choice false false = some (catalogue, proverb) ∧
        (⟨catalogue, some proverb⟩ : RandomProverbViewController) = s' := by
  simp [showNextProverb]

theorem shownIsViewed_step (hs : s.ShownIsViewed) (h : s.showNextProverb choice = some s') :
    s'.ShownIsViewed := by
  obtain ⟨catalogue, proverb, hdrawn, rfl⟩ := showNextProverb_eq_some.mp h
  obtain ⟨hopened, _, _, hleft⟩ := Catalogue.getNextRandom_draws hs.opened hdrawn
  refine ⟨hopened, fun shown hshown => ?_⟩
  obtain rfl := Option.some.inj hshown
  rw [hleft]
  exact Finset.notMem_erase _ _

theorem showsElse_iff (hs : s.ShownIsViewed) : s.ShowsElse choice ↔ s.ChoiceMisses choice := by
  have hreset : (ProverbsStorage.getAllUnviewed (s.catalogue.proverbsStorage false)).length < 10 →
      ∀ catalogue proverb,
        s.catalogue.getNextRandom choice false false = some (catalogue, proverb) →
          s.catalogue.file.entries[choice % s.catalogue.file.entries.length]?.map
            RProverb.identifier = some proverb.identifier := by
    intro hfew catalogue proverb hdrawn
    rw [← Catalogue.getNextRandom_reset hs.opened hfew, hdrawn]
    rfl
  constructor
  · intro helse hfew shown hshown hplace
    have hsome := Catalogue.getNextRandom_reset hs.opened hfew choice
    rw [hplace] at hsome
    obtain ⟨⟨catalogue, proverb⟩, hdrawn, hsame⟩ := Option.map_eq_some_iff.mp hsome
    have hstep := showNextProverb_eq_some.mpr ⟨catalogue, proverb, hdrawn, rfl⟩
    exact helse _ hstep shown hshown proverb rfl hsame
  · intro hmisses s' h shown hshown next hnext hsame
    obtain ⟨catalogue, proverb, hdrawn, rfl⟩ := showNextProverb_eq_some.mp h
    obtain rfl := Option.some.inj hnext
    by_cases hfew : (ProverbsStorage.getAllUnviewed
        (s.catalogue.proverbsStorage false)).length < 10
    · exact hmisses hfew shown hshown (hsame ▸ hreset hfew catalogue proverb hdrawn)
    · obtain ⟨_, _, hmem, _⟩ := Catalogue.getNextRandom_draws hs.opened hdrawn
      have henough : 10 ≤ s.catalogue.unviewed.card := by
        rw [Catalogue.card_unviewed hs.opened]
        omega
      rw [DrawBag.refill_of_le henough, hsame] at hmem
      exact hs.viewed shown hshown hmem

end Steps

/-- From an open catalogue on, with any proverbs viewed: every proverb shown differs from
the one before it exactly when at every reset the choice misses the shown one. -/
theorem shows_else_along_iff {catalogue : Catalogue} (hopened : catalogue.opened = true)
    (choices : List Nat) :
    Transition.Along showNextProverb ShowsElse ⟨catalogue, none⟩ choices ↔
      Transition.Along showNextProverb ChoiceMisses ⟨catalogue, none⟩ choices := by
  apply Transition.along_congr (I := ShownIsViewed)
  · intro s choice _ s' hs _ h
    exact shownIsViewed_step hs h
  · intro s choice _ hs
    exact showsElse_iff hs
  · exact ⟨hopened, by simp⟩

def twoProverbs : Catalogue where
  isInitialPopulated := true
  file := KeyedStore.putAll [⟨"1", 0, "one", "", "A", false⟩, ⟨"2", 0, "two", "", "A", false⟩]
    KeyedStore.empty
  opened := true

instance (s : RandomProverbViewController) (choice : Nat) : Decidable (s.ChoiceMisses choice) :=
  inferInstanceAs (Decidable (_ → ∀ shown ∈ s.currentProverb, _ ≠ some shown.identifier))

theorem shows_else_along_turns :
    Transition.Along showNextProverb ShowsElse ⟨twoProverbs, none⟩ [0, 1, 0] :=
  (shows_else_along_iff rfl [0, 1, 0]).mpr (by decide)

/-- Both calls forget what has been viewed, and both choose the first proverb. -/
theorem reset_shows_again :
    ¬ Transition.Along showNextProverb ShowsElse ⟨twoProverbs, none⟩ [0, 0] := by
  intro h
  have hsecond := (h.2 _ rfl).1 _ rfl _ rfl _ rfl
  exact hsecond rfl

end RandomProverbViewController

end Proverbs
