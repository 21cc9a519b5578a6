import Proverbs.Core.DrawBag
import Proverbs.Managers.InitialPopulation

/-! # Random proverbs

While its writes succeed, `getNextRandom` draws from a bag: the proverbs that are not
viewed are its content, and all are put back when fewer than ten of them are left. The
laws of such a bag are then laws of the catalogue.
-/

namespace Proverbs.Catalogue

open DrawBag

/-- The calls of `getNextRandom` with these choices and successful writes: whether each
one marked all proverbs as unviewed, what it returned, and how many it left unviewed. -/
def draws : Catalogue → List Nat → Option (List (Draw RProverb))
  | _, [] => some []
  | s, choice :: choices =>
      (s.getNextRandom choice false false).bind fun (s', retProverb) =>
        (s'.draws choices).map fun rest =>
          { refilled := decide
              ((ProverbsStorage.getAllUnviewed (s.proverbsStorage false)).length < 10)
            item := retProverb
            left := (ProverbsStorage.getAllUnviewed (s'.proverbsStorage false)).length } :: rest

/-! ## The bag -/

def allProverbs (s : Catalogue) : Finset Identifier :=
  (s.file.entries.map RProverb.identifier).toFinset

def unviewed (s : Catalogue) : Finset Identifier :=
  ((s.file.entries.filter fun proverb => !proverb.viewed).map RProverb.identifier).toFinset

section Bag

variable {s s' : Catalogue} {identifier : Identifier}

theorem mem_allProverbs :
    identifier ∈ s.allProverbs ↔ ∃ proverb ∈ s.file.entries, proverb.identifier = identifier := by
  simp [allProverbs]

theorem mem_unviewed :
    identifier ∈ s.unviewed ↔
      ∃ proverb ∈ s.file.entries, proverb.viewed = false ∧ proverb.identifier = identifier := by
  simp [unviewed, and_assoc]

theorem unviewed_subset (s : Catalogue) : s.unviewed ⊆ s.allProverbs := by
  intro identifier h
  obtain ⟨proverb, hmem, _, hidentifier⟩ := mem_unviewed.mp h
  exact mem_allProverbs.mpr ⟨proverb, hmem, hidentifier⟩

/-- Identifiers are distinct, so counting them counts the proverbs. -/
theorem card_allProverbs (s : Catalogue) : s.allProverbs.card = s.file.entries.length := by
  have hnodup : (s.file.entries.map RProverb.identifier).Nodup := s.file.nodup
  rw [allProverbs, List.toFinset_card_of_nodup hnodup, List.length_map]

theorem card_unviewed (hopened : s.opened = true) :
    s.unviewed.card = (ProverbsStorage.getAllUnviewed (s.proverbsStorage false)).length := by
  have hnodup : ((s.file.entries.filter fun proverb => !proverb.viewed).map
      RProverb.identifier).Nodup := s.file.nodup.sublist (List.filter_sublist.map _)
  rw [getAllUnviewed_eq hopened, unviewed, List.toFinset_card_of_nodup hnodup, List.length_map]

end Bag

/-! ## One call -/

section Call

variable {s s' : Catalogue} {choice : Nat} {retProverb : RProverb}

def refilled (s : Catalogue) : Catalogue :=
  if (ProverbsStorage.getAllUnviewed (s.proverbsStorage false)).length < 10 then
    s.stored (ProverbsStorage.markAllAsUnviewed (s.proverbsStorage false))
  else s

theorem opened_refilled : s.refilled.opened = s.opened := by
  unfold refilled
  split <;> rfl

theorem getNextRandom_eq (s : Catalogue) (choice : Nat) :
    s.getNextRandom choice false false =
      let proverbs := ProverbsStorage.getAllUnviewed (s.refilled.proverbsStorage false)
      proverbs[choice % proverbs.length]?.map fun retProverb =>
        (s.refilled.stored
          (ProverbsStorage.markAsViewed (s.refilled.proverbsStorage false) retProverb),
          retProverb) := rfl

theorem allProverbs_refilled (hopened : s.opened = true) :
    s.refilled.allProverbs = s.allProverbs := by
  unfold refilled
  split
  · rw [allProverbs, entries_markAllAsUnviewed hopened]
    simp [allProverbs, Function.comp_def]
  · rfl

theorem unviewed_refilled (hopened : s.opened = true) :
    s.refilled.unviewed = refill s.allProverbs 10 s.unviewed := by
  unfold refilled refill
  rw [card_unviewed hopened]
  split
  · ext identifier
    rw [mem_unviewed, entries_markAllAsUnviewed hopened, mem_allProverbs]
    simp
  · rfl

theorem entries_markAsViewed (hopened : s.opened = true) (proverb : RProverb) :
    (s.stored (ProverbsStorage.markAsViewed (s.proverbsStorage false) proverb)).file.entries =
      s.file.entries.map fun other =>
        if other.identifier = proverb.identifier then { other with viewed := true } else other := by
  simp [stored, ProverbsStorage.markAsViewed, LocalStorage.realmWrite, proverbsStorage, hopened,
    KeyedStore.modify]

theorem unviewed_markAsViewed (hopened : s.opened = true) (proverb : RProverb) :
    (s.stored (ProverbsStorage.markAsViewed (s.proverbsStorage false) proverb)).unviewed =
      s.unviewed.erase proverb.identifier := by
  ext identifier
  rw [mem_unviewed, entries_markAsViewed hopened, Finset.mem_erase, mem_unviewed]
  constructor
  · rintro ⟨marked, hmem, hviewed, rfl⟩
    obtain ⟨other, hother, rfl⟩ := List.mem_map.mp hmem
    split at hviewed
    · simp at hviewed
    · rename_i hne
      simp only [if_neg hne]
      exact ⟨hne, other, hother, hviewed, rfl⟩
  · rintro ⟨hne, other, hother, hviewed, rfl⟩
    refine ⟨other, List.mem_map.mpr ⟨other, hother, if_neg hne⟩, hviewed, rfl⟩

theorem allProverbs_markAsViewed (hopened : s.opened = true) (proverb : RProverb) :
    (s.stored (ProverbsStorage.markAsViewed (s.proverbsStorage false) proverb)).allProverbs =
      s.allProverbs := by
  unfold allProverbs
  rw [entries_markAsViewed hopened, List.map_map]
  congr 1
  apply List.map_congr_left
  intro other _
  simp only [Function.comp_apply]
  split <;> rfl

/-- A call draws from the bag: one of its proverbs is returned and taken out. -/
theorem getNextRandom_draws (hopened : s.opened = true)
    (h : s.getNextRandom choice false false = some (s', retProverb)) :
    s'.opened = true ∧ s'.allProverbs = s.allProverbs ∧
      retProverb.identifier ∈ refill s.allProverbs 10 s.unviewed ∧
      s'.unviewed = (refill s.allProverbs 10 s.unviewed).erase retProverb.identifier := by
  have hopened' : s.refilled.opened = true := opened_refilled.trans hopened
  rw [getNextRandom_eq] at h
  obtain ⟨drawn, hdrawn, hp⟩ := Option.map_eq_some_iff.mp h
  rw [Prod.mk.injEq] at hp
  obtain ⟨rfl, rfl⟩ := hp
  rw [← unviewed_refilled hopened]
  refine ⟨hopened', ?_, ?_, unviewed_markAsViewed hopened' drawn⟩
  · rw [allProverbs_markAsViewed hopened', allProverbs_refilled hopened]
  · have hmem := List.mem_of_getElem? hdrawn
    rw [getAllUnviewed_eq hopened'] at hmem
    obtain ⟨hentry, hviewed⟩ := List.mem_filter.mp hmem
    exact mem_unviewed.mpr ⟨drawn, hentry, by simpa using hviewed, rfl⟩

/-- After a reset the choice is an index into the whole catalogue. -/
theorem getNextRandom_reset (hopened : s.opened = true)
    (hfew : (ProverbsStorage.getAllUnviewed (s.proverbsStorage false)).length < 10)
    (choice : Nat) :
    (s.getNextRandom choice false false).map (fun drawn => drawn.2.identifier) =
      s.file.entries[choice % s.file.entries.length]?.map RProverb.identifier := by
  have hopened' : s.refilled.opened = true := opened_refilled.trans hopened
  have hentries : s.refilled.file.entries =
      s.file.entries.map fun proverb => { proverb with viewed := false } := by
    unfold refilled
    rw [if_pos hfew, entries_markAllAsUnviewed hopened]
    rfl
  have hall : ProverbsStorage.getAllUnviewed (s.refilled.proverbsStorage false) =
      s.file.entries.map fun proverb => { proverb with viewed := false } := by
    rw [getAllUnviewed_eq hopened', hentries, List.filter_eq_self]
    intro proverb hmem
    obtain ⟨other, _, rfl⟩ := List.mem_map.mp hmem
    rfl
  rw [getNextRandom_eq]
  simp only [hall, List.length_map, List.getElem?_map, Option.map_map]
  rfl

theorem length_getNextRandom (hopened : s.opened = true)
    (h : s.getNextRandom choice false false = some (s', retProverb)) :
    s'.file.entries.length = s.file.entries.length := by
  obtain ⟨_, hall, _⟩ := getNextRandom_draws hopened h
  rw [← card_allProverbs, hall, card_allProverbs]

end Call

/-! ## Sequences of calls -/

section Calls

variable {s : Catalogue} {choices : List Nat}

theorem draws_isSome (hopened : s.opened = true) (hsome : 1 ≤ s.file.entries.length)
    (choices : List Nat) : ∃ drawn, s.draws choices = some drawn := by
  induction choices generalizing s with
  | nil => exact ⟨[], rfl⟩
  | cons choice choices ih =>
      have hne : s.file.entries ≠ [] := List.ne_nil_of_length_pos hsome
      obtain ⟨⟨s', retProverb⟩, hcall⟩ := Option.isSome_iff_exists.mp <|
        (getNextRandom_isSome hopened choice false false).mpr (Or.inr ⟨rfl, hne⟩)
      have hlength := length_getNextRandom hopened hcall
      obtain ⟨rest, hrest⟩ := ih (getNextRandom_draws hopened hcall).1 (by omega)
      apply Option.isSome_iff_exists.mp
      simp only [draws, hcall, Option.bind_some, hrest, Option.map_some, Option.isSome_some]

/-- The calls are draws from the bag of the proverbs that are not viewed. -/
theorem draws_follow (hopened : s.opened = true) {drawn : List (Draw RProverb)}
    (h : s.draws choices = some drawn) :
    Follow s.allProverbs 10 s.unviewed (drawn.map (Draw.map RProverb.identifier)) := by
  induction choices generalizing s drawn with
  | nil =>
      obtain rfl := Option.some.inj h
      trivial
  | cons choice choices ih =>
      obtain ⟨⟨s', retProverb⟩, hcall, hrest⟩ := Option.bind_eq_some_iff.mp h
      obtain ⟨rest, hdraws, rfl⟩ := Option.map_eq_some_iff.mp hrest
      obtain ⟨hopened', hall, hmem, hleft⟩ := getNextRandom_draws hopened hcall
      have hlater := ih hopened' hdraws
      rw [hall, hleft] at hlater
      refine ⟨?_, hmem, ?_, hlater⟩
      · rw [card_unviewed hopened]
        rfl
      · rw [Draw.left_map, Draw.item_map, ← hleft, card_unviewed hopened']

end Calls

/-- With at least one proverb no call traps; with ten or more, every call leaves at least
nine and at most all but one unviewed, and the calls from one reset up to the next return
distinct proverbs, all but nine of the catalogue's number. -/
theorem random_cycle {s : Catalogue} (hopened : s.opened = true) (choices : List Nat) :
    (1 ≤ s.file.entries.length → ∃ drawn, s.draws choices = some drawn) ∧
      (10 ≤ s.file.entries.length → ∀ drawn, s.draws choices = some drawn →
        (∀ draw ∈ drawn, 9 ≤ draw.left ∧ draw.left ≤ s.file.entries.length - 1) ∧
          ∀ before first middle next later,
            drawn = before ++ first :: (middle ++ next :: later) → first.refilled = true →
              (∀ draw ∈ middle, draw.refilled = false) → next.refilled = true →
                ((first :: middle).map fun draw => draw.item.identifier).Nodup ∧
                  (first :: middle).length = s.file.entries.length - 9) := by
  refine ⟨fun hsome => draws_isSome hopened hsome choices, fun hten drawn h => ?_⟩
  have hcard := card_allProverbs s
  have hall : 10 ≤ s.allProverbs.card := hcard.symm ▸ hten
  have hfollow := draws_follow hopened h
  constructor
  · intro draw hdraw
    have hbounds := hfollow.left_bounds hall (unviewed_subset s) _ (List.mem_map_of_mem hdraw)
    rw [Draw.left_map] at hbounds
    omega
  · rintro before first middle next later rfl hfirst hmiddle hnext
    simp only [List.map_append, List.map_cons] at hfollow
    obtain ⟨hnodup, hlength⟩ := hfollow.cycle hall (unviewed_subset s) hfirst
      (by
        intro draw hdraw
        obtain ⟨other, hother, rfl⟩ := List.mem_map.mp hdraw
        exact hmiddle other hother)
      hnext
    rw [← List.map_cons, List.map_map] at hnodup
    rw [← List.map_cons, List.length_map] at hlength
    exact ⟨hnodup, by omega⟩

def elevenProverbs : Catalogue where
  isInitialPopulated := true
  file := KeyedStore.putAll
    (["a", "b", "c", "d", "e", "f", "g", "h", "i", "j", "k"].map fun identifier =>
      ⟨identifier, 0, "", "", "", identifier = "a"⟩) KeyedStore.empty
  opened := true

theorem random_cycle_eleven :
    ∃ drawn, elevenProverbs.draws [0, 3, 5] = some drawn ∧
      ∀ draw ∈ drawn, 9 ≤ draw.left ∧ draw.left ≤ 10 := by
  obtain ⟨hdraws, hcycle⟩ := random_cycle (s := elevenProverbs) rfl [0, 3, 5]
  obtain ⟨drawn, hdrawn⟩ := hdraws (by decide)
  exact ⟨drawn, hdrawn, (hcycle (by decide) drawn hdrawn).1⟩

end Proverbs.Catalogue
