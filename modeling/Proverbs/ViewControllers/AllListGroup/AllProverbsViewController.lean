import Proverbs.Core.OrderedList
import Proverbs.Managers.AlphabeticalOrder
import Proverbs.Utils.ColorsRandomizer

/-! # AllProverbsViewController

The screen that lists the whole catalogue. It takes the sorted catalogue apart into
sections and sorts each of them again, by the whole text and not by the sort key.
-/

namespace Proverbs

open ProverbsManager
open Unicode (normalForm contains Equivalent Less)

structure AllProverbsViewController where
  proverbs : Dictionary String (List Proverb)
  sections : List String
  sectionsColors : List UIColor

namespace AllProverbsViewController

section Screen

variable [Unicode]

/-- `sectionProverbs` of `loadData`, sorted. -/
def sectionProverbs (storage : LocalStorage RProverb) (sectionKey : String) : List Proverb :=
  ((getAll storage).filter (Equivalent ·.proverbSection sectionKey)).insertionSort fun p q =>
    normalForm (p.text storage) ≤ normalForm (q.text storage)

/-- The loop of `loadData`; `random` is what is drawn for the colour of a section. -/
def loadSections (storage : LocalStorage RProverb) (random : String → Nat) :
    AllProverbsViewController → ColorsRandomizer → List String →
      Except Trap AllProverbsViewController
  | s, _, [] => .ok s
  | s, colorsRandomizer, sectionKey :: sectionKeys =>
      (colorsRandomizer.nextRandomColor (random sectionKey)).bind fun (color, colorsRandomizer) =>
        loadSections storage random
          { s with
            proverbs := s.proverbs.set (normalForm sectionKey) (sectionProverbs storage sectionKey)
            sectionsColors := s.sectionsColors ++ [color] }
          colorsRandomizer sectionKeys

def loadData (storage : LocalStorage RProverb) (random : String → Nat)
    (s : AllProverbsViewController) : Except Trap AllProverbsViewController :=
  let sections := getAllSections storage
  (ColorsRandomizer.init sections.length).bind fun colorsRandomizer =>
    loadSections storage random { s with sections } colorsRandomizer sections

def rows (s : AllProverbsViewController) (sectionKey : String) : List Proverb :=
  (s.proverbs.value (normalForm sectionKey)).getD []

/-! ## Loading -/

section Loading

variable {storage : LocalStorage RProverb} {random : String → Nat}
  {s loaded : AllProverbsViewController} {colorsRandomizer : ColorsRandomizer}
  {sectionKeys : List String}

/-- As many colours are drawn as there are sections, whatever the rows are. -/
theorem loadSections_eq (storage : LocalStorage RProverb) (random : String → Nat)
    (s : AllProverbsViewController) (colorsRandomizer : ColorsRandomizer)
    (sectionKeys : List String) :
    loadSections storage random s colorsRandomizer sectionKeys =
      (colorsRandomizer.nextRandomColors (sectionKeys.map random)).map fun drawn =>
        { s with
          proverbs := sectionKeys.foldl
            (fun d sectionKey => d.set (normalForm sectionKey) (sectionProverbs storage sectionKey))
            s.proverbs
          sectionsColors := s.sectionsColors ++ drawn.1 } := by
  induction sectionKeys generalizing s colorsRandomizer with
  | nil => simp [loadSections, ColorsRandomizer.nextRandomColors, Except.map]
  | cons sectionKey sectionKeys ih =>
      rw [List.map_cons, loadSections]
      cases hfirst : colorsRandomizer.nextRandomColor (random sectionKey) with
      | error trap =>
          rw [ColorsRandomizer.nextRandomColors, hfirst]
          rfl
      | ok first =>
          rw [ColorsRandomizer.nextRandomColors_cons hfirst]
          simp only [Except.bind, ih]
          cases first.2.nextRandomColors (sectionKeys.map random) with
          | error trap => rfl
          | ok rest => simp [Except.map, List.append_assoc]

theorem sectionProverbs_congr {sectionKey other : String} (h : Equivalent sectionKey other) :
    sectionProverbs storage sectionKey = sectionProverbs storage other := by
  unfold sectionProverbs Equivalent
  rw [h]

theorem value_foldl_set (d : Dictionary String (List Proverb)) {sectionKey : String}
    (h : ∃ listed ∈ sectionKeys, Equivalent sectionKey listed) :
    (sectionKeys.foldl
      (fun d sectionKey => d.set (normalForm sectionKey) (sectionProverbs storage sectionKey))
      d).value (normalForm sectionKey) = some (sectionProverbs storage sectionKey) := by
  induction sectionKeys using List.reverseRecOn with
  | nil =>
      obtain ⟨_, hmem, _⟩ := h
      exact absurd hmem List.not_mem_nil
  | append_singleton sectionKeys last ih =>
      rw [List.foldl_append, List.foldl_cons, List.foldl_nil, Dictionary.value_set]
      by_cases hlast : Equivalent sectionKey last
      · rw [if_pos hlast, sectionProverbs_congr hlast]
      · rw [if_neg hlast]
        obtain ⟨listed, hmem, hsame⟩ := h
        rcases List.mem_append.mp hmem with hmem | hmem
        · exact ih ⟨listed, hmem, hsame⟩
        · exact absurd (List.mem_singleton.mp hmem ▸ hsame) hlast

def drawnColors (storage : LocalStorage RProverb) (random : String → Nat) :
    Except Trap (List UIColor × ColorsRandomizer) :=
  ColorsRandomizer.nextRandomColors
    ⟨(getAllSections storage).length, ColorsRandomizer.supply (getAllSections storage).length⟩
    ((getAllSections storage).map random)

theorem loadData_eq (storage : LocalStorage RProverb) (random : String → Nat)
    (s : AllProverbsViewController) :
    loadData storage random s = (drawnColors storage random).map fun drawn =>
      { proverbs := (getAllSections storage).foldl
          (fun d sectionKey => d.set (normalForm sectionKey) (sectionProverbs storage sectionKey))
          s.proverbs
        sections := getAllSections storage
        sectionsColors := s.sectionsColors ++ drawn.1 } := by
  unfold loadData
  simp only [ColorsRandomizer.init_eq, Except.bind, loadSections_eq]
  rfl

/-- Loading completes unless there are more sections than colours can be counted for. -/
theorem exists_loadData_iff (storage : LocalStorage RProverb) (random : String → Nat)
    (s : AllProverbsViewController) :
    (∃ loaded, loadData storage random s = .ok loaded) ↔
      (getAllSections storage).length < 4294967288 := by
  have hdraws : (∃ retColors s', drawnColors storage random = .ok (retColors, s')) ↔
      (getAllSections storage).length < 4294967288 :=
    ColorsRandomizer.exists_nextRandomColors_supply_iff (List.length_map random)
  rw [← hdraws, loadData_eq]
  cases drawnColors storage random with
  | error trap => simp [Except.map]
  | ok drawn => exact ⟨fun _ => ⟨drawn.1, drawn.2, rfl⟩, fun _ => ⟨_, rfl⟩⟩

theorem rows_loadData (h : loadData storage random s = .ok loaded) {sectionKey : String}
    (hsection : ∃ listed ∈ getAllSections storage, Equivalent sectionKey listed) :
    loaded.rows sectionKey = sectionProverbs storage sectionKey := by
  rw [loadData_eq] at h
  cases hdrawn : drawnColors storage random with
  | error trap => simp [hdrawn, Except.map] at h
  | ok drawn =>
      simp only [hdrawn, Except.map, Except.ok.injEq] at h
      rw [rows, ← h, value_foldl_set _ hsection]
      rfl

end Loading

/-! ## The two orders -/

section Agreement

variable {storage : LocalStorage RProverb}

def sectionCatalogue (storage : LocalStorage RProverb) (sectionKey : String) : List Proverb :=
  (catalogue storage).filter (Equivalent ·.proverbSection sectionKey)

/-- The texts order the two proverbs only as their sort keys do. -/
def KeysFollow (storage : LocalStorage RProverb) (p q : Proverb) : Prop :=
  Less (p.text storage) (q.text storage) →
    ∀ key ∈ sortKey (p.text storage), ∀ key' ∈ sortKey (q.text storage), Less key key'

theorem keysFollow_of_not_contains {p q : Proverb} (hp : ¬ contains (p.text storage) ")")
    (hq : ¬ contains (q.text storage) ")") : KeysFollow storage p q := by
  have hkey : sortKey (p.text storage) = some (p.text storage) := if_neg hp
  have hkey' : sortKey (q.text storage) = some (q.text storage) := if_neg hq
  intro hlt key hmem key' hmem'
  rw [hkey, Option.mem_some_iff] at hmem
  rw [hkey', Option.mem_some_iff] at hmem'
  rwa [← hmem, ← hmem']

theorem mem_sectionCatalogue {sectionKey : String} {p : Proverb} :
    p ∈ sectionCatalogue storage sectionKey ↔
      p ∈ catalogue storage ∧ Equivalent p.proverbSection sectionKey := by
  simp [sectionCatalogue]

section Rows

variable (hkeys : ∀ p ∈ catalogue storage, (sortKey (p.text storage)).isSome)
  (hplaces : ((catalogue storage).map (filedUnder storage)).Nodup) (sectionKey : String)

include hkeys hplaces

theorem perm_sectionProverbs :
    (sectionProverbs storage sectionKey).Perm (sectionCatalogue storage sectionKey) := by
  have hall : (getAll storage).Perm (catalogue storage) :=
    (perm_sortAlphabetically_iff storage (catalogue storage)).mpr ⟨hkeys, hplaces⟩
  exact (List.perm_insertionSort _ _).trans (hall.filter _)

/-- Within a section the texts are distinct, since the keys are. -/
theorem pairwise_sectionProverbs :
    (sectionProverbs storage sectionKey).Pairwise fun p q =>
      Less (p.text storage) (q.text storage) := by
  have hsorted : (sectionProverbs storage sectionKey).Pairwise
      (Order.Preimage (fun p : Proverb => normalForm (p.text storage)) (· ≤ ·)) :=
    List.pairwise_insertionSort
      (Order.Preimage (fun p : Proverb => normalForm (p.text storage)) (· ≤ ·)) _
  have hperm := perm_sectionProverbs hkeys hplaces sectionKey
  have hnodup : (sectionProverbs storage sectionKey).Nodup :=
    hperm.nodup_iff.mpr ((List.Nodup.of_map _ hplaces).filter _)
  refine (hsorted.and hnodup).imp_of_mem fun {p q} hp hq h => lt_of_le_of_ne h.1 ?_
  intro htext
  obtain ⟨hp, hpSection⟩ := mem_sectionCatalogue.mp (hperm.mem_iff.mp hp)
  obtain ⟨hq, hqSection⟩ := mem_sectionCatalogue.mp (hperm.mem_iff.mp hq)
  have hkey : originKey storage p = originKey storage q := sortKey_congr htext
  have hplace : filedUnder storage p = filedUnder storage q :=
    Prod.ext (hpSection.trans hqSection.symm) hkey
  exact h.2 (List.inj_on_of_nodup_map hplaces hp hq hplace)

theorem mem_sortAlphabetically_sectionCatalogue {p : Proverb} :
    p ∈ sortAlphabetically storage (sectionCatalogue storage sectionKey) ↔
      p ∈ sectionCatalogue storage sectionKey := by
  apply mem_sortAlphabetically_iff
  · intro q hq
    exact hkeys q (mem_sectionCatalogue.mp hq).1
  · exact hplaces.sublist (List.filter_sublist.map _)

/-- The screen and the favourites order a section alike exactly when the texts of the
section are ordered as their keys are. -/
theorem sectionProverbs_eq_iff :
    sectionProverbs storage sectionKey =
        sortAlphabetically storage (sectionCatalogue storage sectionKey) ↔
      ∀ p ∈ sectionCatalogue storage sectionKey, ∀ q ∈ sectionCatalogue storage sectionKey,
        KeysFollow storage p q := by
  have hmem : ∀ p, p ∈ sectionProverbs storage sectionKey ↔
      p ∈ sectionCatalogue storage sectionKey := fun p =>
    (perm_sectionProverbs hkeys hplaces sectionKey).mem_iff
  have : Std.Asymm fun p q : Proverb => Less (p.text storage) (q.text storage) :=
    ⟨fun _ _ => lt_asymm⟩
  have hiff := OrderedList.map_eq_iff (f := id)
    (pairwise_sectionProverbs hkeys hplaces sectionKey)
    (pairwise_sortAlphabetically storage (sectionCatalogue storage sectionKey))
    (fun _ p => by
      rw [List.map_id, hmem, mem_sortAlphabetically_sectionCatalogue hkeys hplaces])
  rw [List.map_id] at hiff
  rw [hiff]
  simp only [hmem, id_eq]
  refine forall₂_congr fun p hp => forall₂_congr fun q hq => imp_congr_right fun _ => ?_
  obtain ⟨hp, hpSection⟩ := mem_sectionCatalogue.mp hp
  obtain ⟨hq, hqSection⟩ := mem_sectionCatalogue.mp hq
  obtain ⟨key, hkey⟩ := Option.isSome_iff_exists.mp (hkeys p hp)
  obtain ⟨key', hkey'⟩ := Option.isSome_iff_exists.mp (hkeys q hq)
  rw [precedes_iff (hpSection.trans hqSection.symm) hkey hkey', hkey, hkey']
  simp

theorem exists_listed
    (hsection : sectionKey ∈ (catalogue storage).map Proverb.proverbSection) :
    ∃ listed ∈ getAllSections storage, Equivalent sectionKey listed := by
  have hall : (getAll storage).Perm (catalogue storage) :=
    (perm_sortAlphabetically_iff storage (catalogue storage)).mpr ⟨hkeys, hplaces⟩
  obtain ⟨p, hp, rfl⟩ := List.mem_map.mp hsection
  exact exists_mem_getAllSections.mpr ⟨p, hall.mem_iff.mpr hp, rfl⟩

end Rows

end Agreement

/-- Of a catalogue in which sorting loses nothing: loading completes, and the rows of every
section are its proverbs as `sortAlphabetically` orders them, exactly when the colours of
the sections can be counted and the texts of each section are ordered as their keys are. -/
theorem loadData_agrees_iff {storage : LocalStorage RProverb}
    (hkeys : ∀ p ∈ catalogue storage, (sortKey (p.text storage)).isSome)
    (hplaces : ((catalogue storage).map (filedUnder storage)).Nodup) (random : String → Nat)
    (s : AllProverbsViewController) :
    (∃ loaded, loadData storage random s = .ok loaded ∧
        ∀ sectionKey ∈ (catalogue storage).map Proverb.proverbSection,
          (loaded.rows sectionKey).Perm (sectionCatalogue storage sectionKey) ∧
            loaded.rows sectionKey =
              sortAlphabetically storage (sectionCatalogue storage sectionKey)) ↔
      (getAllSections storage).length < 4294967288 ∧
        ∀ p ∈ catalogue storage, ∀ q ∈ catalogue storage,
          Equivalent p.proverbSection q.proverbSection →
            contains (p.text storage) ")" ∨ contains (q.text storage) ")" →
              KeysFollow storage p q := by
  constructor
  · rintro ⟨loaded, h, hrows⟩
    refine ⟨(exists_loadData_iff storage random s).mp ⟨loaded, h⟩, ?_⟩
    intro p hp q hq hsame _
    have hsection : p.proverbSection ∈ (catalogue storage).map Proverb.proverbSection :=
      List.mem_map_of_mem hp
    have hequal := (hrows p.proverbSection hsection).2
    rw [rows_loadData h (exists_listed hkeys hplaces _ hsection),
      sectionProverbs_eq_iff hkeys hplaces] at hequal
    exact hequal p (mem_sectionCatalogue.mpr ⟨hp, rfl⟩) q
      (mem_sectionCatalogue.mpr ⟨hq, hsame.symm⟩)
  · rintro ⟨hcount, hfollow⟩
    obtain ⟨loaded, h⟩ := (exists_loadData_iff storage random s).mpr hcount
    refine ⟨loaded, h, ?_⟩
    intro sectionKey hsection
    rw [rows_loadData h (exists_listed hkeys hplaces _ hsection)]
    refine ⟨perm_sectionProverbs hkeys hplaces sectionKey, ?_⟩
    rw [sectionProverbs_eq_iff hkeys hplaces]
    intro p hp q hq
    obtain ⟨hp, hpSection⟩ := mem_sectionCatalogue.mp hp
    obtain ⟨hq, hqSection⟩ := mem_sectionCatalogue.mp hq
    by_cases hparenthesis : contains (p.text storage) ")" ∨ contains (q.text storage) ")"
    · exact hfollow p hp q hq (hpSection.trans hqSection.symm) hparenthesis
    · obtain ⟨hpPlain, hqPlain⟩ := not_or.mp hparenthesis
      exact keysFollow_of_not_contains hpPlain hqPlain

instance (storage : LocalStorage RProverb) (p q : Proverb) : Decidable (KeysFollow storage p q) :=
  inferInstanceAs (Decidable (_ < _ → _))

end Screen

section TwoRows

attribute [local instance] Unicode.acute

/-- A Realm with two proverbs of one section. -/
def twoOf (text other : String) : LocalStorage RProverb :=
  ⟨some (KeyedStore.putAll [⟨"1", 0, text, "", "B", false⟩, ⟨"2", 0, other, "", "B", false⟩]
    KeyedStore.empty), .commit⟩

def initial : AllProverbsViewController := ⟨KeyedStore.empty, [], []⟩

def badEgg : LocalStorage RProverb := twoOf "(A) bad egg." "(The) bane of one's life."

theorem loadData_agrees_bad_egg :
    ∃ loaded, loadData badEgg (fun _ => 3) initial = .ok loaded ∧
      ∀ sectionKey ∈ (catalogue badEgg).map Proverb.proverbSection,
        (loaded.rows sectionKey).Perm (sectionCatalogue badEgg sectionKey) ∧
          loaded.rows sectionKey = sortAlphabetically badEgg (sectionCatalogue badEgg sectionKey) :=
  (loadData_agrees_iff (by decide) (by decide) (fun _ => 3) initial).mpr (by decide)

/-- By the texts the articles are compared first, by the keys they are not. -/
theorem loadData_disagrees :
    let storage := twoOf "(A) bun in the oven." "(The) back of beyond."
    ∃ loaded, loadData storage (fun _ => 3) initial = .ok loaded ∧
      loaded.rows "B" ≠ sortAlphabetically storage (sectionCatalogue storage "B") :=
  ⟨_, rfl, by decide⟩

end TwoRows

end AllProverbsViewController

end Proverbs
