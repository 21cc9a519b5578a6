import Proverbs.Core.Table
import Proverbs.ViewControllers.AllListGroup.AllProverbsViewController

/-! # The table of all proverbs

What the screen answers the table: how many sections and rows there are, the header of a
section, the cell at an index path, and what a tap on it opens. Subscripts out of range
trap. After loading, the cells are the catalogue as `getAll` returns it, every proverb
once; where sorting loses nothing, that is the whole catalogue.
-/

namespace Proverbs

open ProverbsManager
open Table (IndexPath indexPaths)
open Unicode (normalForm Equivalent Less)

namespace AllProverbsViewController

section Table

variable [Unicode]

structure Header where
  titleLabel : String
  backgroundColor : UIColor
deriving DecidableEq, Repr

structure ProverbListTableViewCell where
  proverbLabel : String
  meaningLabel : String
deriving DecidableEq, Repr

/-- The `ProverbViewController` a tap pushes. -/
structure Details where
  proverb : Proverb
  backButtonColor : UIColor
deriving DecidableEq, Repr

def subscript {α : Type} (xs : List α) (index : Nat) : Except Trap α :=
  match xs[index]? with
  | some x => .ok x
  | none => .error .rangeOutOfBounds

def numberOfSections (s : AllProverbsViewController) : Nat := s.sections.length

def numberOfRowsInSection (s : AllProverbsViewController) (index : Nat) : Except Trap Nat :=
  (subscript s.sections index).map fun sectionKey =>
    ((s.proverbs.value (normalForm sectionKey)).map List.length).getD 0

/-- `createView(forSection:)`. -/
def viewForHeaderInSection (s : AllProverbsViewController) (index : Nat) : Except Trap Header :=
  (subscript s.sectionsColors index).bind fun color =>
    (subscript s.sections index).map fun title => ⟨title, color⟩

def sectionIndexTitles (s : AllProverbsViewController) : List String := s.sections

/-- `self.proverbs[self.sections[section]]?[row]`. -/
def proverbAt (s : AllProverbsViewController) (indexPath : IndexPath) :
    Except Trap (Option Proverb) :=
  (subscript s.sections indexPath.sectionIndex).bind fun sectionKey =>
    match s.proverbs.value (normalForm sectionKey) with
    | none => .ok none
    | some sectionProverbs => (subscript sectionProverbs indexPath.row).map some

def cellForRowAt (storage : LocalStorage RProverb) (s : AllProverbsViewController)
    (indexPath : IndexPath) : Except Trap (Option ProverbListTableViewCell) :=
  (s.proverbAt indexPath).map fun proverb =>
    proverb.map fun proverb => ⟨proverb.text storage, proverb.meaning storage⟩

/-- The screen of a proverb takes the colour of the first section in sight. -/
def didSelectRowAt (s : AllProverbsViewController) (indexPath : IndexPath)
    (firstVisible : Option Nat) : Except Trap (Option Details) :=
  (s.proverbAt indexPath).bind fun proverb =>
    match proverb with
    | none => .ok none
    | some proverb =>
        (subscript s.sectionsColors (firstVisible.getD 0)).map fun color => some ⟨proverb, color⟩

/-! ## After loading -/

section Loaded

variable {storage : LocalStorage RProverb} {random : String → Nat}
  {loaded : AllProverbsViewController}

omit [Unicode] in
theorem subscript_of_getElem? {α : Type} {xs : List α} {index : Nat} {x : α}
    (h : xs[index]? = some x) : subscript xs index = .ok x := by
  rw [subscript, h]

omit [Unicode] in
theorem exists_subscript {α : Type} {xs : List α} {index : Nat} (h : index < xs.length) :
    ∃ x ∈ xs, xs[index]? = some x ∧ subscript xs index = .ok x :=
  ⟨xs[index], List.getElem_mem h, List.getElem?_eq_getElem h,
    subscript_of_getElem? (List.getElem?_eq_getElem h)⟩

theorem mem_sectionProverbs {sectionKey : String} {p : Proverb} :
    p ∈ sectionProverbs storage sectionKey ↔
      p ∈ getAll storage ∧ Equivalent p.proverbSection sectionKey := by
  simp [sectionProverbs]

theorem loaded_spec (h : loadData storage random initial = .ok loaded) :
    loaded.sections = getAllSections storage ∧
      loaded.sectionsColors.length = (getAllSections storage).length ∧
      ∀ sectionKey ∈ getAllSections storage,
        loaded.proverbs.value (normalForm sectionKey) =
          some (sectionProverbs storage sectionKey) := by
  rw [loadData_eq] at h
  cases hdrawn : drawnColors storage random with
  | error trap => simp [hdrawn, Except.map] at h
  | ok drawn =>
      have hlength : drawn.1.length = ((getAllSections storage).map random).length :=
        ColorsRandomizer.length_nextRandomColors hdrawn
      simp only [hdrawn, Except.map, Except.ok.injEq] at h
      rw [← h]
      refine ⟨rfl, ?_, fun sectionKey hsection => value_foldl_set _ ⟨_, hsection, rfl⟩⟩
      simpa [initial] using hlength

def tableProverbs (storage : LocalStorage RProverb) : List Proverb :=
  (getAllSections storage).flatMap (sectionProverbs storage)

theorem perm_tableProverbs (storage : LocalStorage RProverb) :
    (tableProverbs storage).Perm (getAll storage) := by
  let keys := (getAllSections storage).map normalForm
  have hgroups : (tableProverbs storage).Perm
      (keys.flatMap (Table.group (fun p => normalForm p.proverbSection) (getAll storage))) := by
    rw [List.flatMap_map]
    exact List.Perm.flatMap_left _ fun _ _ => List.perm_insertionSort _ _
  have hkeys : keys.Nodup :=
    List.pairwise_map.mpr ((pairwise_getAllSections storage).imp ne_of_lt)
  refine hgroups.trans (Table.perm_flatMap_group_of_cover hkeys fun p hp => ?_)
  obtain ⟨listed, hmem, hsame⟩ := exists_mem_getAllSections.mpr ⟨p, hp, rfl⟩
  exact List.mem_map.mpr ⟨listed, hmem, hsame.symm⟩

theorem pairwise_tableProverbs (storage : LocalStorage RProverb) :
    (tableProverbs storage).Pairwise fun p q =>
      Less p.proverbSection q.proverbSection ∨
        Equivalent p.proverbSection q.proverbSection ∧
          normalForm (p.text storage) ≤ normalForm (q.text storage) := by
  rw [tableProverbs, List.pairwise_flatMap]
  constructor
  · intro sectionKey _
    have hsorted : (sectionProverbs storage sectionKey).Pairwise
        (Order.Preimage (fun p : Proverb => normalForm (p.text storage)) (· ≤ ·)) :=
      List.pairwise_insertionSort
        (Order.Preimage (fun p : Proverb => normalForm (p.text storage)) (· ≤ ·)) _
    refine hsorted.imp_of_mem fun {p q} hp hq htext => Or.inr ⟨?_, htext⟩
    exact (mem_sectionProverbs.mp hp).2.trans (mem_sectionProverbs.mp hq).2.symm
  · refine (pairwise_getAllSections storage).imp fun {sectionKey other} hlt p hp q hq => Or.inl ?_
    rw [Less, (mem_sectionProverbs.mp hp).2, (mem_sectionProverbs.mp hq).2]
    exact hlt

def rowsCount (storage : LocalStorage RProverb) (index : Nat) : Nat :=
  (((getAllSections storage)[index]?.map (sectionProverbs storage)).map List.length).getD 0

section Questions

variable (h : loadData storage random initial = .ok loaded) {index : Nat} {sectionKey : String}

include h

theorem numberOfSections_loaded : loaded.numberOfSections = (getAllSections storage).length := by
  rw [numberOfSections, (loaded_spec h).1]

theorem exists_color_loaded (hindex : index < loaded.numberOfSections) :
    ∃ color, subscript loaded.sectionsColors index = .ok color := by
  rw [numberOfSections_loaded h, ← (loaded_spec h).2.1] at hindex
  obtain ⟨color, -, -, hread⟩ := exists_subscript hindex
  exact ⟨color, hread⟩

theorem exists_section_loaded (hindex : index < loaded.numberOfSections) :
    ∃ sectionKey ∈ getAllSections storage, (getAllSections storage)[index]? = some sectionKey :=
  (exists_subscript (numberOfSections_loaded h ▸ hindex)).imp fun _ hread =>
    ⟨hread.1, hread.2.1⟩

theorem subscript_sections (hsection : (getAllSections storage)[index]? = some sectionKey) :
    subscript loaded.sections index = .ok sectionKey := by
  rw [(loaded_spec h).1]
  exact subscript_of_getElem? hsection

theorem numberOfRowsInSection_loaded (hindex : index < loaded.numberOfSections) :
    loaded.numberOfRowsInSection index = .ok (rowsCount storage index) := by
  obtain ⟨sectionKey, hmem, hsection⟩ := exists_section_loaded h hindex
  simp [numberOfRowsInSection, subscript_sections h hsection, Except.map,
    (loaded_spec h).2.2 sectionKey hmem, rowsCount, hsection]

theorem rowsCount_pos (hindex : index < loaded.numberOfSections) :
    0 < rowsCount storage index := by
  obtain ⟨sectionKey, hmem, hsection⟩ := exists_section_loaded h hindex
  obtain ⟨p, hp, hkey⟩ := exists_mem_getAllSections.mp ⟨sectionKey, hmem, rfl⟩
  have hrow : p ∈ sectionProverbs storage sectionKey := mem_sectionProverbs.mpr ⟨hp, hkey.symm⟩
  simpa [rowsCount, hsection] using List.length_pos_of_mem hrow

theorem proverbAt_loaded {indexPath : IndexPath} {p : Proverb}
    (hsection : (getAllSections storage)[indexPath.sectionIndex]? = some sectionKey)
    (hp : (sectionProverbs storage sectionKey)[indexPath.row]? = some p) :
    loaded.proverbAt indexPath = .ok (some p) := by
  have hvalue := (loaded_spec h).2.2 sectionKey (List.mem_of_getElem? hsection)
  simp only [proverbAt, subscript_sections h hsection, Except.bind, hvalue,
    subscript_of_getElem? hp, Except.map]

theorem cellForRowAt_loaded {indexPath : IndexPath} {p : Proverb}
    (hsection : (getAllSections storage)[indexPath.sectionIndex]? = some sectionKey)
    (hp : (sectionProverbs storage sectionKey)[indexPath.row]? = some p) :
    loaded.cellForRowAt storage indexPath = .ok (some ⟨p.text storage, p.meaning storage⟩) := by
  rw [cellForRowAt, proverbAt_loaded h hsection hp]
  rfl

theorem map_cellForRowAt_loaded :
    (indexPaths loaded.numberOfSections (rowsCount storage)).map (loaded.cellForRowAt storage) =
      (tableProverbs storage).map fun p => .ok (some ⟨p.text storage, p.meaning storage⟩) := by
  have hcells := Table.map_indexPaths ((getAllSections storage).map (sectionProverbs storage))
    (rowsCount storage) (loaded.cellForRowAt storage)
    (fun p => .ok (some ⟨p.text storage, p.meaning storage⟩)) ?_ ?_
  · rwa [List.length_map, ← numberOfSections_loaded h, ← List.flatMap_def] at hcells
  · intro index rows hrows
    rw [List.getElem?_map] at hrows
    rw [rowsCount, hrows]
    rfl
  · intro index rows row p hrows hp
    rw [List.getElem?_map, Option.map_eq_some_iff] at hrows
    obtain ⟨sectionKey, hsection, rfl⟩ := hrows
    exact cellForRowAt_loaded h hsection hp

theorem exists_row_loaded {indexPath : IndexPath}
    (hpath : indexPath ∈ indexPaths loaded.numberOfSections (rowsCount storage)) :
    ∃ sectionKey p, p ∈ sectionProverbs storage sectionKey ∧
      (getAllSections storage)[indexPath.sectionIndex]? = some sectionKey ∧
        (sectionProverbs storage sectionKey)[indexPath.row]? = some p := by
  obtain ⟨hindex, hrow⟩ := Table.mem_indexPaths.mp hpath
  obtain ⟨sectionKey, -, hsection⟩ := exists_section_loaded h hindex
  have hrow : indexPath.row < (sectionProverbs storage sectionKey).length := by
    simpa [rowsCount, hsection] using hrow
  obtain ⟨p, hp, hget, -⟩ := exists_subscript hrow
  exact ⟨sectionKey, p, hp, hsection, hget⟩

theorem viewForHeaderInSection_loaded
    (hsection : (getAllSections storage)[index]? = some sectionKey) :
    ∃ color, loaded.viewForHeaderInSection index = .ok ⟨sectionKey, color⟩ := by
  have hindex : index < loaded.numberOfSections := by
    rw [numberOfSections_loaded h]
    exact (List.getElem?_eq_some_iff.mp hsection).1
  obtain ⟨color, hcolor⟩ := exists_color_loaded h hindex
  refine ⟨color, ?_⟩
  simp [viewForHeaderInSection, hcolor, subscript_sections h hsection, Except.bind, Except.map]

end Questions

/-- What the table is told in answer to all its questions. -/
structure ShowsCatalogue (storage : LocalStorage RProverb) (s : AllProverbsViewController)
    (rowsCount : Nat → Nat) (proverbs : List Proverb) : Prop where
  titles_increase : s.sectionIndexTitles.Pairwise Less
  counted : ∀ i < s.numberOfSections, s.numberOfRowsInSection i = .ok (rowsCount i)
  section_nonempty : ∀ i < s.numberOfSections, 0 < rowsCount i
  once : proverbs.Nodup
  mem_catalogue : ∀ p ∈ proverbs, p ∈ catalogue storage
  perm : proverbs.Perm (getAll storage)
  whole : proverbs.Perm (catalogue storage) ↔
    (∀ p ∈ catalogue storage, (sortKey (p.text storage)).isSome) ∧
      ((catalogue storage).map (filedUnder storage)).Nodup
  sorted : proverbs.Pairwise fun p q =>
    Less p.proverbSection q.proverbSection ∨
      Equivalent p.proverbSection q.proverbSection ∧
        normalForm (p.text storage) ≤ normalForm (q.text storage)
  cells : (indexPaths s.numberOfSections rowsCount).map (s.cellForRowAt storage) =
    proverbs.map fun p => .ok (some ⟨p.text storage, p.meaning storage⟩)
  /-- A tap opens the proverb of the cell, which stands under the header of its section. -/
  tapped : ∀ indexPath ∈ indexPaths s.numberOfSections rowsCount, ∃ p ∈ proverbs,
    s.cellForRowAt storage indexPath = .ok (some ⟨p.text storage, p.meaning storage⟩) ∧
      (∃ title color, s.viewForHeaderInSection indexPath.sectionIndex = .ok ⟨title, color⟩ ∧
        Equivalent title p.proverbSection) ∧
      ∀ firstVisible : Option Nat, (∀ i ∈ firstVisible, i < s.numberOfSections) →
        ∃ color, s.didSelectRowAt indexPath firstVisible = .ok (some ⟨p, color⟩)

end Loaded

/-- Once the screen has loaded, no question of the table traps: its cells are proverbs of the
catalogue, those that `getAll` sorts, none twice, in order of section and text; none of its
sections is empty, and a tap opens the proverb that the cell shows. They are the whole
catalogue exactly when sorting loses nothing of it. -/
theorem table_shows_catalogue {storage : LocalStorage RProverb} {random : String → Nat}
    {loaded : AllProverbsViewController} (h : loadData storage random initial = .ok loaded) :
    ∃ rowsCount proverbs, ShowsCatalogue storage loaded rowsCount proverbs := by
  have hperm := perm_tableProverbs storage
  have honce : (tableProverbs storage).Nodup :=
    hperm.nodup_iff.mpr (nodup_sortAlphabetically storage (catalogue storage))
  have hof : ∀ p ∈ tableProverbs storage, p ∈ catalogue storage :=
    fun p hp => mem_of_mem_sortAlphabetically (hperm.mem_iff.mp hp)
  have hwhole := (perm_sortAlphabetically_iff storage (catalogue storage)).symm.trans
    ⟨hperm.trans, hperm.symm.trans⟩
  refine ⟨rowsCount storage, tableProverbs storage, ?_, ?_, ?_, honce, hof, hperm, hwhole.symm,
    pairwise_tableProverbs storage, map_cellForRowAt_loaded h, ?_⟩
  · rw [sectionIndexTitles, (loaded_spec h).1]
    exact pairwise_getAllSections storage
  · exact fun index hindex => numberOfRowsInSection_loaded h hindex
  · exact fun index hindex => rowsCount_pos h hindex
  · intro indexPath hpath
    obtain ⟨sectionKey, p, hp, hsection, hget⟩ := exists_row_loaded h hpath
    have hshown := List.mem_flatMap.mpr ⟨sectionKey, List.mem_of_getElem? hsection, hp⟩
    refine ⟨p, hshown, cellForRowAt_loaded h hsection hget, ?_, ?_⟩
    · obtain ⟨color, hheader⟩ := viewForHeaderInSection_loaded h hsection
      exact ⟨sectionKey, color, hheader, (mem_sectionProverbs.mp hp).2.symm⟩
    · intro firstVisible hvisible
      have hfirst : firstVisible.getD 0 < loaded.numberOfSections := by
        cases firstVisible with
        | none => exact Nat.zero_lt_of_lt (Table.mem_indexPaths.mp hpath).1
        | some index => exact hvisible index rfl
      obtain ⟨color, hcolor⟩ := exists_color_loaded h hfirst
      refine ⟨color, ?_⟩
      simp [didSelectRowAt, proverbAt_loaded h hsection hget, hcolor, Except.bind, Except.map]

end Table

section TwoRows

attribute [local instance] Unicode.acute

theorem table_shows_catalogue_bad_egg :
    ∃ loaded, loadData badEgg (fun _ => 3) initial = .ok loaded ∧
      ∃ rowsCount proverbs, ShowsCatalogue badEgg loaded rowsCount proverbs := by
  obtain ⟨loaded, h⟩ :=
    (exists_loadData_iff badEgg (fun _ => 3) initial).mpr (by decide)
  exact ⟨loaded, h, table_shows_catalogue h⟩

end TwoRows

end AllProverbsViewController

end Proverbs
