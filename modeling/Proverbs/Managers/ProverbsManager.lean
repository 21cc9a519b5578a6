import Mathlib.Data.List.Dedup
import Mathlib.Data.List.Induction
import Mathlib.Data.List.Sort
import Mathlib.Data.String.Basic
import Proverbs.Core.Dictionary
import Proverbs.Core.Unicode
import Proverbs.LocalStorages.ProverbsStorage

/-! # ProverbsManager

The two orders in which lists of proverbs are shown. The alphabetical one goes
through a dictionary of sections and, for each, one of sort keys; of the proverbs
of a section with one sort key the last is kept. Keys are strings, so they are told
apart and ordered by their normal forms, and texts are split at characters.
-/

namespace Proverbs.ProverbsManager

open Unicode (normalForm contains split Equivalent)

/-- `sorted` is stable. -/
def sortByAddedDate (proverbs : List Proverb) : List Proverb :=
  proverbs.insertionSort fun a b => b.createdAt ≤ a.createdAt

section Sorting

variable [Unicode]

/-- The key a proverb is filed under; a text of closing parentheses has none. -/
def sortKey (text : String) : Option String :=
  if contains text ")" then (split text ")").getLast? else some text

/-- Equal texts have equal keys. -/
theorem sortKey_congr {text other : String} (h : Equivalent text other) :
    (sortKey text).map normalForm = (sortKey other).map normalForm := by
  rw [sortKey, sortKey, Unicode.contains_congr h]
  split
  · rw [← List.getLast?_map, ← List.getLast?_map, Unicode.split_congr h]
  · exact congrArg some h

def sections (proverbs : List Proverb) : Dictionary String (List Proverb) :=
  proverbs.foldl
    (fun sections proverb =>
      let sectionKey := normalForm proverb.proverbSection
      match sections.value sectionKey with
      | some sectionList => sections.set sectionKey (sectionList ++ [proverb])
      | none => sections.set sectionKey [proverb])
    KeyedStore.empty

def origins (storage : LocalStorage RProverb) (sectionProverbs : List Proverb) :
    Dictionary String Proverb :=
  sectionProverbs.foldl
    (fun origins proverb =>
      match sortKey (proverb.text storage) with
      | some sortKey => origins.set (normalForm sortKey) proverb
      | none => origins)
    KeyedStore.empty

/-- Every key that is looked up comes from the dictionary. -/
def sortSection (storage : LocalStorage RProverb) (sectionProverbs : List Proverb) :
    List Proverb :=
  let origins := origins storage sectionProverbs
  (origins.keys.insertionSort (· ≤ ·)).filterMap origins.value

def sortAlphabetically (storage : LocalStorage RProverb) (proverbs : List Proverb) :
    List Proverb :=
  let sections := sections proverbs
  (sections.keys.insertionSort (· ≤ ·)).flatMap fun sectionKey =>
    match sections.value sectionKey with
    | some sectionProverbs => sortSection storage sectionProverbs
    | none => []

def catalogue (storage : LocalStorage RProverb) : List Proverb :=
  (ProverbsStorage.getAll storage).map Proverb.rProverb

def getAll (storage : LocalStorage RProverb) : List Proverb :=
  sortAlphabetically storage (catalogue storage)

/-- A set keeps the first of equal strings. It lists them in any order; they are sorted
afterwards. -/
def getAllSections (storage : LocalStorage RProverb) : List String :=
  (((getAll storage).map Proverb.proverbSection).reverse.pwFilter
    (¬ Equivalent · ·)).insertionSort fun a b => normalForm a ≤ normalForm b

/-! ## The dictionaries -/

section Dictionaries

variable (storage : LocalStorage RProverb) (proverbs : List Proverb)

theorem value_sections (sectionKey : String) :
    (sections proverbs).value sectionKey =
      if proverbs.filter (normalForm ·.proverbSection = sectionKey) = [] then none
      else some (proverbs.filter (normalForm ·.proverbSection = sectionKey)) := by
  induction proverbs using List.reverseRecOn generalizing sectionKey with
  | nil => rfl
  | append_singleton proverbs proverb ih =>
      have hstep : sections (proverbs ++ [proverb]) =
          (sections proverbs).set (normalForm proverb.proverbSection)
            (proverbs.filter (normalForm ·.proverbSection = normalForm proverb.proverbSection) ++
              [proverb]) := by
        have hvalue := ih (normalForm proverb.proverbSection)
        simp only [sections, List.foldl_append, List.foldl_cons, List.foldl_nil] at hvalue ⊢
        split at hvalue
        · rename_i hnil
          simp only [hvalue, hnil, List.nil_append]
        · simp only [hvalue]
      rw [hstep, Dictionary.value_set, List.filter_append]
      by_cases hsection : sectionKey = normalForm proverb.proverbSection
      · simp [hsection]
      · have hother : [proverb].filter (normalForm ·.proverbSection = sectionKey) = [] := by
          simp [Ne.symm hsection]
        rw [if_neg hsection, hother, List.append_nil]
        exact ih sectionKey

theorem eq_filter_of_value {proverbs sectionProverbs : List Proverb} {sectionKey : String}
    (h : (sections proverbs).value sectionKey = some sectionProverbs) :
    sectionProverbs = proverbs.filter (normalForm ·.proverbSection = sectionKey) := by
  rw [value_sections] at h
  split at h
  · simp at h
  · exact (Option.some.inj h).symm

def originKey (storage : LocalStorage RProverb) (proverb : Proverb) : Option String :=
  (sortKey (proverb.text storage)).map normalForm

theorem isSome_originKey {storage : LocalStorage RProverb} {proverb : Proverb} :
    (originKey storage proverb).isSome = (sortKey (proverb.text storage)).isSome :=
  Option.isSome_map

/-- Under a key the last proverb that has it is kept. -/
theorem value_origins (key : String) :
    (origins storage proverbs).value key =
      (proverbs.filter (originKey storage · = some key)).getLast? := by
  induction proverbs using List.reverseRecOn with
  | nil => rfl
  | append_singleton proverbs proverb ih =>
      simp only [origins, originKey, List.foldl_append, List.foldl_cons, List.foldl_nil,
        List.filter_append, List.getLast?_append] at ih ⊢
      cases hkey : sortKey (proverb.text storage) with
      | none => simp [hkey, ih]
      | some ownKey =>
          by_cases hsame : key = normalForm ownKey
          · simp [hkey, hsame, Dictionary.value_set]
          · simp [hkey, hsame, Ne.symm hsame, Dictionary.value_set, ih]

end Dictionaries

/-! ## The sorted lists -/

section Sorted

variable {storage : LocalStorage RProverb} {proverbs : List Proverb}

omit [Unicode] in
theorem perm_sortByAddedDate (proverbs : List Proverb) : (sortByAddedDate proverbs).Perm proverbs :=
  List.perm_insertionSort _ proverbs

theorem originKey_of_value {sectionProverbs : List Proverb} {key : String} {p : Proverb}
    (h : (origins storage sectionProverbs).value key = some p) :
    originKey storage p = some key := by
  rw [value_origins] at h
  simpa using (List.mem_filter.mp (List.mem_of_getLast? h)).2

theorem mem_sortSection {sectionProverbs : List Proverb} {p : Proverb} :
    p ∈ sortSection storage sectionProverbs ↔
      ∃ key, originKey storage p = some key ∧
        (sectionProverbs.filter (originKey storage · = some key)).getLast? = some p := by
  simp only [sortSection, List.mem_filterMap, List.mem_insertionSort, Dictionary.mem_keys,
    ← value_origins]
  constructor
  · rintro ⟨key, _, hlast⟩
    exact ⟨key, originKey_of_value hlast, hlast⟩
  · rintro ⟨key, _, hlast⟩
    exact ⟨key, ⟨p, hlast⟩, hlast⟩

theorem mem_of_mem_sortSection {sectionProverbs : List Proverb} {p : Proverb}
    (h : p ∈ sortSection storage sectionProverbs) : p ∈ sectionProverbs := by
  obtain ⟨_, _, hlast⟩ := mem_sortSection.mp h
  exact List.mem_of_mem_filter (List.mem_of_getLast? hlast)

theorem nodup_sortSection (storage : LocalStorage RProverb) (sectionProverbs : List Proverb) :
    (sortSection storage sectionProverbs).Nodup := by
  have hkeys : ((origins storage sectionProverbs).keys.insertionSort (· ≤ ·)).Nodup :=
    (List.perm_insertionSort _ _).nodup_iff.mpr (Dictionary.nodup_keys _)
  refine List.Nodup.filterMap (fun key key' p hp hp' => ?_) hkeys
  exact Option.some.inj ((originKey_of_value hp).symm.trans (originKey_of_value hp'))

theorem proverbSection_of_mem {sectionKey : String} {sectionProverbs : List Proverb}
    (hvalue : (sections proverbs).value sectionKey = some sectionProverbs) {p : Proverb}
    (h : p ∈ sortSection storage sectionProverbs) : normalForm p.proverbSection = sectionKey := by
  rw [eq_filter_of_value hvalue] at h
  simpa using (List.mem_filter.mp (mem_of_mem_sortSection h)).2

/-- The sorted list has, for every section and sort key, the last proverb with both. -/
theorem mem_sortAlphabetically {p : Proverb} :
    p ∈ sortAlphabetically storage proverbs ↔
      ∃ key, originKey storage p = some key ∧
        ((proverbs.filter (normalForm ·.proverbSection = normalForm p.proverbSection)).filter
          (originKey storage · = some key)).getLast? = some p := by
  rw [← mem_sortSection]
  simp only [sortAlphabetically, List.mem_flatMap, List.mem_insertionSort, Dictionary.mem_keys]
  constructor
  · rintro ⟨sectionKey, _, hmem⟩
    cases hsection : (sections proverbs).value sectionKey with
    | none => simp [hsection] at hmem
    | some sectionProverbs =>
        simp only [hsection] at hmem
        rw [proverbSection_of_mem hsection hmem, ← eq_filter_of_value hsection]
        exact hmem
  · intro hmem
    have hne : proverbs.filter (normalForm ·.proverbSection = normalForm p.proverbSection) ≠ [] :=
      List.ne_nil_of_mem (mem_of_mem_sortSection hmem)
    have hsection := (value_sections proverbs (normalForm p.proverbSection)).trans (if_neg hne)
    exact ⟨normalForm p.proverbSection, ⟨_, hsection⟩, by simpa only [hsection] using hmem⟩

theorem mem_of_mem_sortAlphabetically {p : Proverb}
    (h : p ∈ sortAlphabetically storage proverbs) : p ∈ proverbs := by
  obtain ⟨key, _, hlast⟩ := mem_sortAlphabetically.mp h
  exact List.mem_of_mem_filter (List.mem_of_mem_filter (List.mem_of_getLast? hlast))

theorem nodup_sortAlphabetically (storage : LocalStorage RProverb) (proverbs : List Proverb) :
    (sortAlphabetically storage proverbs).Nodup := by
  have hkeys : ((sections proverbs).keys.insertionSort (· ≤ ·)).Nodup :=
    (List.perm_insertionSort _ _).nodup_iff.mpr (Dictionary.nodup_keys _)
  refine List.nodup_flatMap.mpr ⟨fun sectionKey _ => ?_, hkeys.imp ?_⟩
  · split
    · exact nodup_sortSection storage _
    · exact List.nodup_nil
  · intro key key' hne p hp hp'
    have hown : ∀ key, (p ∈ match (sections proverbs).value key with
        | some sectionProverbs => sortSection storage sectionProverbs
        | none => []) → normalForm p.proverbSection = key := by
      intro key hmem
      split at hmem
      · rename_i sectionProverbs hsection
        exact proverbSection_of_mem hsection hmem
      · simp at hmem
    exact hne ((hown key hp).symm.trans (hown key' hp'))

theorem nodup_identifiers_sortAlphabetically (h : (proverbs.map Proverb.identifier).Nodup) :
    ((sortAlphabetically storage proverbs).map Proverb.identifier).Nodup := by
  refine (nodup_sortAlphabetically storage proverbs).map_on fun p hp q hq hid => ?_
  exact List.inj_on_of_nodup_map h (mem_of_mem_sortAlphabetically hp)
    (mem_of_mem_sortAlphabetically hq) hid

/-- A section is listed for the proverbs that have it, or an equal one. -/
theorem exists_mem_getAllSections {sectionKey : String} :
    (∃ listed ∈ getAllSections storage, Equivalent sectionKey listed) ↔
      ∃ p ∈ getAll storage, Equivalent sectionKey p.proverbSection := by
  have htrans : ∀ {x y z : String}, ¬ Equivalent x z → ¬ Equivalent x y ∨ ¬ Equivalent y z :=
    fun hne => not_and_or.mp fun h => hne (h.1.trans h.2)
  have hnone := List.forall_mem_pwFilter (R := (¬ Equivalent · ·)) htrans sectionKey
    ((getAll storage).map Proverb.proverbSection).reverse
  simpa [getAllSections] using not_congr hnone

theorem pairwise_getAllSections (storage : LocalStorage RProverb) :
    (getAllSections storage).Pairwise Unicode.Less := by
  have hsorted : (getAllSections storage).Pairwise (Order.Preimage normalForm (· ≤ ·)) :=
    List.pairwise_insertionSort (Order.Preimage normalForm (· ≤ ·)) _
  have hdistinct : (getAllSections storage).Pairwise (¬ Equivalent · ·) :=
    (List.pairwise_pwFilter (R := (¬ Equivalent · ·)) _).perm (List.perm_insertionSort _ _).symm
      fun hne h => hne h.symm
  exact (hsorted.and hdistinct).imp fun h => lt_of_le_of_ne h.1 h.2

end Sorted

/-! ## What sorting loses -/

section Complete

variable {storage : LocalStorage RProverb} {proverbs : List Proverb}

/-- Where a proverb is filed: its section and, within it, its sort key. -/
def filedUnder (storage : LocalStorage RProverb) (proverb : Proverb) : String × Option String :=
  (normalForm proverb.proverbSection, originKey storage proverb)

theorem eq_of_filedUnder_eq {p q : Proverb} (hp : p ∈ sortAlphabetically storage proverbs)
    (hq : q ∈ sortAlphabetically storage proverbs)
    (h : filedUnder storage p = filedUnder storage q) : p = q := by
  obtain ⟨hsection, hkeys⟩ := Prod.mk.inj h
  obtain ⟨key, hkey, hlast⟩ := mem_sortAlphabetically.mp hp
  obtain ⟨key', hkey', hlast'⟩ := mem_sortAlphabetically.mp hq
  have hsame : key = key' := Option.some.inj (hkey.symm.trans (hkeys.trans hkey'))
  rw [hsection, hsame] at hlast
  exact Option.some.inj (hlast.symm.trans hlast')

/-- A proverb that shares its place with no other one is sorted in. -/
theorem mem_sortAlphabetically_of_alone {p : Proverb} (hmem : p ∈ proverbs)
    (hkey : (sortKey (p.text storage)).isSome)
    (halone : ∀ q ∈ proverbs, filedUnder storage q = filedUnder storage p → q = p) :
    p ∈ sortAlphabetically storage proverbs := by
  rw [← isSome_originKey] at hkey
  obtain ⟨key, hkey⟩ := Option.isSome_iff_exists.mp hkey
  let filed := (proverbs.filter (normalForm ·.proverbSection = normalForm p.proverbSection)).filter
    (originKey storage · = some key)
  have hfiled : p ∈ filed := by
    simp [filed, hmem, hkey]
  obtain ⟨q, hlast⟩ : ∃ q, filed.getLast? = some q :=
    Option.isSome_iff_exists.mp (by simpa using List.ne_nil_of_mem hfiled)
  have hq : q ∈ filed := List.mem_of_getLast? hlast
  simp only [filed, List.mem_filter, decide_eq_true_eq] at hq
  obtain rfl : q = p := halone q hq.1.1 (Prod.ext hq.1.2 (hq.2.trans hkey.symm))
  exact mem_sortAlphabetically.mpr ⟨key, hkey, hlast⟩

/-- Sorting loses nothing exactly when every proverb has a sort key and no two
proverbs of one section share theirs. -/
theorem perm_sortAlphabetically_iff (storage : LocalStorage RProverb) (proverbs : List Proverb) :
    (sortAlphabetically storage proverbs).Perm proverbs ↔
      (∀ proverb ∈ proverbs, (sortKey (proverb.text storage)).isSome) ∧
        (proverbs.map (filedUnder storage)).Nodup := by
  constructor
  · intro hperm
    have hnodup : proverbs.Nodup := hperm.nodup_iff.mp (nodup_sortAlphabetically storage proverbs)
    constructor
    · intro p hp
      obtain ⟨key, hkey, _⟩ := mem_sortAlphabetically.mp (hperm.mem_iff.mpr hp)
      rw [← isSome_originKey, hkey]
      rfl
    · refine hnodup.map_on ?_
      intro p hp q hq h
      exact eq_of_filedUnder_eq (hperm.mem_iff.mpr hp) (hperm.mem_iff.mpr hq) h
  · rintro ⟨hkeys, hnodup⟩
    apply (List.perm_ext_iff_of_nodup (nodup_sortAlphabetically storage proverbs)
      (List.Nodup.of_map _ hnodup)).mpr
    intro p
    constructor
    · exact mem_of_mem_sortAlphabetically
    · intro hp
      apply mem_sortAlphabetically_of_alone hp (hkeys p hp)
      intro q hq h
      exact List.inj_on_of_nodup_map hnodup hq hp h

end Complete

end Sorting

section Loses

attribute [local instance] Unicode.acute

def accented : List Proverb :=
  let row (identifier text sectionKey : String) : Proverb :=
    .rProverb ⟨identifier, 0, text, "", sectionKey, false⟩
  [row "1" "(A) ke\u0301y" "K", row "2" "k\u00e9y" "K", row "3" "k\u00e9y" "E\u0301",
    row "4" "key" "K"]

/-- A blank, a section or an accent keeps the keys apart. -/
theorem perm_sortAlphabetically_accented :
    (sortAlphabetically ⟨none, .commit⟩ accented).Perm accented :=
  (perm_sortAlphabetically_iff _ _).mpr (by decide)

/-- Two proverbs of one section with one text. -/
theorem sortAlphabetically_loses :
    ¬ (sortAlphabetically ⟨none, .commit⟩
        [.rProverb ⟨"1", 0, "text", "", "A", false⟩,
          .rProverb ⟨"2", 0, "text", "", "A", false⟩]).Perm
      [.rProverb ⟨"1", 0, "text", "", "A", false⟩,
        .rProverb ⟨"2", 0, "text", "", "A", false⟩] := by
  intro h
  exact absurd h.length_eq (by decide)

example :
    let row (identifier text : String) : Proverb := .rProverb ⟨identifier, 0, text, "", "", false⟩
    (sortAlphabetically ⟨none, .commit⟩
      [row "1" "(A) ke\u0301y", row "2" "free", row "3" " k\u00e9y", row "4" ")",
        row "5" "a)\u0301"]).map Proverb.identifier = ["3", "5", "2"] := by
  decide

end Loses

end Proverbs.ProverbsManager
