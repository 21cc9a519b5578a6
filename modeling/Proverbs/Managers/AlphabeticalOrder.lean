import Proverbs.Managers.ProverbsManager

/-! # The alphabetical order

What `sortAlphabetically` returns, apart from what it loses: a list that increases
strictly by section and sort key. Such a list is determined by its members, so it does
not matter in which order the dictionaries enumerate their keys, nor in which order the
proverbs came in when each has a place of its own.
-/

namespace Proverbs.ProverbsManager

open Unicode (normalForm)

/-! ## Any enumeration of the keys -/

/-- The order in which a dictionary lists its keys: any order will do. -/
structure Enumeration (β : Type) where
  keys : Dictionary String β → List String
  perm : ∀ d, (keys d).Perm d.keys

section Order

variable [Unicode]

def sortSectionBy (enumeration : Enumeration Proverb) (storage : LocalStorage RProverb)
    (sectionProverbs : List Proverb) : List Proverb :=
  let origins := origins storage sectionProverbs
  ((enumeration.keys origins).insertionSort (· ≤ ·)).filterMap origins.value

def sortAlphabeticallyBy (enumeration : Enumeration (List Proverb))
    (sectionEnumeration : Enumeration Proverb) (storage : LocalStorage RProverb)
    (proverbs : List Proverb) : List Proverb :=
  let sections := sections proverbs
  ((enumeration.keys sections).insertionSort (· ≤ ·)).flatMap fun sectionKey =>
    match sections.value sectionKey with
    | some sectionProverbs => sortSectionBy sectionEnumeration storage sectionProverbs
    | none => []

section Enumerations

variable {β : Type}

omit [Unicode] in
theorem insertionSort_keys (enumeration : Enumeration β) (d : Dictionary String β) :
    (enumeration.keys d).insertionSort (· ≤ ·) = d.keys.insertionSort (· ≤ ·) := by
  have hperm : ((enumeration.keys d).insertionSort (· ≤ ·)).Perm
      (d.keys.insertionSort (· ≤ ·)) :=
    (List.perm_insertionSort _ _).trans
      ((enumeration.perm d).trans (List.perm_insertionSort _ _).symm)
  exact hperm.eq_of_pairwise' (List.pairwise_insertionSort (· ≤ ·) _)
    (List.pairwise_insertionSort (· ≤ ·) _)

theorem sortSectionBy_eq (enumeration : Enumeration Proverb) (storage : LocalStorage RProverb)
    (sectionProverbs : List Proverb) :
    sortSectionBy enumeration storage sectionProverbs = sortSection storage sectionProverbs := by
  unfold sortSectionBy sortSection
  simp only [insertionSort_keys]

theorem sortAlphabeticallyBy_eq (enumeration : Enumeration (List Proverb))
    (sectionEnumeration : Enumeration Proverb) (storage : LocalStorage RProverb)
    (proverbs : List Proverb) :
    sortAlphabeticallyBy enumeration sectionEnumeration storage proverbs =
      sortAlphabetically storage proverbs := by
  unfold sortAlphabeticallyBy sortAlphabetically
  simp only [insertionSort_keys]
  congr 1
  funext sectionKey
  cases (sections proverbs).value sectionKey with
  | none => rfl
  | some sectionProverbs => exact sortSectionBy_eq sectionEnumeration storage sectionProverbs

end Enumerations

/-! ## Strictly increasing -/

/-- First by section, then by sort key. -/
def Precedes (storage : LocalStorage RProverb) (p q : Proverb) : Prop :=
  normalForm p.proverbSection < normalForm q.proverbSection ∨
    normalForm p.proverbSection = normalForm q.proverbSection ∧
      ∃ key key', originKey storage p = some key ∧ originKey storage q = some key' ∧ key < key'

section Precedes

variable {storage : LocalStorage RProverb} {proverbs : List Proverb}

theorem Precedes.asymm {p q : Proverb} (h : Precedes storage p q) : ¬ Precedes storage q p := by
  rintro (hsection' | ⟨hsame', key', key, hkey', hkey, hlt'⟩)
  · rcases h with hsection | ⟨hsame, _⟩
    · exact lt_asymm hsection hsection'
    · exact absurd hsame hsection'.ne'
  · rcases h with hsection | ⟨_, k, k', hk, hk', hlt⟩
    · exact absurd hsame' hsection.ne'
    · obtain rfl := Option.some.inj (hk.symm.trans hkey)
      obtain rfl := Option.some.inj (hk'.symm.trans hkey')
      exact lt_asymm hlt hlt'

instance (storage : LocalStorage RProverb) : Std.Asymm (Precedes storage) :=
  ⟨fun _ _ => Precedes.asymm⟩

theorem precedes_iff {p q : Proverb} {key key' : String}
    (hsection : normalForm p.proverbSection = normalForm q.proverbSection)
    (hp : sortKey (p.text storage) = some key) (hq : sortKey (q.text storage) = some key') :
    Precedes storage p q ↔ Unicode.Less key key' := by
  unfold Precedes originKey Unicode.Less
  simp [hsection, hp, hq]

omit [Unicode] in
/-- The keys of a dictionary are distinct, so they are sorted strictly. -/
theorem pairwise_keys {β : Type} (d : Dictionary String β) :
    (d.keys.insertionSort (· ≤ ·)).Pairwise (· < ·) := by
  have hnodup : (d.keys.insertionSort (· ≤ ·)).Nodup :=
    (List.perm_insertionSort _ _).nodup_iff.mpr (Dictionary.nodup_keys d)
  have hsorted := List.pairwise_insertionSort (· ≤ ·) d.keys
  exact (hsorted.and hnodup).imp fun h => lt_of_le_of_ne h.1 h.2

theorem pairwise_sortSection (sectionProverbs : List Proverb) :
    (sortSection storage sectionProverbs).Pairwise fun p q =>
      ∃ key key', originKey storage p = some key ∧ originKey storage q = some key' ∧
        key < key' := by
  unfold sortSection
  rw [List.pairwise_filterMap]
  refine (pairwise_keys _).imp fun hlt p hp q hq => ?_
  exact ⟨_, _, originKey_of_value hp, originKey_of_value hq, hlt⟩

theorem pairwise_sortAlphabetically (storage : LocalStorage RProverb) (proverbs : List Proverb) :
    (sortAlphabetically storage proverbs).Pairwise (Precedes storage) := by
  unfold sortAlphabetically
  rw [List.pairwise_flatMap]
  constructor
  · intro sectionKey _
    cases hvalue : (sections proverbs).value sectionKey with
    | none => exact List.Pairwise.nil
    | some sectionProverbs =>
        refine (pairwise_sortSection sectionProverbs).imp_of_mem fun hp hq h => ?_
        have hsame := (proverbSection_of_mem hvalue hp).trans (proverbSection_of_mem hvalue hq).symm
        exact Or.inr ⟨hsame, h⟩
  · refine (pairwise_keys _).imp fun {key key'} hlt p hp q hq => ?_
    cases hvalue : (sections proverbs).value key with
    | none => simp [hvalue] at hp
    | some sectionProverbs =>
        cases hvalue' : (sections proverbs).value key' with
        | none => simp [hvalue'] at hq
        | some sectionProverbs' =>
            simp only [hvalue] at hp
            simp only [hvalue'] at hq
            left
            rw [proverbSection_of_mem hvalue hp, proverbSection_of_mem hvalue' hq]
            exact hlt

end Precedes

/-! ## The members determine the list -/

section Canonical

variable {storage : LocalStorage RProverb} {proverbs others : List Proverb}

theorem sortAlphabetically_congr
    (h : ∀ p, p ∈ sortAlphabetically storage others ↔ p ∈ sortAlphabetically storage proverbs) :
    sortAlphabetically storage others = sortAlphabetically storage proverbs :=
  (pairwise_sortAlphabetically storage others).eq_of_mem_iff
    (pairwise_sortAlphabetically storage proverbs) h

/-- Where every proverb has a place of its own, sorting keeps them all. -/
theorem mem_sortAlphabetically_iff
    (hkeys : ∀ proverb ∈ proverbs, (sortKey (proverb.text storage)).isSome)
    (hplaces : (proverbs.map (filedUnder storage)).Nodup) {p : Proverb} :
    p ∈ sortAlphabetically storage proverbs ↔ p ∈ proverbs := by
  constructor
  · exact mem_of_mem_sortAlphabetically
  · intro hp
    apply mem_sortAlphabetically_of_alone hp (hkeys p hp)
    intro q hq h
    exact List.inj_on_of_nodup_map hplaces hq hp h

theorem sortAlphabetically_idem (storage : LocalStorage RProverb) (proverbs : List Proverb) :
    sortAlphabetically storage (sortAlphabetically storage proverbs) =
      sortAlphabetically storage proverbs := by
  apply sortAlphabetically_congr
  intro p
  constructor
  · exact mem_of_mem_sortAlphabetically
  · intro hp
    obtain ⟨key, hkey, _⟩ := mem_sortAlphabetically.mp hp
    apply mem_sortAlphabetically_of_alone hp (by rw [← isSome_originKey, hkey]; rfl)
    intro q hq h
    exact eq_of_filedUnder_eq hq hp h

theorem sortAlphabetically_perm
    (hkeys : ∀ proverb ∈ proverbs, (sortKey (proverb.text storage)).isSome)
    (hplaces : (proverbs.map (filedUnder storage)).Nodup) (hperm : others.Perm proverbs) :
    sortAlphabetically storage others = sortAlphabetically storage proverbs := by
  have hkeys' : ∀ proverb ∈ others, (sortKey (proverb.text storage)).isSome :=
    fun proverb hmem => hkeys proverb (hperm.mem_iff.mp hmem)
  have hplaces' : (others.map (filedUnder storage)).Nodup :=
    (hperm.map (filedUnder storage)).nodup_iff.mpr hplaces
  apply sortAlphabetically_congr
  intro p
  rw [mem_sortAlphabetically_iff hkeys' hplaces', mem_sortAlphabetically_iff hkeys hplaces,
    hperm.mem_iff]

end Canonical

/-- Whatever order the dictionaries enumerate their keys in, the result is a strictly
increasing list of proverbs of the list, sorting it again leaves it as it is, and where
every proverb has a place of its own every reordering is sorted to the same list. -/
theorem sortAlphabetically_canonical (enumeration enumeration' : Enumeration (List Proverb))
    (sectionEnumeration sectionEnumeration' : Enumeration Proverb)
    (storage : LocalStorage RProverb) (proverbs : List Proverb) :
    let sorted := sortAlphabeticallyBy enumeration sectionEnumeration storage proverbs
    let sortAgain := sortAlphabeticallyBy enumeration' sectionEnumeration' storage
    (∀ p ∈ sorted, p ∈ proverbs) ∧ sorted.Pairwise (Precedes storage) ∧
      sortAgain sorted = sorted ∧
      ((∀ proverb ∈ proverbs, (sortKey (proverb.text storage)).isSome) →
        (proverbs.map (filedUnder storage)).Nodup →
          ∀ others, others.Perm proverbs → sortAgain others = sorted) := by
  simp only [sortAlphabeticallyBy_eq]
  refine ⟨fun p => mem_of_mem_sortAlphabetically, pairwise_sortAlphabetically storage proverbs,
    sortAlphabetically_idem storage proverbs, ?_⟩
  intro hkeys hplaces others hperm
  exact sortAlphabetically_perm hkeys hplaces hperm

end Order

section Pair

attribute [local instance] Unicode.acute

def inInsertionOrder (β : Type) : Enumeration β := ⟨Dictionary.keys, fun _ => List.Perm.refl _⟩

def inReverseOrder (β : Type) : Enumeration β :=
  ⟨fun d => d.keys.reverse, fun d => List.reverse_perm d.keys⟩

/-- Two proverbs of one section, in both orders. -/
theorem sortAlphabetically_canonical_pair :
    sortAlphabeticallyBy (inReverseOrder _) (inReverseOrder _) ⟨none, .commit⟩
        [.rProverb ⟨"2", 0, "(A) key", "", "A", false⟩, .rProverb ⟨"1", 0, "key", "", "A", false⟩] =
      sortAlphabeticallyBy (inInsertionOrder _) (inInsertionOrder _) ⟨none, .commit⟩
        [.rProverb ⟨"1", 0, "key", "", "A", false⟩,
          .rProverb ⟨"2", 0, "(A) key", "", "A", false⟩] := by
  have hcanonical := (sortAlphabetically_canonical (inInsertionOrder _) (inReverseOrder _)
    (inInsertionOrder _) (inReverseOrder _) ⟨none, .commit⟩
    [.rProverb ⟨"1", 0, "key", "", "A", false⟩,
      .rProverb ⟨"2", 0, "(A) key", "", "A", false⟩]).2.2.2
  exact hcanonical (by decide) (by decide) _ (List.Perm.swap _ _ [])

end Pair

end Proverbs.ProverbsManager
