import Proverbs.Core.Dictionary
import Proverbs.Core.Transition
import Proverbs.LocalStorages.ProverbsStorage

/-! # The initial population of the catalogue

`ProverbsManager` fills the catalogue from a property list at the first launch. The
flag that it has done so lives in the user defaults, the proverbs in the Realm file,
and the two part ways whenever the population fails or the file is reset later:
since the plist is only ever written as a whole, the file then has no proverb at all.
-/

namespace Proverbs

abbrev ProverbInfo := Dictionary String String

abbrev ProverbsPlistDictionary := Dictionary String (List ProverbInfo)

/-- The process and what it finds on the device. -/
structure Catalogue where
  isInitialPopulated : Bool
  file : Table RProverb
  /-- `MainStorage.realm` is not nil in this process. -/
  opened : Bool

/-- What happens around the catalogue. The write transactions of an event throw or
commit as the environment chooses; `choice` is the index `randomElement` draws. -/
inductive CatalogueEvent where
  | launch (plistRead : Bool) (opening : Opening) (writeThrows : Bool) (now : Date)
  | getNextRandom (choice : Nat) (markAllThrows markThrows : Bool)
deriving DecidableEq, Repr

namespace Catalogue

/-- `proverbsStorage`, as a write transaction finds it. -/
def proverbsStorage (s : Catalogue) (writesThrow : Bool) : LocalStorage RProverb where
  realm := if s.opened then some s.file else none
  writes := if writesThrow then .throws else .commit

def stored (s : Catalogue) (proverbsStorage : LocalStorage RProverb) : Catalogue :=
  { s with file := proverbsStorage.realm.getD s.file }

/-! ## Population -/

def proverbModel (proverbSection : String) (now : Date) (proverbInfo : ProverbInfo) :
    RProverb where
  identifier := (proverbInfo.value "identifier").getD ""
  createdAt := now
  text := (proverbInfo.value "text").getD ""
  meaning := (proverbInfo.value "meaning").getD ""
  proverbSection := proverbSection
  viewed := false

/-- `realmProverbsList`; the objects are created in one go. -/
def realmProverbsList (now : Date) (plist : ProverbsPlistDictionary) : List RProverb :=
  plist.keys.flatMap fun proverbSection =>
    match plist.value proverbSection with
    | some sectionProverbsList => sectionProverbsList.map (proverbModel proverbSection now)
    | none => []

/-- The result of the write is only logged. -/
def populateLocalStorageWithProverbs (s : Catalogue)
    (proverbsDictionary : Option ProverbsPlistDictionary) (writeThrows : Bool) (now : Date) :
    Catalogue :=
  match proverbsDictionary with
  | none => s
  | some plist =>
      s.stored ((s.proverbsStorage writeThrows).saveUpdateList (realmProverbsList now plist)).1

def checkAndPopulateProverbs (s : Catalogue)
    (proverbsDictionary : Option ProverbsPlistDictionary) (writeThrows : Bool) (now : Date) :
    Catalogue :=
  if s.isInitialPopulated then s
  else
    { s.populateLocalStorageWithProverbs proverbsDictionary writeThrows now with
      isInitialPopulated := true }

/-- A new process. The lazy Realm is opened by its first use, and nothing looks at
the file before. -/
def launch (plist : ProverbsPlistDictionary) (s : Catalogue) (plistRead : Bool)
    (opening : Opening) (writeThrows : Bool) (now : Date) : Catalogue :=
  { s with file := openRealm s.file opening, opened := opening.opens }.checkAndPopulateProverbs
    (if plistRead then some plist else none) writeThrows now

/-! ## A random proverb -/

/-- `getNextRandom`; an empty selection is force-unwrapped (`none`). -/
def getNextRandom (s : Catalogue) (choice : Nat) (markAllThrows markThrows : Bool) :
    Option (Catalogue × RProverb) :=
  let proverbs := ProverbsStorage.getAllUnviewed (s.proverbsStorage markAllThrows)
  let s :=
    if proverbs.length < 10 then
      s.stored (ProverbsStorage.markAllAsUnviewed (s.proverbsStorage markAllThrows))
    else s
  let proverbs := ProverbsStorage.getAllUnviewed (s.proverbsStorage markThrows)
  proverbs[choice % proverbs.length]?.map fun retProverb =>
    (s.stored (ProverbsStorage.markAsViewed (s.proverbsStorage markThrows) retProverb), retProverb)

def step (plist : ProverbsPlistDictionary) (s : Catalogue) (event : CatalogueEvent) :
    Option Catalogue :=
  match event with
  | .launch plistRead opening writeThrows now =>
      some (s.launch plist plistRead opening writeThrows now)
  | .getNextRandom choice markAllThrows markThrows =>
      (s.getNextRandom choice markAllThrows markThrows).map Prod.fst

def installed : Catalogue := ⟨false, KeyedStore.empty, false⟩

/-! ## A complete catalogue -/

def plistEntries (plist : ProverbsPlistDictionary) : List (String × ProverbInfo) :=
  plist.entries.flatMap fun entry => entry.2.map fun proverbInfo => (entry.1, proverbInfo)

def entryIdentifier (entry : String × ProverbInfo) : Identifier :=
  (entry.2.value "identifier").getD ""

/-- One object is stored for every entry, with its section, text and meaning. -/
def Complete (plist : ProverbsPlistDictionary) (file : Table RProverb) : Prop :=
  ∀ entry ∈ plistEntries plist, ∃! proverb, proverb ∈ file ∧
    proverb.identifier = entryIdentifier entry ∧ proverb.proverbSection = entry.1 ∧
    proverb.text = (entry.2.value "text").getD "" ∧
    proverb.meaning = (entry.2.value "meaning").getD ""

/-- What each event owes: a populated and open catalogue is complete, and a random
proverb can be drawn from one. -/
def PopulatedComplete (plist : ProverbsPlistDictionary) (s : Catalogue) (event : CatalogueEvent) :
    Prop :=
  (∀ s', step plist s event = some s' → s'.isInitialPopulated = true → s'.opened = true →
    Complete plist s'.file) ∧
  ∀ choice markAllThrows markThrows, event = .getNextRandom choice markAllThrows markThrows →
    s.isInitialPopulated = true → s.opened = true → plistEntries plist ≠ [] →
      ∃ s', step plist s event = some s'

/-- When it is met. A launch that opens the Realm reads the plist and commits the
objects if it is the first one, and finds objects in the file and keeps them if it is
a later one; a random proverb is drawn while some proverb is not viewed or the
transaction that marks all of them commits. -/
def PopulationKept (s : Catalogue) (event : CatalogueEvent) : Prop :=
  match event with
  | .launch plistRead opening writeThrows _ =>
      opening.opens = true →
        if s.isInitialPopulated then s.file.entries ≠ [] ∧ opening.erases = false
        else plistRead = true ∧ writeThrows = false
  | .getNextRandom _ markAllThrows _ =>
      s.isInitialPopulated = true → s.opened = true →
        (∃ proverb ∈ s.file.entries, proverb.viewed = false) ∨ markAllThrows = false

/-! ## The population -/

section Population

variable {plist : ProverbsPlistDictionary} {file : Table RProverb} {now : Date}

theorem realmProverbsList_eq (now : Date) (plist : ProverbsPlistDictionary) :
    realmProverbsList now plist =
      (plistEntries plist).map fun entry => proverbModel entry.1 now entry.2 := by
  rw [realmProverbsList, plistEntries, Dictionary.keys, List.flatMap_map, List.map_flatMap]
  apply List.flatMap_congr
  intro entry hentry
  have hvalue : plist.value entry.1 = some entry.2 := Dictionary.value_eq_some.mpr hentry
  simp only [hvalue, List.map_map]
  rfl

theorem identifiers_realmProverbsList (now : Date) (plist : ProverbsPlistDictionary) :
    (realmProverbsList now plist).map RealmObject.primaryKey =
      (plistEntries plist).map entryIdentifier := by
  rw [realmProverbsList_eq, List.map_map]
  rfl

theorem complete_putAll (hdistinct : ((plistEntries plist).map entryIdentifier).Nodup)
    (file : Table RProverb) (now : Date) :
    Complete plist (file.putAll (realmProverbsList now plist)) := by
  intro entry hentry
  have hkeys := identifiers_realmProverbsList now plist
  have hmem : proverbModel entry.1 now entry.2 ∈ file.putAll (realmProverbsList now plist) := by
    apply (KeyedStore.mem_putAll (hkeys ▸ hdistinct)).mpr
    rw [realmProverbsList_eq]
    exact Or.inl (List.mem_map.mpr ⟨entry, hentry, rfl⟩)
  refine ⟨_, ⟨hmem, rfl, rfl, rfl, rfl⟩, ?_⟩
  rintro proverb ⟨hproverb, hidentifier, _⟩
  exact KeyedStore.eq_of_key_eq hproverb hmem hidentifier

theorem not_complete_of_empty (hplist : plistEntries plist ≠ []) (hfile : file.entries = []) :
    ¬ Complete plist file := by
  intro hcomplete
  obtain ⟨entry, hentry⟩ := List.exists_mem_of_ne_nil _ hplist
  obtain ⟨proverb, ⟨hmem, _⟩, _⟩ := hcomplete entry hentry
  rw [← KeyedStore.mem_entries, hfile] at hmem
  simp at hmem

end Population

/-! ## Marking proverbs -/

/-- The files hold the same proverbs; only what has been viewed may differ. -/
def SameProverbs (file file' : Table RProverb) : Prop :=
  ∃ mark : RProverb → RProverb,
    (∀ p, (mark p).identifier = p.identifier ∧ (mark p).proverbSection = p.proverbSection ∧
      (mark p).text = p.text ∧ (mark p).meaning = p.meaning) ∧
    file'.entries = file.entries.map mark

namespace SameProverbs

variable {plist : ProverbsPlistDictionary} {file file' file'' : Table RProverb}

theorem refl (file : Table RProverb) : SameProverbs file file :=
  ⟨id, fun _ => ⟨rfl, rfl, rfl, rfl⟩, (List.map_id _).symm⟩

theorem trans (h : SameProverbs file file') (h' : SameProverbs file' file'') :
    SameProverbs file file'' := by
  obtain ⟨mark, hmark, hfile⟩ := h
  obtain ⟨mark', hmark', hfile'⟩ := h'
  refine ⟨mark' ∘ mark, fun p => ?_, by rw [hfile', hfile, List.map_map]⟩
  obtain ⟨h1, h2, h3, h4⟩ := hmark p
  obtain ⟨h1', h2', h3', h4'⟩ := hmark' (mark p)
  exact ⟨h1'.trans h1, h2'.trans h2, h3'.trans h3, h4'.trans h4⟩

theorem entries_ne_nil (h : SameProverbs file file') :
    file'.entries ≠ [] ↔ file.entries ≠ [] := by
  obtain ⟨mark, _, hfile⟩ := h
  rw [hfile, Ne, List.map_eq_nil_iff]

theorem complete (h : SameProverbs file file') (hcomplete : Complete plist file) :
    Complete plist file' := by
  obtain ⟨mark, hmark, hfile⟩ := h
  intro entry hentry
  obtain ⟨proverb, ⟨hmem, h1, h2, h3, h4⟩, _⟩ := hcomplete entry hentry
  obtain ⟨m1, m2, m3, m4⟩ := hmark proverb
  have hmem' : mark proverb ∈ file' := by
    rw [← KeyedStore.mem_entries, hfile]
    exact List.mem_map.mpr ⟨proverb, hmem, rfl⟩
  refine ⟨mark proverb, ⟨hmem', m1.trans h1, m2.trans h2, m3.trans h3, m4.trans h4⟩, ?_⟩
  rintro other ⟨hother, hidentifier, _⟩
  exact KeyedStore.eq_of_key_eq hother hmem' (hidentifier.trans (m1.trans h1).symm)

end SameProverbs

section Marking

variable {s s' : Catalogue}

theorem sameProverbs_markAsViewed (throws : Bool) (proverb : RProverb) :
    SameProverbs s.file
      (s.stored (ProverbsStorage.markAsViewed (s.proverbsStorage throws) proverb)).file := by
  cases hopened : s.opened with
  | false =>
      simp only [stored, ProverbsStorage.markAsViewed, LocalStorage.realmWrite, proverbsStorage,
        hopened]
      exact .refl _
  | true =>
      cases throws with
      | true =>
          simp only [stored, ProverbsStorage.markAsViewed, LocalStorage.realmWrite,
            proverbsStorage, hopened]
          exact .refl _
      | false =>
          simp only [stored, ProverbsStorage.markAsViewed, LocalStorage.realmWrite,
            proverbsStorage, hopened]
          refine ⟨_, fun p => ?_, rfl⟩
          split <;> exact ⟨rfl, rfl, rfl, rfl⟩

theorem entries_markAllAsUnviewed (hopened : s.opened = true) (throws : Bool) :
    (s.stored (ProverbsStorage.markAllAsUnviewed (s.proverbsStorage throws))).file.entries =
      if throws then s.file.entries
      else s.file.entries.map fun proverb => { proverb with viewed := false } := by
  cases throws <;>
    simp [stored, ProverbsStorage.markAllAsUnviewed, LocalStorage.realmFindAll,
      LocalStorage.realmWrite, proverbsStorage, hopened, KeyedStore.modify]

theorem sameProverbs_markAllAsUnviewed (throws : Bool) :
    SameProverbs s.file
      (s.stored (ProverbsStorage.markAllAsUnviewed (s.proverbsStorage throws))).file := by
  cases hopened : s.opened with
  | false =>
      simp only [stored, ProverbsStorage.markAllAsUnviewed, LocalStorage.realmFindAll,
        proverbsStorage, hopened]
      exact .refl _
  | true =>
      have hentries := entries_markAllAsUnviewed hopened throws
      cases throws with
      | true => exact ⟨id, fun _ => ⟨rfl, rfl, rfl, rfl⟩, hentries.trans (List.map_id _).symm⟩
      | false =>
          exact ⟨fun proverb => { proverb with viewed := false }, fun _ => ⟨rfl, rfl, rfl, rfl⟩,
            hentries⟩

theorem getNextRandom_spec {choice : Nat} {markAllThrows markThrows : Bool} {proverb : RProverb}
    (h : s.getNextRandom choice markAllThrows markThrows = some (s', proverb)) :
    s'.isInitialPopulated = s.isInitialPopulated ∧ s'.opened = s.opened ∧
      SameProverbs s.file s'.file := by
  obtain ⟨retProverb, _, hp⟩ := Option.map_eq_some_iff.mp h
  rw [Prod.mk.injEq] at hp
  rw [← hp.1]
  split
  · exact ⟨rfl, rfl,
      (sameProverbs_markAllAsUnviewed markAllThrows).trans (sameProverbs_markAsViewed _ _)⟩
  · exact ⟨rfl, rfl, sameProverbs_markAsViewed _ _⟩

theorem getAllUnviewed_eq (hopened : s.opened = true) (throws : Bool) :
    ProverbsStorage.getAllUnviewed (s.proverbsStorage throws) =
      s.file.entries.filter fun proverb => !proverb.viewed := by
  simp [ProverbsStorage.getAllUnviewed, LocalStorage.realmFindAll, proverbsStorage, hopened]

theorem drawn_isSome (choice : Nat) (proverbs : List RProverb) :
    proverbs[choice % proverbs.length]?.isSome ↔ proverbs ≠ [] := by
  cases proverbs with
  | nil => exact iff_of_false Bool.false_ne_true (fun hne => hne rfl)
  | cons proverb rest =>
      have hlt : choice % (proverb :: rest).length < (proverb :: rest).length :=
        Nat.mod_lt choice (Nat.succ_pos rest.length)
      rw [List.getElem?_eq_getElem hlt]
      exact iff_of_true rfl (List.cons_ne_nil proverb rest)

/-- In an open catalogue a proverb can be drawn exactly when some proverb is not
viewed, or there is one and the transaction that marks all as unviewed commits. -/
theorem getNextRandom_isSome (hopened : s.opened = true) (choice : Nat)
    (markAllThrows markThrows : Bool) :
    (s.getNextRandom choice markAllThrows markThrows).isSome ↔
      (∃ proverb ∈ s.file.entries, proverb.viewed = false) ∨
        (markAllThrows = false ∧ s.file.entries ≠ []) := by
  have hunviewed : (s.file.entries.filter fun proverb => !proverb.viewed) ≠ [] ↔
      ∃ proverb ∈ s.file.entries, proverb.viewed = false := by
    simp [List.filter_eq_nil_iff]
  unfold getNextRandom
  rw [Option.isSome_map, drawn_isSome, getAllUnviewed_eq hopened]
  split
  · have hstill : (s.stored (ProverbsStorage.markAllAsUnviewed
        (s.proverbsStorage markAllThrows))).opened = true := hopened
    rw [getAllUnviewed_eq hstill, entries_markAllAsUnviewed hopened]
    cases markAllThrows with
    | true => simp
    | false =>
        have hall : ((s.file.entries.map fun proverb => { proverb with viewed := false }).filter
            fun proverb => !proverb.viewed) ≠ [] ↔ s.file.entries ≠ [] := by
          simp [List.eq_nil_iff_forall_not_mem]
        simp only [Bool.false_eq_true, if_false, true_and, hall]
        constructor
        · exact Or.inr
        · rintro (⟨proverb, hmem, _⟩ | hne)
          · exact List.ne_nil_of_mem hmem
          · exact hne
  · rename_i hmany
    have hsome : (s.file.entries.filter fun proverb => !proverb.viewed) ≠ [] := by
      intro hnil
      simp [hnil] at hmany
    rw [getAllUnviewed_eq hopened]
    exact iff_of_true hsome (Or.inl (hunviewed.mp hsome))

end Marking

/-! ## Launches -/

section Launch

variable {plist : ProverbsPlistDictionary} {s : Catalogue} {plistRead : Bool} {opening : Opening}
  {writeThrows : Bool} {now : Date}

@[simp] theorem isInitialPopulated_launch :
    (s.launch plist plistRead opening writeThrows now).isInitialPopulated = true := by
  unfold launch checkAndPopulateProverbs
  split
  · assumption
  · rfl

@[simp] theorem opened_launch :
    (s.launch plist plistRead opening writeThrows now).opened = opening.opens := by
  unfold launch checkAndPopulateProverbs
  split
  · rfl
  · cases plistRead <;> rfl

theorem file_launch_of_populated (hflag : s.isInitialPopulated = true) :
    (s.launch plist plistRead opening writeThrows now).file = openRealm s.file opening := by
  simp [launch, checkAndPopulateProverbs, hflag]

theorem file_launch_of_new (hflag : s.isInitialPopulated = false) :
    (s.launch plist plistRead opening writeThrows now).file =
      if plistRead = true ∧ opening.opens = true ∧ writeThrows = false then
        (openRealm s.file opening).putAll (realmProverbsList now plist)
      else openRealm s.file opening := by
  simp only [launch, checkAndPopulateProverbs, hflag, Bool.false_eq_true, if_false]
  cases plistRead with
  | false => simp [populateLocalStorageWithProverbs]
  | true =>
      simp only [populateLocalStorageWithProverbs, if_true, stored, proverbsStorage,
        LocalStorage.saveUpdateList, LocalStorage.realmAddOrUpdate, LocalStorage.realmWrite]
      cases opening.opens <;> cases writeThrows <;> simp

theorem entries_openRealm_ne_nil (file : Table RProverb) (opening : Opening) :
    (openRealm file opening).entries ≠ [] ↔ file.entries ≠ [] ∧ opening.erases = false := by
  unfold openRealm
  cases opening.erases <;> simp [KeyedStore.empty]

end Launch

/-! ## Runs -/

section Runs

variable {plist : ProverbsPlistDictionary} {s s' : Catalogue} {event : CatalogueEvent}

/-- The invariant: the file holds nothing before the first launch, and afterwards the
whole catalogue or nothing; an open catalogue that is marked as populated has it. -/
structure Settled (plist : ProverbsPlistDictionary) (s : Catalogue) : Prop where
  fresh : s.isInitialPopulated = false → s.file.entries = []
  whole : s.file.entries ≠ [] → Complete plist s.file
  stocked : s.isInitialPopulated = true → s.opened = true → s.file.entries ≠ []

theorem launch_whole (hdistinct : ((plistEntries plist).map entryIdentifier).Nodup)
    (hs : Settled plist s) {plistRead : Bool} {opening : Opening} {writeThrows : Bool} {now : Date}
    (hne : (s.launch plist plistRead opening writeThrows now).file.entries ≠ []) :
    Complete plist (s.launch plist plistRead opening writeThrows now).file := by
  cases hflag : s.isInitialPopulated with
  | true =>
      rw [file_launch_of_populated hflag] at hne ⊢
      obtain ⟨hfile, hkept⟩ := (entries_openRealm_ne_nil _ _).mp hne
      have hsame : openRealm s.file opening = s.file := by simp [openRealm, hkept]
      rw [hsame]
      exact hs.whole hfile
  | false =>
      rw [file_launch_of_new hflag] at hne ⊢
      split
      · exact complete_putAll hdistinct _ now
      · rename_i hfailed
        rw [if_neg hfailed] at hne
        exact absurd (hs.fresh hflag) ((entries_openRealm_ne_nil _ _).mp hne).1

/-- A launch that opens the Realm ends with proverbs in the file exactly when the
guard holds. -/
theorem launch_stocked_iff (hdistinct : ((plistEntries plist).map entryIdentifier).Nodup)
    (hplist : plistEntries plist ≠ []) (hs : Settled plist s) {plistRead : Bool}
    {opening : Opening} {writeThrows : Bool} {now : Date} (hopens : opening.opens = true) :
    (s.launch plist plistRead opening writeThrows now).file.entries ≠ [] ↔
      PopulationKept s (.launch plistRead opening writeThrows now) := by
  simp only [PopulationKept, hopens, true_implies]
  cases hflag : s.isInitialPopulated with
  | true =>
      rw [file_launch_of_populated hflag, entries_openRealm_ne_nil]
      simp
  | false =>
      have hempty : (openRealm s.file opening).entries = [] := by
        by_contra hne
        exact ((entries_openRealm_ne_nil _ _).mp hne).1 (hs.fresh hflag)
      rw [file_launch_of_new hflag]
      simp only [hopens, true_and, Bool.false_eq_true, if_false]
      split
      · rename_i hdone
        have hcomplete := complete_putAll hdistinct (openRealm s.file opening) now
        exact iff_of_true (fun hnil => not_complete_of_empty hplist hnil hcomplete) hdone
      · rename_i hfailed
        exact iff_of_false (fun hne => hne hempty) hfailed

theorem settled_step (hdistinct : ((plistEntries plist).map entryIdentifier).Nodup)
    (hplist : plistEntries plist ≠ []) (hs : Settled plist s) (hkept : PopulationKept s event)
    (h : step plist s event = some s') : Settled plist s' := by
  cases event with
  | launch plistRead opening writeThrows now =>
      obtain rfl := Option.some.inj h
      refine ⟨fun hflag => ?_, launch_whole hdistinct hs, fun _ hopened => ?_⟩
      · rw [isInitialPopulated_launch] at hflag
        exact absurd hflag (by decide)
      · rw [opened_launch] at hopened
        exact (launch_stocked_iff hdistinct hplist hs hopened).mpr hkept
  | getNextRandom choice markAllThrows markThrows =>
      obtain ⟨⟨t, proverb⟩, hdrawn, rfl⟩ := Option.map_eq_some_iff.mp h
      obtain ⟨hflag, hopened, hsame⟩ := getNextRandom_spec hdrawn
      have hempty := hsame.entries_ne_nil
      refine ⟨fun hnew => ?_, fun hne => ?_, fun hpopulated hopen => ?_⟩
      · by_contra hne
        exact hempty.mp hne (hs.fresh (hflag ▸ hnew))
      · exact hsame.complete (hs.whole (hempty.mp hne))
      · exact hempty.mpr (hs.stocked (hflag ▸ hpopulated) (hopened ▸ hopen))

theorem populatedComplete_iff (hdistinct : ((plistEntries plist).map entryIdentifier).Nodup)
    (hplist : plistEntries plist ≠ []) (hs : Settled plist s) :
    PopulatedComplete plist s event ↔ PopulationKept s event := by
  constructor
  · rintro ⟨hcomplete, hdraws⟩
    cases event with
    | launch plistRead opening writeThrows now =>
        intro hopens
        have hwhole := hcomplete _ rfl isInitialPopulated_launch (opened_launch.trans hopens)
        have hkept := (launch_stocked_iff hdistinct hplist hs hopens).mp
          fun hnil => not_complete_of_empty hplist hnil hwhole
        exact hkept hopens
    | getNextRandom choice markAllThrows markThrows =>
        intro hflag hopened
        obtain ⟨s', h⟩ := hdraws _ _ _ rfl hflag hopened hplist
        obtain ⟨_, hdrawn, _⟩ := Option.map_eq_some_iff.mp h
        have hsome := Option.isSome_iff_exists.mpr ⟨_, hdrawn⟩
        exact ((getNextRandom_isSome hopened _ _ _).mp hsome).imp_right And.left
  · intro hkept
    refine ⟨fun s' h hflag hopened => ?_, ?_⟩
    · have hs' := settled_step hdistinct hplist hs hkept h
      exact hs'.whole (hs'.stocked hflag hopened)
    · rintro choice markAllThrows markThrows rfl hflag hopened _
      have hdrawn := (getNextRandom_isSome hopened choice markAllThrows markThrows).mpr
        ((hkept hflag hopened).imp_right fun hcommits => ⟨hcommits, hs.stocked hflag hopened⟩)
      obtain ⟨drawn, hdrawn⟩ := Option.isSome_iff_exists.mp hdrawn
      exact ⟨drawn.1, by simp [step, hdrawn]⟩

end Runs

/-- From a new device on, for a plist with distinct identifiers: a populated and open
catalogue is always complete and a random proverb can always be drawn from it exactly
when the plist is empty or every event meets the guard. -/
theorem populated_complete_iff (plist : ProverbsPlistDictionary)
    (hdistinct : ((plistEntries plist).map entryIdentifier).Nodup)
    (events : List CatalogueEvent) :
    Transition.Along (step plist) (PopulatedComplete plist) installed events ↔
      plistEntries plist = [] ∨
        Transition.Along (step plist) (fun s event => PopulationKept s event) installed events := by
  by_cases hplist : plistEntries plist = []
  · have hall : ∀ s event, True → PopulatedComplete plist s event := by
      intro s event _
      constructor
      · intro s' _ _ _ entry hentry
        simp [hplist] at hentry
      · intro _ _ _ _ _ _ hne
        exact absurd hplist hne
    refine iff_of_true ?_ (Or.inl hplist)
    exact Transition.Along.mono hall
      (Transition.along_of_forall (Q := fun _ => True) (fun _ _ => trivial) installed)
  · have hstart : Settled plist installed := by
      refine ⟨fun _ => rfl, fun hne => absurd rfl hne, fun hflag => ?_⟩
      exact absurd hflag (by decide)
    rw [or_iff_right hplist]
    apply Transition.along_congr (I := Settled plist)
    · intro s event _ s' hs hkept h
      exact settled_step hdistinct hplist hs hkept h
    · intro s event _ hs
      exact populatedComplete_iff hdistinct hplist hs
    · exact hstart

def oneProverb : ProverbsPlistDictionary :=
  Dictionary.set KeyedStore.empty "A"
    [Dictionary.set (Dictionary.set KeyedStore.empty "identifier" "1") "text" "text"]

theorem populated_complete_oneProverb :
    Transition.Along (step oneProverb) (PopulatedComplete oneProverb) installed
      [.launch true ⟨true, false, false⟩ false 0, .getNextRandom 0 false false] := by
  apply (populated_complete_iff oneProverb (by decide) _).mpr
  right
  refine ⟨fun _ => ⟨rfl, rfl⟩, fun s h => ?_⟩
  obtain rfl := Option.some.inj h
  exact ⟨fun _ _ => Or.inr rfl, fun _ _ => trivial⟩

/-- The plist could not be read at the first launch; the second one finds the flag
set and no proverb. -/
theorem flag_set_without_population :
    ¬ Transition.Along (step oneProverb) (PopulatedComplete oneProverb) installed
      [.launch false ⟨true, false, false⟩ false 0] := by
  intro h
  have hcomplete := h.1.1 _ rfl rfl rfl
  exact not_complete_of_empty (by decide) rfl hcomplete

end Catalogue

end Proverbs
