import Proverbs.Managers.Effects
import Proverbs.Managers.Migration

/-! # Migrations racing with everything else

Any number of migrations are under way while favourites are saved and deleted
locally and users come and go. A migration uploads the favourites it read before
its round trips and then deletes whatever the storage holds. Its pending call
carries what has been secured so far; a favourite once held by a collection stays
held, so the rest is a question about the favourites that came later.
-/

namespace Proverbs.App

/-- Every favourite a migration has erased is in the collection of its user. -/
def ErasedAreHeld (s : App) : Prop :=
  ∀ user erased, Output.migrated user erased ∈ s.outputs →
    ∀ f ∈ erased, (s.firestore.favorites user).Holds f.originIdentifier

/-- Favourites are handled locally, and every operation of Firestore succeeds. -/
def isRaceEvent (s : App) (input : Input) : Bool :=
  match input.event with
  | .getAll | .isFavorite _ | .save _ | .delete _ | .checkAndSaveOrDeleteFavorite _ =>
      s.isLocalStorage
  | .serve _ outcome => outcome = .success
  | _ => true

/-! ## The condition -/

/-- No entry of the batch takes the document of another proverb. -/
def KeepsOrigins (collection : Collection) (batch : List FFavoriteProverb) : Prop :=
  ∀ f ∈ batch, ∀ document ∈ collection, document.documentID = f.identifier →
    document.favorite.originIdentifier = f.originIdentifier

/-- There is nothing to migrate, or `remoteStorage` works on the user's collection. -/
def MigratesTo (s : App) (user : UserIdentifier) : Prop :=
  s.localStorage.objects = [] ∨ s.remoteCollection = some user

/-- A favourite saved since the migration read the storage has its proverb among
those read, or in the collection; on a Realm that is not available nothing is erased. -/
def NothingNew (s : App) (migration : Migration) : Prop :=
  s.localStorage.Available → ∀ f ∈ s.localStorage.objects,
    f.originIdentifier ∈ migration.localProverbs.map RFavoriteProverb.originIdentifier ∨
      (s.firestore.favorites migration.user).Holds f.originIdentifier

/-- What the callback of a migration relies on when it runs. -/
def CallbackGuarded (s : App) (callback : Callback) (response : Response) : Prop :=
  match callback with
  | .userDocumentLoaded manager =>
      response = .userDocument true → s.MigratesTo manager.currentUserIdentifier
  | .userCreated manager =>
      FirestoreManager.writeResult response = true → s.MigratesTo manager.currentUserIdentifier
  | .favoritesFetched migration =>
      match FirestoreManager.getAllFavoriteProverbsResult response with
      | .ok favorites =>
          if filter migration.localProverbs favorites = [] then s.NothingNew migration
          else s.remoteCollection = some migration.user
      | .error _ => s.remoteCollection = some migration.user
  | .favoritesUploaded migration => s.NothingNew migration
  | _ => True

def MigrationGuarded (s : App) (input : Input) : Prop :=
  match input.event with
  | .serve index _ =>
      match s.calls[index]? with
      | some ⟨.commit user batch, _, none⟩ => KeepsOrigins (s.firestore.favorites user) batch
      | _ => True
  | .deliver index =>
      match s.calls[index]? with
      | some ⟨_, callback, some response⟩ => s.CallbackGuarded callback response
      | _ => True
  | _ => True

/-! ## The invariant -/

/-- What a pending call of a migration has secured. -/
inductive MigrationCall (firestore : Firestore) : Call → Prop where
  | load (manager : FirestoreManager) (response : Option Response) :
      MigrationCall firestore ⟨.getUserDocument manager.currentUserIdentifier,
        .userDocumentLoaded manager, response⟩
  | create (manager : FirestoreManager) (response : Option Response) :
      MigrationCall firestore ⟨.setUserDocument manager.currentUserIdentifier,
        .userCreated manager, response⟩
  | fetch (migration : Migration) (response : Option Response)
      (nonempty : migration.localProverbs ≠ [])
      (nodup : (migration.localProverbs.map RFavoriteProverb.identifier).Nodup)
      (fetched : ∀ r, response = some r → ∃ documents, r = .documents documents ∧
        ∀ document ∈ documents,
          (firestore.favorites migration.user).Holds document.favorite.originIdentifier) :
      MigrationCall firestore ⟨.getDocuments migration.user, .favoritesFetched migration, response⟩
  | upload (migration : Migration) (batch : List FFavoriteProverb) (response : Option Response)
      (nodup : (batch.map FFavoriteProverb.identifier).Nodup)
      (covered : ∀ f ∈ migration.localProverbs,
        f.originIdentifier ∈ batch.map FFavoriteProverb.originIdentifier ∨
          (firestore.favorites migration.user).Holds f.originIdentifier)
      (uploaded : response.isSome → ∀ f ∈ migration.localProverbs,
        (firestore.favorites migration.user).Holds f.originIdentifier) :
      MigrationCall firestore ⟨.commit migration.user batch, .favoritesUploaded migration,
        response⟩

structure Racing (s : App) : Prop where
  calls : ∀ call ∈ s.calls, MigrationCall s.firestore call
  erased : ErasedAreHeld s

/-! ## What is held stays held -/

def HoldsMore (firestore firestore' : Firestore) : Prop :=
  ∀ user originIdentifier, (firestore.favorites user).Holds originIdentifier →
    (firestore'.favorites user).Holds originIdentifier

theorem MigrationCall.mono {firestore firestore' : Firestore} {call : Call}
    (h : MigrationCall firestore call) (hmore : HoldsMore firestore firestore') :
    MigrationCall firestore' call := by
  cases h with
  | load manager response => exact .load manager response
  | create manager response => exact .create manager response
  | fetch migration response nonempty nodup fetched =>
      refine .fetch migration response nonempty nodup fun r hr => ?_
      obtain ⟨documents, hdocuments, hheld⟩ := fetched r hr
      exact ⟨documents, hdocuments, fun document hmem => hmore _ _ (hheld document hmem)⟩
  | upload migration batch response nodup covered uploaded =>
      refine .upload migration batch response nodup (fun f hf => ?_) fun hserved f hf => ?_
      · exact (covered f hf).imp_right (hmore _ _)
      · exact hmore _ _ (uploaded hserved f hf)

theorem Racing.mono {s t : App} (h : Racing s) (hmore : HoldsMore s.firestore t.firestore)
    (hcalls : t.calls = s.calls) (houtputs : t.outputs = s.outputs) : Racing t := by
  constructor
  · rw [hcalls]
    exact fun call hmem => (h.calls call hmem).mono hmore
  · intro user erased hout f hf
    rw [houtputs] at hout
    exact hmore _ _ (h.erased user erased hout f hf)

section Commit

variable {collection : Collection} {batch : List FFavoriteProverb}

theorem holds_putAll_of_mem (hnodup : (batch.map FFavoriteProverb.identifier).Nodup)
    {f : FFavoriteProverb} (hf : f ∈ batch) :
    Collection.Holds (collection.putAll (batch.map Document.ofFavorite)) f.originIdentifier := by
  have hdistinct := map_documentID_ofFavorite batch ▸ hnodup
  exact ⟨Document.ofFavorite f,
    (KeyedStore.mem_putAll hdistinct).mpr (Or.inl (List.mem_map_of_mem hf)), rfl⟩

/-- A document the batch replaces gives way to one of the same proverb. -/
theorem holds_putAll_of_holds (hnodup : (batch.map FFavoriteProverb.identifier).Nodup)
    (hkeeps : KeepsOrigins collection batch) {originIdentifier : Identifier}
    (h : collection.Holds originIdentifier) :
    Collection.Holds (collection.putAll (batch.map Document.ofFavorite)) originIdentifier := by
  have hdistinct := map_documentID_ofFavorite batch ▸ hnodup
  obtain ⟨document, hmem, horigin⟩ := h
  by_cases hid : document.documentID ∈ batch.map FFavoriteProverb.identifier
  · obtain ⟨f, hf, heq⟩ := List.mem_map.mp hid
    rw [← horigin, hkeeps f hf document hmem heq.symm]
    exact holds_putAll_of_mem hnodup hf
  · refine ⟨document, (KeyedStore.mem_putAll hdistinct).mpr (Or.inr ⟨hmem, ?_⟩), horigin⟩
    rw [map_documentID_ofFavorite]
    exact hid

theorem holdsMore_commit {firestore : Firestore} {user : UserIdentifier}
    (hnodup : (batch.map FFavoriteProverb.identifier).Nodup)
    (hkeeps : KeepsOrigins (firestore.favorites user) batch) :
    HoldsMore firestore (firestore.serve (.commit user batch) .success).1 := by
  intro other originIdentifier hheld
  by_cases hsame : other = user
  · subst hsame
    simpa [Firestore.serve, Firestore.write] using holds_putAll_of_holds hnodup hkeeps hheld
  · simpa [Firestore.serve, Firestore.write, Firestore.favorites_updateFavorites_ne _ _ hsame]
      using hheld

end Commit

/-! ## Steps beside the migrations -/

def isMigrated : Output → Bool
  | .migrated .. => true
  | _ => false

/-- At most user documents are loaded, and no migration ends. -/
abbrev Aside : App → App → Prop := Extends IsLoad (fun o => isMigrated o = false)

theorem Extends.aside {s t : App} (h : AccountEffect s t) : Aside s t := by
  refine h.mono (fun _ hload => hload) fun o ho => ?_
  cases o <;> simp_all [isAccountOutput, isMigrated]

theorem Racing.aside {s t : App} (h : Racing s) (haside : Aside s t) : Racing t := by
  obtain ⟨⟨cs, hcalls, hcs⟩, ⟨os, houtputs, hos⟩, _, hfirestore⟩ := haside
  constructor
  · rw [hcalls, hfirestore]
    intro call hmem
    rcases List.mem_append.mp hmem with hmem | hmem
    · exact h.calls call hmem
    · obtain ⟨manager⟩ := hcs call hmem
      exact .load manager none
  · intro user erased hout
    rw [houtputs] at hout
    rw [hfirestore]
    rcases List.mem_append.mp hout with hout | hout
    · exact h.erased user erased hout
    · exact absurd (hos _ hout) (by simp [isMigrated])

section Local

variable {s s' : App} {request : Nat} {random : Identifier} {now : Date}

theorem aside_save {proverb : Proverb} (hlocal : s.isLocalStorage = true)
    (h : s.save proverb request random now = some s') : Aside s s' := by
  simp only [save] at h
  split at h
  · split at h
    · rw [← Option.some.inj h]
      have hcalled : Aside s (s.output (.saveCalled request s.isPurchased s.storedCount)) :=
        Extends.output rfl
      refine (hcalled.trans (Extends.checkAndSaveLocal proverb random now)).trans ?_
      apply Extends.saveCompleted
      · rfl
      · exact fun _ => rfl
    · rename_i hremote
      exact absurd hlocal hremote
  · simp at h

theorem aside_delete {proverb : Proverb} (hlocal : s.isLocalStorage = true)
    (h : s.delete proverb request = some s') : Aside s s' := by
  simp only [delete, hlocal, if_true] at h
  split at h
  · obtain ⟨⟨t, error⟩, ht, rfl⟩ := Option.map_eq_some_iff.mp h
    refine (Extends.checkAndDeleteLocal ht).trans ?_
    apply Extends.deleteCompleted
    · rfl
    · exact fun _ => rfl
  · simp at h

theorem aside_isFavorite {proverb : Proverb} {completion : CheckCompletion}
    (hlocal : s.isLocalStorage = true)
    (h : s.isFavorite proverb completion random now = some s') : Aside s s' := by
  simp only [isFavorite, hlocal, if_true] at h
  cases completion with
  | answer request =>
      rw [← Option.some.inj h]
      exact Extends.output rfl
  | checkAndSaveOrDelete request proverb =>
      simp only [checkCompleted] at h
      split at h
      · exact aside_delete hlocal h
      · exact aside_save hlocal h

theorem aside_getAll (hlocal : s.isLocalStorage = true) : Aside s (s.getAll request) := by
  simp only [getAll, hlocal, if_true]
  split <;> exact Extends.output rfl

end Local

/-! ## The steps of a migration -/

section Steps

variable {s s' : App}

theorem Racing.call (h : Racing s) {operation : Operation} {callback : Callback}
    (hcall : MigrationCall s.firestore ⟨operation, callback, none⟩) :
    Racing (s.call operation callback) := by
  constructor
  · intro call hmem
    rcases List.mem_append.mp hmem with hmem | hmem
    · exact h.calls call hmem
    · rw [List.mem_singleton.mp hmem]
      exact hcall
  · exact h.erased

theorem Racing.migrationCompleted (h : Racing s) {user : UserIdentifier} (result : Bool)
    (hheld : s.localStorage.Available → ∀ f ∈ s.localStorage.objects,
      (s.firestore.favorites user).Holds f.originIdentifier) :
    Racing (s.migrationCompleted user result) := by
  constructor
  · exact h.calls
  · intro other erased hout f hf
    rcases List.mem_append.mp hout with hout | hout
    · exact h.erased other erased hout f hf
    · obtain ⟨rfl, rfl⟩ := Output.migrated.inj (List.mem_singleton.mp hout)
      by_cases havailable : s.localStorage.Available
      · exact hheld havailable f (List.mem_of_mem_filter hf)
      · have hobjects := LocalStorage.objects_deleteAll_of_not_available havailable
        simp [hobjects] at hf

theorem Racing.nothingNew (h : Racing s) {migration : Migration} (result : Bool)
    (hnew : s.NothingNew migration)
    (hheld : ∀ f ∈ migration.localProverbs,
      (s.firestore.favorites migration.user).Holds f.originIdentifier) :
    Racing (s.migrationCompleted migration.user result) := by
  refine h.migrationCompleted result fun havailable f hf => ?_
  rcases hnew havailable f hf with hread | hlater
  · obtain ⟨g, hg, horigin⟩ := List.mem_map.mp hread
    rw [← horigin]
    exact hheld g hg
  · exact hlater

theorem Racing.saveToRemoteStorage (h : Racing s) {migration : Migration}
    {proverbs : List RFavoriteProverb} (hcollection : s.remoteCollection = some migration.user)
    (hne : proverbs ≠ []) (hnodup : (proverbs.map RFavoriteProverb.identifier).Nodup)
    (hcovered : ∀ f ∈ migration.localProverbs, f ∈ proverbs ∨
      (s.firestore.favorites migration.user).Holds f.originIdentifier)
    (hs : s.saveToRemoteStorage migration proverbs = some s') : Racing s' := by
  obtain ⟨manager, hm, hu⟩ := Option.bind_eq_some_iff.mp hcollection
  have hsent : manager.saveAll (proverbs.map FFavoriteProverb.ofRFavoriteProverb) =
      .sent (.commit migration.user (proverbs.map FFavoriteProverb.ofRFavoriteProverb)) := by
    simp [FirestoreManager.saveAll, hu, hne]
  simp only [App.saveToRemoteStorage, hm, hsent] at hs
  split at hs
  · rw [← Option.some.inj hs]
    refine h.call (.upload migration _ none ?_ (fun f hf => ?_) (by simp))
    · rw [List.map_map]
      exact hnodup
    · refine (hcovered f hf).imp_left fun hupload => ?_
      rw [List.map_map]
      exact List.mem_map_of_mem hupload
  · simp at hs

theorem Racing.favoritesFetched (h : Racing s) {migration : Migration} {documents : List Document}
    (hne : migration.localProverbs ≠ [])
    (hnodup : (migration.localProverbs.map RFavoriteProverb.identifier).Nodup)
    (hheld : ∀ document ∈ documents,
      (s.firestore.favorites migration.user).Holds document.favorite.originIdentifier)
    (hguard : s.CallbackGuarded (.favoritesFetched migration) (.documents documents))
    (hs : s.favoritesFetched migration (.ok (documents.map Document.favorite)) = some s') :
    Racing s' := by
  have hcovered : ∀ f ∈ migration.localProverbs,
      f ∈ filter migration.localProverbs (documents.map Document.favorite) ∨
        (s.firestore.favorites migration.user).Holds f.originIdentifier := by
    intro f hf
    by_cases hfetched : ∃ g ∈ documents.map Document.favorite,
        g.originIdentifier = f.originIdentifier
    · obtain ⟨g, hg, horigin⟩ := hfetched
      obtain ⟨document, hmem, rfl⟩ := List.mem_map.mp hg
      exact Or.inr (horigin ▸ hheld document hmem)
    · exact Or.inl (mem_filter.mpr ⟨hf, fun g hg horigin => hfetched ⟨g, hg, horigin⟩⟩)
  have hfilter : ((filter migration.localProverbs (documents.map Document.favorite)).map
      RFavoriteProverb.identifier).Nodup :=
    hnodup.sublist (List.filter_sublist.map _)
  simp only [CallbackGuarded, FirestoreManager.getAllFavoriteProverbsResult] at hguard
  simp only [App.favoritesFetched] at hs
  split at hs
  · split at hs
    · split at hs
      · rename_i hsome
        have hupload := List.ne_nil_of_length_pos hsome
        rw [if_neg hupload] at hguard
        exact h.saveToRemoteStorage hguard hupload hfilter hcovered hs
      · rename_i hnone
        have hnil : filter migration.localProverbs (documents.map Document.favorite) = [] := by
          simpa using hnone
        rw [if_pos hnil] at hguard
        rw [← Option.some.inj hs]
        refine h.nothingNew true hguard fun f hf => ?_
        exact (hcovered f hf).resolve_left (by simp [hnil])
    · simp at hs
  · rename_i hempty
    have hall : filter migration.localProverbs (documents.map Document.favorite) =
        migration.localProverbs := by
      have hnil : documents = [] := by simpa using hempty
      simp [filter, hnil]
    rw [hall, if_neg hne] at hguard
    rw [hall] at hcovered
    exact h.saveToRemoteStorage hguard hne hnodup hcovered hs

theorem Racing.checkAndMigrate (h : Racing s) {user : UserIdentifier} (hguard : s.MigratesTo user)
    (hs : s.checkAndMigrateLocalFavoriteProverbs user = some s') : Racing s' := by
  have hempty : s.localStorage.objects = [] → ∀ result,
      some (s.migrationCompleted user result) = some s' → Racing s' := by
    intro hnil result hdone
    rw [← Option.some.inj hdone]
    exact h.migrationCompleted result (by simp [hnil])
  cases hall : s.localStorage.getAll with
  | none =>
      simp only [checkAndMigrateLocalFavoriteProverbs, hall] at hs
      exact hempty (by simp [LocalStorage.objects, hall]) true hs
  | some localProverbs =>
      obtain rfl := LocalStorage.objects_of_getAll hall
      by_cases hnil : s.localStorage.objects = []
      · simp only [checkAndMigrateLocalFavoriteProverbs, hall, hnil, List.length_nil,
          Nat.lt_irrefl, if_false] at hs
        exact hempty hnil true hs
      · obtain ⟨manager, hm, hu⟩ := Option.bind_eq_some_iff.mp (hguard.resolve_left hnil)
        simp only [checkAndMigrateLocalFavoriteProverbs, hall, hm, List.length_pos_iff, ne_eq, hnil,
          not_false_eq_true, if_true, FirestoreManager.getAllFavoriteProverbs, hu] at hs
        rw [← Option.some.inj hs]
        exact h.call (.fetch ⟨user, s.localStorage.objects⟩ none hnil
          s.localStorage.objects_nodup (by simp))

theorem Racing.userDocumentReady (h : Racing s) {manager : FirestoreManager} {result : Bool}
    (hguard : result = true → s.MigratesTo manager.currentUserIdentifier)
    (hs : s.userDocumentReady manager result = some s') : Racing s' := by
  unfold App.userDocumentReady at hs
  split at hs
  · rename_i hready
    exact h.checkAndMigrate (hguard hready) hs
  · rw [← Option.some.inj hs]
    exact h.mono (fun _ _ hheld => hheld) rfl rfl

theorem Racing.serve (h : Racing s) {index : Nat} {random : Identifier} {now : Date}
    (hguard : s.MigrationGuarded ⟨.serve index .success, random, now⟩) :
    Racing (s.serve index .success) := by
  unfold App.serve
  split
  · rename_i operation callback hcall
    let served := s.firestore.serve operation .success
    let t : App := { s with
      firestore := served.1
      calls := s.calls.set index ⟨operation, callback, some served.2⟩ }
    have hserved : HoldsMore s.firestore served.1 →
        MigrationCall served.1 ⟨operation, callback, some served.2⟩ → Racing t := by
      intro hmore hnew
      constructor
      · intro call hmem
        rcases List.mem_or_eq_of_mem_set hmem with hmem | rfl
        · exact (h.calls call hmem).mono hmore
        · exact hnew
      · exact fun user erased hout f hf => hmore _ _ (h.erased user erased hout f hf)
    have hpending := h.calls _ (List.mem_of_getElem? hcall)
    cases hpending with
    | load manager response => exact hserved (fun _ _ hheld => hheld) (.load manager _)
    | create manager response => exact hserved (fun _ _ hheld => hheld) (.create manager _)
    | fetch migration response nonempty nodup fetched =>
        refine hserved (fun _ _ hheld => hheld) (.fetch migration _ nonempty nodup ?_)
        intro r hr
        refine ⟨_, (Option.some.inj hr).symm, fun document hmem => ?_⟩
        exact ⟨document, Collection.mem_documents.mp hmem, rfl⟩
    | upload migration batch response nodup covered uploaded =>
        simp only [MigrationGuarded, hcall] at hguard
        have hmore : HoldsMore s.firestore served.1 := holdsMore_commit nodup hguard
        have hheld : ∀ f ∈ migration.localProverbs,
            (served.1.favorites migration.user).Holds f.originIdentifier := by
          intro f hf
          rcases covered f hf with hbatch | hheld
          · obtain ⟨g, hg, horigin⟩ := List.mem_map.mp hbatch
            rw [← horigin]
            simpa [served, Firestore.serve, Firestore.write] using holds_putAll_of_mem nodup hg
          · exact hmore _ _ hheld
        exact hserved hmore
          (.upload migration batch _ nodup (fun f hf => Or.inr (hheld f hf)) fun _ => hheld)
  · exact h

theorem Racing.deliver (h : Racing s) {index : Nat} {random : Identifier} {now : Date}
    (hguard : s.MigrationGuarded ⟨.deliver index, random, now⟩)
    (hs : s.deliver index random now = some s') : Racing s' := by
  unfold App.deliver at hs
  split at hs
  · rename_i operation callback response hcall
    simp only [MigrationGuarded, hcall] at hguard
    let t : App := { s with calls := s.calls.eraseIdx index }
    have herase : Racing t := by
      constructor
      · exact fun call hmem => h.calls call (List.mem_of_mem_eraseIdx hmem)
      · exact h.erased
    have hpending := h.calls _ (List.mem_of_getElem? hcall)
    cases hpending with
    | load manager _ =>
        simp only [called, userDocumentLoaded] at hs
        split at hs
        · exact herase.userDocumentReady (fun _ => hguard rfl) hs
        · rw [← Option.some.inj hs]
          exact herase.call (.create manager none)
        · exact herase.userDocumentReady (by simp) hs
    | create manager _ => exact herase.userDocumentReady hguard hs
    | fetch migration _ nonempty nodup fetched =>
        obtain ⟨documents, rfl, hheld⟩ := fetched response rfl
        exact herase.favoritesFetched nonempty nodup hheld hguard hs
    | upload migration batch _ nodup covered uploaded =>
        rw [← Option.some.inj hs]
        exact herase.nothingNew _ hguard (uploaded rfl)
  · rw [← Option.some.inj hs]
    exact h

theorem racing_launch (s : App) (throws : Bool) : Racing (s.launch throws) := by
  refine Racing.aside ?_ (effect_launch s throws).aside
  constructor <;> simp [ErasedAreHeld]

/-- Every step of a race keeps what the migrations have secured. -/
theorem racing_step {input : Input} (h : Racing s)
    (hguard : isRaceEvent s input = true ∧ s.MigrationGuarded input)
    (hs : step s input = some s') : Racing s' := by
  obtain ⟨event, random, now⟩ := input
  obtain ⟨hevent, hguard⟩ := hguard
  have htake : Racing s.takeRequest := h.mono (fun _ _ hheld => hheld) rfl rfl
  cases event with
  | launch throws =>
      rw [← Option.some.inj hs]
      exact racing_launch s throws
  | getAll =>
      rw [← Option.some.inj hs]
      exact htake.aside (aside_getAll hevent)
  | isFavorite proverb => exact htake.aside (aside_isFavorite hevent hs)
  | save proverb => exact htake.aside (aside_save hevent hs)
  | delete proverb => exact htake.aside (aside_delete hevent hs)
  | checkAndSaveOrDeleteFavorite proverb => exact htake.aside (aside_isFavorite hevent hs)
  | serve index outcome =>
      obtain rfl : outcome = .success := of_decide_eq_true hevent
      rw [← Option.some.inj hs]
      exact h.serve hguard
  | deliver index => exact h.deliver hguard hs
  | realmWrites throw =>
      rw [← Option.some.inj hs]
      exact h.mono (fun _ _ hheld => hheld) rfl rfl
  | _ =>
      rcases effect_step rfl hs with heffect | heffect
      · exact h.aside heffect.aside
      · exact htake.aside heffect.aside

end Steps

/-- In every race from a launch in which the callbacks find `remoteStorage` where their
migration needs it and nothing new in the storage they empty, every favourite a
migration has erased is in the collection of its user. -/
theorem erased_are_held_along (device : App) (throws : Bool) (inputs : List Input)
    (hrace : Transition.Along step (fun s input => isRaceEvent s input = true)
      (device.launch throws) inputs)
    (hguarded : Transition.Along step MigrationGuarded (device.launch throws) inputs) :
    Transition.Along step (fun s _ => ErasedAreHeld s) (device.launch throws) inputs ∧
      ∀ t, Transition.run step (device.launch throws) inputs = some t → ErasedAreHeld t := by
  have hkeep : ∀ s input s', Racing s →
      isRaceEvent s input = true ∧ s.MigrationGuarded input → step s input = some s' →
      Racing s' := fun _ _ _ hs hguard h => racing_step hs hguard h
  have hlaunch := racing_launch device throws
  have hboth := hrace.and hguarded
  constructor
  · exact Transition.along_of_invariant hkeep (fun _ _ hs _ => hs.erased) hlaunch hboth
  · intro t ht
    exact (Transition.run_invariant hkeep hlaunch hboth ht).erased

/-- The device of a known user, with one local favourite. -/
def knownUser : App :=
  { oneFavorite with
    firstLaunchFlag := true
    firestore := ⟨fun _ => true, fun _ => KeyedStore.empty⟩ }

def oneMigration : List Input :=
  [.serve 0 .success, .deliver 0, .serve 0 .success, .deliver 0, .serve 0 .success,
    .deliver 0].map fun event => ⟨event, "", 0⟩

theorem erased_are_held_along_uploaded :
    ∃ t, Transition.run step (knownUser.launch false) oneMigration = some t ∧ ErasedAreHeld t := by
  refine ⟨_, rfl, (erased_are_held_along knownUser false oneMigration (by decide) ?_).2 _ rfl⟩
  refine ⟨trivial, fun s₁ h₁ => ?_⟩
  obtain rfl := Option.some.inj h₁
  refine ⟨fun _ => Or.inr rfl, fun s₂ h₂ => ?_⟩
  obtain rfl := Option.some.inj h₂
  refine ⟨trivial, fun s₃ h₃ => ?_⟩
  obtain rfl := Option.some.inj h₃
  refine ⟨rfl, fun s₄ h₄ => ?_⟩
  obtain rfl := Option.some.inj h₄
  refine ⟨fun _ _ _ hmem => absurd hmem List.not_mem_nil, fun s₅ h₅ => ?_⟩
  obtain rfl := Option.some.inj h₅
  exact ⟨fun _ f hf => Or.inl (List.mem_map_of_mem hf), fun _ _ => trivial⟩

/-- Another proverb is saved while the batch of the migration is under way. -/
def savedMeanwhile : List Input :=
  ([.serve 0 .success, .deliver 0, .serve 0 .success, .deliver 0].map fun event =>
    ⟨event, "", 0⟩) ++
  [⟨.save (.rProverb ⟨"later", 0, "", "", "", false⟩), "other", 0⟩,
    ⟨.serve 0 .success, "", 0⟩, ⟨.deliver 0, "", 0⟩]

/-- The favourite saved meanwhile is erased with those that were uploaded. -/
theorem late_save_erased :
    ¬ (Transition.Along step (fun s input => isRaceEvent s input = true)
        (knownUser.launch false) savedMeanwhile →
      ∀ t, Transition.run step (knownUser.launch false) savedMeanwhile = some t →
        ErasedAreHeld t) := by
  intro h
  have hheld := h (by decide) _ rfl "user"
    [⟨"favorite", "proverb", 0, "", "", ""⟩, ⟨"other", "later", 0, "", "", ""⟩] (by decide)
    ⟨"other", "later", 0, "", "", ""⟩ (by decide)
  exact absurd hheld (by decide)

end Proverbs.App
