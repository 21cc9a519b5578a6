import Proverbs.Managers.Calculus

/-! # One run of the migration

`setupFirestoreManager` followed through its callbacks with nothing in between,
for every outcome of each step. The run is a function of the state it starts in:
`afterSetup` is that function, and `settle_setupFirestoreManager` says the
callbacks compute it. What survives is then a question about one batch.
-/

namespace Proverbs

/-- The user document is loaded, or missing and created. -/
def Firestore.UserDocumentLoads (firestore : Firestore) (user : UserIdentifier)
    (outcome : Operation → Outcome) : Prop :=
  outcome (.getUserDocument user) = .success ∧
    (firestore.userExists user = true ∨ outcome (.setUserDocument user) ≠ .error)

instance (firestore : Firestore) (user : UserIdentifier) (outcome : Operation → Outcome) :
    Decidable (firestore.UserDocumentLoads user outcome) :=
  inferInstanceAs (Decidable (_ ∧ _))

def Firestore.loadOrCreate (firestore : Firestore) (user : UserIdentifier) : Firestore :=
  if firestore.userExists user then firestore else firestore.setUser user

@[simp] theorem Firestore.favorites_loadOrCreate (firestore : Firestore) (user : UserIdentifier) :
    (firestore.loadOrCreate user).favorites = firestore.favorites := by
  unfold loadOrCreate
  split <;> rfl

@[simp] theorem Firestore.serve_getDocuments_fst (firestore : Firestore) (user : UserIdentifier)
    (outcome : Outcome) : (firestore.serve (.getDocuments user) outcome).1 = firestore := by
  cases outcome <;> rfl

namespace App

/-! ## The batch -/

section Batch

variable (firestore : Firestore) (user : UserIdentifier) (outcome : Operation → Outcome)
variable (localProverbs : List RFavoriteProverb)

/-- The favourites the migration uploads: those the fetched collection lacks, or
all of them when nothing was fetched. -/
def uploads : List RFavoriteProverb :=
  if outcome (.getDocuments user) = .success ∧ 0 < (firestore.favorites user).documents.length then
    filter localProverbs ((firestore.favorites user).documents.map Document.favorite)
  else localProverbs

def batch : List FFavoriteProverb :=
  (uploads firestore user outcome localProverbs).map FFavoriteProverb.ofRFavoriteProverb

/-- Firestore after the batch; an empty one is never sent. -/
def migratedFirestore : Firestore :=
  let batch := batch firestore user outcome localProverbs
  if batch = [] then firestore
  else (firestore.serve (.commit user batch) (outcome (.commit user batch))).1

variable {firestore user outcome localProverbs}

theorem mem_filter {remoteProverbs : List FFavoriteProverb} {f : RFavoriteProverb} :
    f ∈ filter localProverbs remoteProverbs ↔
      f ∈ localProverbs ∧ ∀ g ∈ remoteProverbs, g.originIdentifier ≠ f.originIdentifier := by
  simp [filter, List.filter_eq_nil_iff]

theorem mem_uploads {f : RFavoriteProverb} :
    f ∈ uploads firestore user outcome localProverbs ↔
      f ∈ localProverbs ∧ (outcome (.getDocuments user) = .success →
        ¬ (firestore.favorites user).Holds f.originIdentifier) := by
  have hfetched : (∀ g ∈ (firestore.favorites user).documents.map Document.favorite,
      g.originIdentifier ≠ f.originIdentifier) ↔
        ¬ (firestore.favorites user).Holds f.originIdentifier := by
    simp [Collection.Holds]
  unfold uploads
  split
  · rename_i hcase
    rw [mem_filter, hfetched]
    simp [hcase.1]
  · rename_i hcase
    constructor
    · intro hf
      refine ⟨hf, fun hsuccess hholds => hcase ⟨hsuccess, ?_⟩⟩
      obtain ⟨document, hmem, _⟩ := hholds
      exact List.length_pos_of_mem (Collection.mem_documents.mpr hmem)
    · exact fun hf => hf.1

theorem uploads_subset : uploads firestore user outcome localProverbs ⊆ localProverbs :=
  fun _ hf => (mem_uploads.mp hf).1

theorem uploads_sublist :
    (uploads firestore user outcome localProverbs).Sublist localProverbs := by
  unfold uploads
  split
  · exact List.filter_sublist
  · exact List.Sublist.refl _

variable (firestore user outcome localProverbs) in
/-- The favourite has a remote document once the batch has been answered: with a
failed batch it must have had one, else it is in the batch or has a document that
no entry of the batch replaces. -/
def KeptRemotely (f : RFavoriteProverb) : Prop :=
  if outcome (.commit user (batch firestore user outcome localProverbs)) = .error then
    (firestore.favorites user).Holds f.originIdentifier
  else
    f ∈ uploads firestore user outcome localProverbs ∨
      ∃ document ∈ firestore.favorites user,
        document.favorite.originIdentifier = f.originIdentifier ∧
          document.documentID ∉
            (uploads firestore user outcome localProverbs).map RFavoriteProverb.identifier

instance (f : RFavoriteProverb) :
    Decidable (KeptRemotely firestore user outcome localProverbs f) :=
  have (key : Identifier) (ids : List Identifier) : Decidable
      (∃ document ∈ firestore.favorites user,
        document.favorite.originIdentifier = key ∧ document.documentID ∉ ids) :=
    inferInstanceAs (Decidable (∃ document ∈ (firestore.favorites user).entries, _ ∧ _))
  inferInstanceAs (Decidable (ite _ _ _))

theorem mem_uploads_of_origin {f g : RFavoriteProverb} (hf : f ∈ localProverbs)
    (hg : g ∈ uploads firestore user outcome localProverbs)
    (h : g.originIdentifier = f.originIdentifier) :
    f ∈ uploads firestore user outcome localProverbs := by
  have hout := (mem_uploads.mp hg).2
  rw [h] at hout
  exact mem_uploads.mpr ⟨hf, hout⟩

theorem map_documentID_batch :
    ((batch firestore user outcome localProverbs).map Document.ofFavorite).map
        Document.documentID =
      (uploads firestore user outcome localProverbs).map RFavoriteProverb.identifier := by
  rw [map_documentID_ofFavorite, batch, List.map_map]
  rfl

/-- A batch over favourites with distinct identifiers is stored entry by entry. -/
theorem holds_putAll_batch (hnodup : (localProverbs.map RFavoriteProverb.identifier).Nodup)
    {f : RFavoriteProverb} (hf : f ∈ localProverbs) :
    Collection.Holds (KeyedStore.putAll
        ((batch firestore user outcome localProverbs).map Document.ofFavorite)
        (firestore.favorites user)) f.originIdentifier ↔
      f ∈ uploads firestore user outcome localProverbs ∨
        ∃ document ∈ firestore.favorites user,
          document.favorite.originIdentifier = f.originIdentifier ∧
            document.documentID ∉
              (uploads firestore user outcome localProverbs).map RFavoriteProverb.identifier := by
  have hdistinct : (((batch firestore user outcome localProverbs).map Document.ofFavorite).map
      Document.documentID).Nodup := by
    rw [map_documentID_batch]
    exact hnodup.sublist (uploads_sublist.map _)
  unfold Collection.Holds
  simp only [KeyedStore.mem_putAll hdistinct, map_documentID_batch]
  constructor
  · rintro ⟨document, hbatch | ⟨hmem, hout⟩, horigin⟩
    · simp only [batch, List.map_map, List.mem_map] at hbatch
      obtain ⟨g, hg, rfl⟩ := hbatch
      exact Or.inl (mem_uploads_of_origin hf hg horigin)
    · exact Or.inr ⟨document, hmem, horigin, hout⟩
  · rintro (hupload | ⟨document, hmem, horigin, hout⟩)
    · refine ⟨Document.ofFavorite (FFavoriteProverb.ofRFavoriteProverb f), Or.inl ?_, rfl⟩
      exact List.mem_map_of_mem (List.mem_map_of_mem hupload)
    · exact ⟨document, Or.inr ⟨hmem, hout⟩, horigin⟩

theorem holds_migratedFirestore (hnodup : (localProverbs.map RFavoriteProverb.identifier).Nodup)
    {f : RFavoriteProverb} (hf : f ∈ localProverbs) :
    ((migratedFirestore firestore user outcome localProverbs).favorites user).Holds
        f.originIdentifier ↔
      KeptRemotely firestore user outcome localProverbs f := by
  unfold migratedFirestore KeptRemotely
  by_cases hbatch : batch firestore user outcome localProverbs = []
  · have huploads : uploads firestore user outcome localProverbs = [] := by
      simpa [batch] using hbatch
    simp [hbatch, huploads, Collection.Holds]
  · cases houtcome : outcome (.commit user (batch firestore user outcome localProverbs)) with
    | error => simp [hbatch, houtcome, Firestore.serve, Firestore.write]
    | success =>
        simp [hbatch, houtcome, Firestore.serve, Firestore.write, holds_putAll_batch hnodup hf]
    | nothing =>
        simp [hbatch, houtcome, Firestore.serve, Firestore.write, holds_putAll_batch hnodup hf]

end Batch

/-! ## The callbacks, one after the other -/

section Callbacks

variable {s : App} {user : UserIdentifier} {manager : FirestoreManager}
variable {outcome : Operation → Outcome} {random : Identifier} {now : Date}

theorem settle_migrationCompleted (s : App) (user : UserIdentifier) (result : Bool)
    (fuel : Nat) :
    settle outcome random now s.calls.length fuel (s.migrationCompleted user result) =
      some (s.migrationCompleted user true) :=
  settle_of_settled fuel (Nat.le_refl _)

theorem saveToRemoteStorage_eq (hm : s.remoteStorage = some manager)
    (hu : manager.userDocument = some user) (migration : Migration)
    {proverbs : List RFavoriteProverb} (hne : proverbs ≠ [])
    (hlocal : proverbs ⊆ s.localStorage.objects) :
    s.saveToRemoteStorage migration proverbs =
      some (s.call (.commit user (proverbs.map FFavoriteProverb.ofRFavoriteProverb))
        (.favoritesUploaded migration)) := by
  have hvalid := LocalStorage.all_isValid_of_subset hlocal
  have hsent : manager.saveAll (proverbs.map FFavoriteProverb.ofRFavoriteProverb) =
      .sent (.commit user (proverbs.map FFavoriteProverb.ofRFavoriteProverb)) := by
    simp [FirestoreManager.saveAll, FirestoreManager.favoritesCollection, hu, hne]
  simp [saveToRemoteStorage, hm, hvalid, hsent]

/-- After the answer of `getAllFavoriteProverbs` the migration has sent its batch, or it
is over. -/
def afterFetch (s : App) (owner user : UserIdentifier) (outcome : Operation → Outcome) : App :=
  if uploads s.firestore user outcome s.localStorage.objects = [] then
    s.migrationCompleted owner true
  else
    s.call (.commit user (batch s.firestore user outcome s.localStorage.objects))
      (.favoritesUploaded ⟨owner, s.localStorage.objects⟩)

theorem favoritesFetched_eq (hm : s.remoteStorage = some manager)
    (hu : manager.userDocument = some user) (hne : s.localStorage.objects ≠ [])
    (owner : UserIdentifier) :
    s.favoritesFetched ⟨owner, s.localStorage.objects⟩
        (FirestoreManager.getAllFavoriteProverbsResult
          (s.firestore.serve (.getDocuments user) (outcome (.getDocuments user))).2) =
      some (s.afterFetch owner user outcome) := by
  have hsave : ∀ proverbs, uploads s.firestore user outcome s.localStorage.objects = proverbs →
      proverbs ≠ [] →
      s.saveToRemoteStorage ⟨owner, s.localStorage.objects⟩ proverbs =
        some (s.afterFetch owner user outcome) := by
    intro proverbs huploads hproverbs
    subst huploads
    rw [saveToRemoteStorage_eq hm hu ⟨owner, s.localStorage.objects⟩ hproverbs uploads_subset,
      afterFetch, if_neg hproverbs]
    rfl
  cases houtcome : outcome (.getDocuments user) with
  | error =>
      exact hsave _ (by simp [uploads, houtcome]) hne
  | nothing =>
      exact hsave _ (by simp [uploads, houtcome]) hne
  | success =>
      have hvalid := LocalStorage.all_isValid_of_subset (List.Subset.refl s.localStorage.objects)
      simp only [Firestore.serve, Firestore.query, FirestoreManager.getAllFavoriteProverbsResult,
        favoritesFetched, List.length_map]
      split
      · rename_i hlength
        have huploads : uploads s.firestore user outcome s.localStorage.objects =
            filter s.localStorage.objects
              ((s.firestore.favorites user).documents.map Document.favorite) := by
          simp only [uploads, houtcome, hlength, and_self, if_true]
        split
        · rename_i hsome
          exact hsave _ huploads (List.ne_nil_of_length_pos hsome)
        · rename_i hnone
          have hnil : uploads s.firestore user outcome s.localStorage.objects = [] := by
            rw [huploads]
            simpa using hnone
          rw [afterFetch, if_pos hnil]
      · rename_i hlength
        exact hsave _ (if_neg fun hfetched => hlength hfetched.2) hne

theorem settle_fetch (hm : s.remoteStorage = some manager)
    (hu : manager.userDocument = some user) (owner : UserIdentifier) :
    (s.checkAndMigrateLocalFavoriteProverbs owner).bind
        (settle outcome random now s.calls.length 1) =
      some (s.afterFetch owner user outcome) := by
  have hempty : s.localStorage.objects = [] →
      s.checkAndMigrateLocalFavoriteProverbs owner = some (s.migrationCompleted owner true) →
      (s.checkAndMigrateLocalFavoriteProverbs owner).bind
          (settle outcome random now s.calls.length 1) =
        some (s.afterFetch owner user outcome) := by
    intro hnil hdone
    have huploads : uploads s.firestore user outcome s.localStorage.objects = [] :=
      List.sublist_nil.mp (hnil ▸ uploads_sublist)
    rw [hdone, afterFetch, if_pos huploads]
    exact settle_migrationCompleted s owner true 1
  cases hall : s.localStorage.getAll with
  | none =>
      apply hempty
      · simp [LocalStorage.objects, hall]
      · simp [checkAndMigrateLocalFavoriteProverbs, hall]
  | some localProverbs =>
      have hobjects := LocalStorage.objects_of_getAll hall
      subst hobjects
      by_cases hnil : s.localStorage.objects = []
      · apply hempty hnil
        simp [checkAndMigrateLocalFavoriteProverbs, hall, hnil]
      · have hcall : s.checkAndMigrateLocalFavoriteProverbs owner =
            some (s.call (.getDocuments user)
              (.favoritesFetched ⟨owner, s.localStorage.objects⟩)) := by
          simp [checkAndMigrateLocalFavoriteProverbs, hall, hm, hu, List.length_pos_iff, hnil,
            FirestoreManager.getAllFavoriteProverbs, FirestoreManager.favoritesCollection]
        rw [hcall, Option.bind_some, settle_call]
        simp only [Firestore.serve_getDocuments_fst, called]
        rw [favoritesFetched_eq hm hu hnil owner]
        rfl

/-- The batch is committed, and the local favourites are deleted whatever came of it. -/
theorem settle_afterFetch (owner : UserIdentifier) (fuel : Nat) :
    settle outcome random now s.calls.length (fuel + 1) (s.afterFetch owner user outcome) =
      some ({ s with
        firestore := migratedFirestore s.firestore user outcome s.localStorage.objects
        }.migrationCompleted owner true) := by
  unfold afterFetch
  split
  · rename_i hnil
    have hsame : migratedFirestore s.firestore user outcome s.localStorage.objects =
        s.firestore := by
      simp [migratedFirestore, batch, hnil]
    rw [hsame]
    exact settle_migrationCompleted s owner true (fuel + 1)
  · rename_i hne
    have hbatch : batch s.firestore user outcome s.localStorage.objects ≠ [] := by
      simpa [batch] using hne
    rw [settle_call, migratedFirestore, if_neg hbatch]
    exact settle_migrationCompleted
      { s with firestore := (s.firestore.serve _ _).1 } owner _ fuel

theorem settle_checkAndMigrate (hm : s.remoteStorage = some manager)
    (hu : manager.userDocument = some user) (owner : UserIdentifier) (fuel : Nat) :
    (s.checkAndMigrateLocalFavoriteProverbs owner).bind
        (settle outcome random now s.calls.length (fuel + 2)) =
      some ({ s with
        firestore := migratedFirestore s.firestore user outcome s.localStorage.objects
        }.migrationCompleted owner true) := by
  have hsplit : settle outcome random now s.calls.length (fuel + 2) = fun t =>
      (settle outcome random now s.calls.length 1 t).bind
        (settle outcome random now s.calls.length (fuel + 1)) := by
    funext t
    rw [← settle_add, show fuel + 2 = 1 + (fuel + 1) by omega]
  rw [hsplit, ← Option.bind_assoc, settle_fetch hm hu owner, Option.bind_some]
  exact settle_afterFetch owner fuel

/-- The end of the run that `setupFirestoreManager` starts. -/
def afterSetup (s : App) (user : UserIdentifier) (outcome : Operation → Outcome) : App :=
  let manager : FirestoreManager := ⟨s.nextReference, user, some user⟩
  let s := { s with remoteStorage := some manager, nextReference := s.nextReference + 1 }
  if s.firestore.UserDocumentLoads user outcome then
    { s with
      firestore := migratedFirestore (s.firestore.loadOrCreate user) user outcome
        s.localStorage.objects }.migrationCompleted user true
  else s.dropUserDocument manager

/-- The user document is looked for and, if missing, created: what follows starts with a
document, or there is none. -/
theorem settle_getUserDocument {ended : Firestore → App} {failed : App}
    (hready : ∀ firestore fuel,
      (({ s with firestore := firestore } : App).userDocumentReady manager true).bind
        (settle outcome random now s.calls.length (fuel + 2)) = some (ended firestore))
    (hfailed : ∀ fuel, (s.userDocumentReady manager false).bind
      (settle outcome random now s.calls.length fuel) = some failed) (fuel : Nat) :
    settle outcome random now s.calls.length (fuel + 4)
        (s.call (.getUserDocument manager.currentUserIdentifier) (.userDocumentLoaded manager)) =
      some (if s.firestore.UserDocumentLoads manager.currentUserIdentifier outcome then
        ended (s.firestore.loadOrCreate manager.currentUserIdentifier) else failed) := by
  rw [settle_call]
  cases houtcome : outcome (.getUserDocument manager.currentUserIdentifier) with
  | error =>
      rw [if_neg (by simp [Firestore.UserDocumentLoads, houtcome])]
      exact hfailed (fuel + 3)
  | nothing =>
      rw [if_neg (by simp [Firestore.UserDocumentLoads, houtcome])]
      exact hfailed (fuel + 3)
  | success =>
      cases hexists : s.firestore.userExists manager.currentUserIdentifier with
      | true =>
          have hsame : s.firestore.loadOrCreate manager.currentUserIdentifier = s.firestore :=
            if_pos hexists
          rw [if_pos ⟨houtcome, Or.inl hexists⟩, hsame]
          simp only [Firestore.serve, Firestore.query, called, hexists, userDocumentLoaded]
          exact hready s.firestore (fuel + 1)
      | false =>
          have hcreated : s.firestore.loadOrCreate manager.currentUserIdentifier =
              s.firestore.setUser manager.currentUserIdentifier := if_neg (by simp [hexists])
          simp only [Firestore.serve, Firestore.query, called, hexists, userDocumentLoaded,
            Option.bind_some]
          refine (settle_call (fuel + 2) _ _).trans ?_
          cases hcreate : outcome (.setUserDocument manager.currentUserIdentifier) with
          | error =>
              rw [if_neg (by simp [Firestore.UserDocumentLoads, hexists, hcreate])]
              exact hfailed (fuel + 2)
          | success =>
              rw [if_pos ⟨houtcome, Or.inr (by simp [hcreate])⟩, hcreated]
              exact hready _ fuel
          | nothing =>
              rw [if_pos ⟨houtcome, Or.inr (by simp [hcreate])⟩, hcreated]
              exact hready _ fuel

theorem settle_setupFirestoreManager (huser : s.currentUser = some user) (fuel : Nat) :
    settle outcome random now s.calls.length (fuel + 4) s.setupFirestoreManager =
      some (s.afterSetup user outcome) := by
  let manager : FirestoreManager := ⟨s.nextReference, user, some user⟩
  let t : App := { s with remoteStorage := some manager, nextReference := s.nextReference + 1 }
  have hsetup : s.setupFirestoreManager =
      t.call (.getUserDocument user) (.userDocumentLoaded manager) := by
    unfold setupFirestoreManager
    split
    · simp_all
    · rename_i identifier hidentifier
      obtain rfl : user = identifier := Option.some.inj (huser.symm.trans hidentifier)
      rfl
  have hready : ∀ firestore fuel,
      (({ t with firestore := firestore } : App).userDocumentReady manager true).bind
          (settle outcome random now s.calls.length (fuel + 2)) =
        some ({ t with
          firestore := migratedFirestore firestore user outcome s.localStorage.objects
          }.migrationCompleted user true) := by
    intro firestore fuel
    have hm : ({ t with firestore := firestore } : App).remoteStorage = some manager := rfl
    exact settle_checkAndMigrate hm rfl user fuel
  have hfailed : ∀ fuel,
      (t.userDocumentReady manager false).bind (settle outcome random now s.calls.length fuel) =
        some (t.dropUserDocument manager) := by
    intro fuel
    exact settle_of_settled fuel (Nat.le_refl _)
  rw [hsetup]
  exact settle_getUserDocument (s := t) hready hfailed fuel

end Callbacks

/-! ## What survives the run -/

/-- Every local favourite of `s` is still local in `s'` or in the user's collection. -/
def FavoritesSurvive (s s' : App) (user : UserIdentifier) : Prop :=
  ∀ f ∈ s.localStorage.objects,
    (∃ g ∈ s'.localStorage.objects, g.originIdentifier = f.originIdentifier) ∨
      (s'.firestore.favorites user).Holds f.originIdentifier

instance (s s' : App) (user : UserIdentifier) : Decidable (FavoritesSurvive s s' user) :=
  inferInstanceAs (Decidable (∀ f ∈ s.localStorage.objects, _ ∨ _))

/-- Nothing is deleted, or everything deleted is kept remotely. -/
def SetupKeeps (s : App) (user : UserIdentifier) (outcome : Operation → Outcome) : Prop :=
  ¬ s.localStorage.Available ∨ ¬ s.firestore.UserDocumentLoads user outcome ∨
    ∀ f ∈ s.localStorage.objects, KeptRemotely s.firestore user outcome s.localStorage.objects f

section AfterSetup

variable (s : App) (user : UserIdentifier) (outcome : Operation → Outcome)

theorem calls_afterSetup : (s.afterSetup user outcome).calls = s.calls := by
  unfold afterSetup
  simp only
  split <;> rfl

theorem localStorage_afterSetup :
    (s.afterSetup user outcome).localStorage =
      if s.firestore.UserDocumentLoads user outcome then s.localStorage.deleteAll
      else s.localStorage := by
  unfold afterSetup
  simp only
  split <;> rfl

theorem holds_afterSetup (hloads : s.firestore.UserDocumentLoads user outcome)
    {f : RFavoriteProverb} (hf : f ∈ s.localStorage.objects) :
    ((s.afterSetup user outcome).firestore.favorites user).Holds f.originIdentifier ↔
      KeptRemotely s.firestore user outcome s.localStorage.objects f := by
  have hfirestore : (s.afterSetup user outcome).firestore =
      migratedFirestore (s.firestore.loadOrCreate user) user outcome s.localStorage.objects := by
    unfold afterSetup
    simp only [if_pos hloads]
    rfl
  have hbatch : uploads (s.firestore.loadOrCreate user) user outcome s.localStorage.objects =
      uploads s.firestore user outcome s.localStorage.objects := by
    simp [uploads]
  rw [hfirestore, holds_migratedFirestore s.localStorage.objects_nodup hf]
  simp [KeptRemotely, batch, hbatch]

theorem favoritesSurvive_afterSetup :
    FavoritesSurvive s (s.afterSetup user outcome) user ↔ SetupKeeps s user outcome := by
  have hsame : (s.afterSetup user outcome).localStorage.objects = s.localStorage.objects →
      FavoritesSurvive s (s.afterSetup user outcome) user := by
    intro h f hf
    exact Or.inl ⟨f, h ▸ hf, rfl⟩
  have hlocal := localStorage_afterSetup s user outcome
  by_cases hloads : s.firestore.UserDocumentLoads user outcome
  · rw [if_pos hloads] at hlocal
    by_cases havailable : s.localStorage.Available
    · have hgone : (s.afterSetup user outcome).localStorage.objects = [] := by
        rw [hlocal]
        exact LocalStorage.objects_deleteAll_of_available havailable
      simp only [FavoritesSurvive, SetupKeeps, hgone, hloads, havailable, not_true_eq_false,
        false_or, List.not_mem_nil, false_and, exists_false]
      exact forall₂_congr fun f hf => holds_afterSetup s user outcome hloads hf
    · have hobjects :
          (s.afterSetup user outcome).localStorage.objects = s.localStorage.objects := by
        rw [hlocal]
        exact LocalStorage.objects_deleteAll_of_not_available havailable
      exact iff_of_true (hsame hobjects) (Or.inl havailable)
  · rw [if_neg hloads] at hlocal
    exact iff_of_true (hsame (congrArg LocalStorage.objects hlocal)) (Or.inr (Or.inl hloads))

end AfterSetup

/-- The run of `setupFirestoreManager` ends, and the local favourites survive it
exactly when it deletes nothing or has uploaded what it deletes. -/
theorem favorites_survive_setup_iff {s : App} {user : UserIdentifier}
    (huser : s.currentUser = some user) (outcome : Operation → Outcome) (random : Identifier)
    (now : Date) :
    ∃ s', settle outcome random now s.calls.length 4 s.setupFirestoreManager = some s' ∧
      s'.calls = s.calls ∧ (FavoritesSurvive s s' user ↔ SetupKeeps s user outcome) :=
  ⟨s.afterSetup user outcome, settle_setupFirestoreManager huser 0, calls_afterSetup s user outcome,
    favoritesSurvive_afterSetup s user outcome⟩

def oneFavorite : App :=
  { installed with
    currentUser := some "user"
    localStorage := ⟨some (KeyedStore.empty.put ⟨"favorite", "proverb", 0, "", "", ""⟩), .commit⟩ }

theorem favorites_survive_setup_uploaded :
    ∃ s', settle (fun _ => .success) "" 0 0 4 oneFavorite.setupFirestoreManager = some s' ∧
      FavoritesSurvive oneFavorite s' "user" := by
  obtain ⟨s', hsettle, _, hsurvive⟩ :=
    favorites_survive_setup_iff (s := oneFavorite) rfl (fun _ => .success) "" 0
  refine ⟨s', hsettle, hsurvive.mpr (Or.inr (Or.inr fun f hf => ?_))⟩
  have hupload : f ∈ uploads oneFavorite.firestore "user" (fun _ => .success)
      oneFavorite.localStorage.objects :=
    mem_uploads.mpr ⟨hf, fun _ => by rintro ⟨document, hmem, _⟩; exact absurd hmem List.not_mem_nil⟩
  exact Or.inl hupload

/-- The batch fails, and the local favourite is deleted all the same. -/
theorem failed_batch_loses_favorite :
    ¬ ∀ s', settle (fun | .commit .. => .error | _ => .success) "" 0 0 4
        oneFavorite.setupFirestoreManager = some s' → FavoritesSurvive oneFavorite s' "user" := by
  intro h
  exact absurd (h _ rfl) (by decide)

end App

end Proverbs
