import Proverbs.Managers.Migration

/-! # The collection after a migration

One run of `checkAndMigrateLocalFavoriteProverbs` with nothing in between writes one
batch, or none. Two questions about the collection it leaves: whether it still holds one
favourite for each proverb, and whether it holds every local favourite when Firestore
refuses batches that are too large.
-/

namespace Proverbs.App

/-! ## The batch, once it has been answered -/

section Batch

variable {firestore : Firestore} {user other : UserIdentifier} {outcome : Operation → Outcome}
variable {localProverbs : List RFavoriteProverb}

def batchDocuments (firestore : Firestore) (user : UserIdentifier)
    (outcome : Operation → Outcome) (localProverbs : List RFavoriteProverb) : List Document :=
  (batch firestore user outcome localProverbs).map Document.ofFavorite

theorem favorites_migratedFirestore :
    (migratedFirestore firestore user outcome localProverbs).favorites user =
      if outcome (.commit user (batch firestore user outcome localProverbs)) = .error then
        firestore.favorites user
      else
        (firestore.favorites user).putAll
          (batchDocuments firestore user outcome localProverbs) := by
  unfold migratedFirestore batchDocuments
  by_cases hbatch : batch firestore user outcome localProverbs = []
  · simp [hbatch]
  · cases houtcome : outcome (.commit user (batch firestore user outcome localProverbs)) <;>
      simp [hbatch, houtcome, Firestore.serve, Firestore.write]

theorem favorites_migratedFirestore_ne (h : other ≠ user) :
    (migratedFirestore firestore user outcome localProverbs).favorites other =
      firestore.favorites other := by
  unfold migratedFirestore
  by_cases hbatch : batch firestore user outcome localProverbs = []
  · simp [hbatch]
  · cases houtcome : outcome (.commit user (batch firestore user outcome localProverbs)) <;>
      simp [hbatch, houtcome, Firestore.serve, Firestore.write,
        Firestore.favorites_updateFavorites_ne _ _ h]

end Batch

/-! ## The run -/

/-- Firestore after the run; without a collection nothing is sent. -/
def migrated (s : App) (outcome : Operation → Outcome) : Firestore :=
  match s.remoteCollection with
  | some user => migratedFirestore s.firestore user outcome s.localStorage.objects
  | none => s.firestore

section Run

variable {s : App} {outcome : Operation → Outcome} {random : Identifier} {now : Date}

/-- Without a collection every way through the migration ends at once. -/
theorem checkAndMigrate_of_no_collection (h : s.remoteCollection = none)
    (owner : UserIdentifier) :
    s.checkAndMigrateLocalFavoriteProverbs owner = some (s.migrationCompleted owner true) := by
  have hvalid := LocalStorage.all_isValid_of_subset (List.Subset.refl s.localStorage.objects)
  unfold checkAndMigrateLocalFavoriteProverbs
  cases hall : s.localStorage.getAll with
  | none => rfl
  | some localProverbs =>
      obtain rfl := LocalStorage.objects_of_getAll hall
      simp only
      split
      · cases hm : s.remoteStorage with
        | none => rfl
        | some manager =>
            have hu : manager.favoritesCollection = none := by
              simpa [remoteCollection, hm] using h
            simp only [FirestoreManager.getAllFavoriteProverbs, hu, favoritesFetched,
              saveToRemoteStorage, hm, hvalid, if_true, FirestoreManager.saveAll]
            rfl
      · rfl

/-- The migration ends, and what it has done to Firestore is `migrated`. -/
theorem migration_ends (s : App) (owner : UserIdentifier) (outcome : Operation → Outcome)
    (random : Identifier) (now : Date) :
    ∃ s', (s.checkAndMigrateLocalFavoriteProverbs owner).bind
        (settle outcome random now s.calls.length 2) = some s' ∧
      s'.calls = s.calls ∧ s'.firestore = s.migrated outcome := by
  cases hcollection : s.remoteCollection with
  | none =>
      refine ⟨s.migrationCompleted owner true, ?_, rfl, by simp [migrated, hcollection,
        migrationCompleted, output]⟩
      rw [checkAndMigrate_of_no_collection hcollection, Option.bind_some]
      exact settle_migrationCompleted s owner true 2
  | some user =>
      obtain ⟨manager, hm, hu⟩ := Option.bind_eq_some_iff.mp hcollection
      refine ⟨_, settle_checkAndMigrate hm hu owner 0, rfl, ?_⟩
      simp [migrated, hcollection, migrationCompleted, output]

end Run

/-! ## One favourite for each proverb -/

/-- No two favourites of the collection have one `originIdentifier`. -/
def OneFavoritePerOrigin (collection : Collection) : Prop :=
  (collection.entries.map fun document => document.favorite.originIdentifier).Nodup

instance (collection : Collection) : Decidable (OneFavoritePerOrigin collection) :=
  inferInstanceAs (Decidable (List.Nodup _))

theorem oneFavoritePerOrigin_iff {collection : Collection} :
    OneFavoritePerOrigin collection ↔ ∀ d ∈ collection, ∀ d' ∈ collection,
      d.favorite.originIdentifier = d'.favorite.originIdentifier → d = d' :=
  List.nodup_map_iff_inj_on (List.Nodup.of_map _ collection.nodup)

/-- Uploading these favourites keeps one for each proverb exactly when every document of
an uploaded origin is replaced by one of the uploads. -/
theorem oneFavoritePerOrigin_putAll {collection : Collection} {proverbs : List RFavoriteProverb}
    (hremote : OneFavoritePerOrigin collection)
    (hidentifiers : (proverbs.map RFavoriteProverb.identifier).Nodup)
    (horigins : (proverbs.map RFavoriteProverb.originIdentifier).Nodup) :
    OneFavoritePerOrigin (collection.putAll
        ((proverbs.map FFavoriteProverb.ofRFavoriteProverb).map Document.ofFavorite)) ↔
      ∀ f ∈ proverbs, ∀ document ∈ collection,
        document.favorite.originIdentifier = f.originIdentifier →
          document.documentID ∈ proverbs.map RFavoriteProverb.identifier := by
  have hkeys : ((proverbs.map FFavoriteProverb.ofRFavoriteProverb).map
      Document.ofFavorite).map Document.documentID =
        proverbs.map RFavoriteProverb.identifier := by
    rw [map_documentID_ofFavorite, List.map_map]
    rfl
  have hmem : ∀ document, document ∈ collection.putAll
      ((proverbs.map FFavoriteProverb.ofRFavoriteProverb).map Document.ofFavorite) ↔
        (∃ f ∈ proverbs, Document.ofFavorite (.ofRFavoriteProverb f) = document) ∨
          (document ∈ collection ∧
            document.documentID ∉ proverbs.map RFavoriteProverb.identifier) := by
    intro document
    rw [KeyedStore.mem_putAll (hkeys ▸ hidentifiers), hkeys]
    simp
  rw [oneFavoritePerOrigin_iff]
  constructor
  · intro hone f hf document hdocument horigin
    by_contra hkept
    have hsame := hone document ((hmem document).mpr (Or.inr ⟨hdocument, hkept⟩))
      (Document.ofFavorite (.ofRFavoriteProverb f)) ((hmem _).mpr (Or.inl ⟨f, hf, rfl⟩)) horigin
    rw [hsame] at hkept
    exact hkept (List.mem_map_of_mem hf)
  · intro hreplaced d hd d' hd' horigin
    rcases (hmem d).mp hd with ⟨f, hf, rfl⟩ | ⟨hdocument, hkept⟩
    · rcases (hmem d').mp hd' with ⟨g, hg, rfl⟩ | ⟨hdocument', hkept'⟩
      · rw [List.inj_on_of_nodup_map horigins hf hg horigin]
      · exact absurd (hreplaced f hf d' hdocument' horigin.symm) hkept'
    · rcases (hmem d').mp hd' with ⟨g, hg, rfl⟩ | ⟨hdocument', _⟩
      · exact absurd (hreplaced g hg d hdocument horigin) hkept
      · exact oneFavoritePerOrigin_iff.mp hremote d hdocument d' hdocument' horigin

/-- When the collection is the user's: the favourites were fetched, or nothing was written,
or every document of a local favourite's proverb is stored under the identifier of some
local favourite and so replaced. -/
def NothingDoubled (s : App) (user : UserIdentifier) (outcome : Operation → Outcome) : Prop :=
  s.remoteCollection = some user →
    outcome (.getDocuments user) = .success ∨
      outcome (.commit user (batch s.firestore user outcome s.localStorage.objects)) = .error ∨
        ∀ f ∈ s.localStorage.objects, ∀ document ∈ s.firestore.favorites user,
          document.favorite.originIdentifier = f.originIdentifier →
            document.documentID ∈ s.localStorage.objects.map RFavoriteProverb.identifier

section Doubled

variable {s : App} {user : UserIdentifier} {outcome : Operation → Outcome}

theorem oneFavoritePerOrigin_migratedFirestore
    (hlocal : (s.localStorage.objects.map RFavoriteProverb.originIdentifier).Nodup)
    (hremote : OneFavoritePerOrigin (s.firestore.favorites user)) :
    OneFavoritePerOrigin ((migratedFirestore s.firestore user outcome
        s.localStorage.objects).favorites user) ↔
      (outcome (.getDocuments user) = .success ∨
        outcome (.commit user (batch s.firestore user outcome s.localStorage.objects)) = .error ∨
          ∀ f ∈ s.localStorage.objects, ∀ document ∈ s.firestore.favorites user,
            document.favorite.originIdentifier = f.originIdentifier →
              document.documentID ∈ s.localStorage.objects.map RFavoriteProverb.identifier) := by
  rw [favorites_migratedFirestore]
  by_cases herror :
      outcome (.commit user (batch s.firestore user outcome s.localStorage.objects)) = .error
  · rw [if_pos herror]
    exact iff_of_true hremote (Or.inr (Or.inl herror))
  · have hsublist : (uploads s.firestore user outcome s.localStorage.objects).Sublist
        s.localStorage.objects := uploads_sublist
    have hiff := oneFavoritePerOrigin_putAll hremote
      (s.localStorage.objects_nodup.sublist (hsublist.map _)) (hlocal.sublist (hsublist.map _))
    rw [if_neg herror]
    refine hiff.trans ?_
    by_cases hfetched : outcome (.getDocuments user) = .success
    · refine iff_of_true (fun f hf document hdocument horigin => ?_) (Or.inl hfetched)
      exact absurd ⟨document, hdocument, horigin⟩ ((mem_uploads.mp hf).2 hfetched)
    · have hall : uploads s.firestore user outcome s.localStorage.objects =
          s.localStorage.objects := if_neg fun h => hfetched h.1
      rw [hall]
      simp only [hfetched, herror, false_or]

theorem oneFavoritePerOrigin_migrated_iff
    (hlocal : (s.localStorage.objects.map RFavoriteProverb.originIdentifier).Nodup)
    (hremote : OneFavoritePerOrigin (s.firestore.favorites user)) :
    OneFavoritePerOrigin ((s.migrated outcome).favorites user) ↔
      NothingDoubled s user outcome := by
  unfold migrated NothingDoubled
  cases hcollection : s.remoteCollection with
  | none => simpa using hremote
  | some other =>
      by_cases hother : other = user
      · subst hother
        simpa using oneFavoritePerOrigin_migratedFirestore hlocal hremote
      · have hsame : ((migratedFirestore s.firestore other outcome
            s.localStorage.objects).favorites user) = s.firestore.favorites user :=
          favorites_migratedFirestore_ne (Ne.symm hother)
        simp only [hsame, Option.some.injEq, hother, false_implies, iff_true]
        exact hremote

end Doubled

/-- From a local list and collections with one favourite for each proverb the migration
ends, and a collection still has one for each exactly when nothing is doubled. -/
theorem migration_one_per_origin_iff {s : App}
    (hlocal : (s.localStorage.objects.map RFavoriteProverb.originIdentifier).Nodup)
    (owner : UserIdentifier) (outcome : Operation → Outcome) (random : Identifier) (now : Date) :
    ∃ s', (s.checkAndMigrateLocalFavoriteProverbs owner).bind
        (settle outcome random now s.calls.length 2) = some s' ∧
      s'.calls = s.calls ∧
        ∀ user, OneFavoritePerOrigin (s.firestore.favorites user) →
          (OneFavoritePerOrigin (s'.firestore.favorites user) ↔
            NothingDoubled s user outcome) := by
  obtain ⟨s', hends, hcalls, hfirestore⟩ := migration_ends s owner outcome random now
  refine ⟨s', hends, hcalls, fun user hremote => ?_⟩
  rw [hfirestore]
  exact oneFavoritePerOrigin_migrated_iff hlocal hremote

def favoriteOnBothSides : App :=
  { oneFavorite with
    remoteStorage := some ⟨0, "user", some "user"⟩
    firestore := ⟨fun _ => true, fun _ =>
      KeyedStore.empty.put (.ofFavorite ⟨"document", "proverb", 0, ""⟩)⟩ }

theorem migration_one_per_origin_fetched :
    ∃ s', (favoriteOnBothSides.checkAndMigrateLocalFavoriteProverbs "user").bind
        (settle (fun _ => .success) "" 0 0 2) = some s' ∧
      OneFavoritePerOrigin (s'.firestore.favorites "user") := by
  have hlocal : (favoriteOnBothSides.localStorage.objects.map
      RFavoriteProverb.originIdentifier).Nodup := by decide
  obtain ⟨s', hends, _, hone⟩ :=
    migration_one_per_origin_iff hlocal "user" (fun _ => .success) "" 0
  exact ⟨s', hends, (hone "user" (by decide)).mpr fun _ => Or.inl rfl⟩

/-- The favourites could not be fetched, so the local one is uploaded beside the other. -/
theorem failed_fetch_doubles :
    ¬ ∀ s', (favoriteOnBothSides.checkAndMigrateLocalFavoriteProverbs "user").bind
        (settle (fun | .getDocuments _ => .error | _ => .success) "" 0 0 2) = some s' →
      OneFavoritePerOrigin (s'.firestore.favorites "user") := by
  intro h
  exact absurd (h _ rfl) (by decide)

/-! ## Batches of any length -/

/-- Firestore carries out everything but a batch of more than `limit` writes. -/
def limited (limit : Nat) : Operation → Outcome
  | .commit _ batch => if limit < batch.length then .error else .success
  | _ => .success

/-- The local favourites whose proverb has no document. -/
def missing (collection : Collection) (localProverbs : List RFavoriteProverb) :
    List RFavoriteProverb :=
  localProverbs.filter fun f => ¬ collection.Holds f.originIdentifier

/-- No missing favourite is stored in place of the only document of another local
favourite's proverb. -/
def ReplacesNoOther (collection : Collection) (localProverbs : List RFavoriteProverb) : Prop :=
  ∀ f ∈ localProverbs, collection.Holds f.originIdentifier →
    ∃ document ∈ collection, document.favorite.originIdentifier = f.originIdentifier ∧
      document.documentID ∉ (missing collection localProverbs).map RFavoriteProverb.identifier

instance (collection : Collection) (localProverbs : List RFavoriteProverb) :
    Decidable (ReplacesNoOther collection localProverbs) :=
  inferInstanceAs (Decidable (∀ f ∈ localProverbs, _ → ∃ document ∈ collection.entries, _))

/-- The missing favourites fit into one batch, and none of them replaces another one's. -/
def FitsOneBatch (limit : Nat) (collection : Collection)
    (localProverbs : List RFavoriteProverb) : Prop :=
  (missing collection localProverbs).length ≤ limit ∧ ReplacesNoOther collection localProverbs

instance (limit : Nat) (collection : Collection) (localProverbs : List RFavoriteProverb) :
    Decidable (FitsOneBatch limit collection localProverbs) :=
  inferInstanceAs (Decidable (_ ∧ _))

section Limit

variable {firestore : Firestore} {user : UserIdentifier} {outcome : Operation → Outcome}
variable {localProverbs : List RFavoriteProverb}

theorem mem_missing {collection : Collection} {f : RFavoriteProverb} :
    f ∈ missing collection localProverbs ↔
      f ∈ localProverbs ∧ ¬ collection.Holds f.originIdentifier := by
  simp [missing]

/-- Once they have been fetched, exactly the missing favourites are uploaded. -/
theorem uploads_of_fetched (h : outcome (.getDocuments user) = .success) :
    uploads firestore user outcome localProverbs =
      missing (firestore.favorites user) localProverbs := by
  unfold uploads missing
  split
  · apply List.filter_congr
    intro f _
    simp [Collection.Holds, List.filter_eq_nil_iff]
  · rename_i hcase
    have hempty : ∀ document, document ∉ firestore.favorites user := by
      intro document hmem
      exact hcase ⟨h, List.length_pos_of_mem (Collection.mem_documents.mpr hmem)⟩
    symm
    rw [List.filter_eq_self]
    intro f _
    simp [Collection.Holds, hempty]

/-- Once the batch has been applied, every local favourite's proverb is in the collection
exactly when no upload has replaced another one's only document. -/
theorem holds_of_fetched_iff (hfetched : outcome (.getDocuments user) = .success)
    (hnodup : (localProverbs.map RFavoriteProverb.identifier).Nodup)
    (happlied : outcome (.commit user (batch firestore user outcome localProverbs)) ≠ .error) :
    (∀ f ∈ localProverbs, ((migratedFirestore firestore user outcome
        localProverbs).favorites user).Holds f.originIdentifier) ↔
      ReplacesNoOther (firestore.favorites user) localProverbs := by
  have hholds : ∀ f ∈ localProverbs, ((migratedFirestore firestore user outcome
      localProverbs).favorites user).Holds f.originIdentifier ↔
        KeptRemotely firestore user outcome localProverbs f :=
    fun f hf => holds_migratedFirestore hnodup hf
  rw [forall₂_congr hholds]
  unfold KeptRemotely ReplacesNoOther
  simp only [if_neg happlied, uploads_of_fetched hfetched]
  refine forall₂_congr fun f hf => ?_
  rw [mem_missing]
  by_cases hheld : (firestore.favorites user).Holds f.originIdentifier
  · simp [hheld]
  · simp [hf, hheld]

theorem holds_limited_iff (limit : Nat)
    (hnodup : (localProverbs.map RFavoriteProverb.identifier).Nodup) :
    (∀ f ∈ localProverbs, ((migratedFirestore firestore user (limited limit)
        localProverbs).favorites user).Holds f.originIdentifier) ↔
      FitsOneBatch limit (firestore.favorites user) localProverbs := by
  have houtcome : limited limit (.commit user (batch firestore user (limited limit)
      localProverbs)) =
        if limit < (missing (firestore.favorites user) localProverbs).length then .error
        else .success := by
    rw [limited, batch, uploads_of_fetched rfl, List.length_map]
  by_cases hlimit : limit < (missing (firestore.favorites user) localProverbs).length
  · rw [if_pos hlimit] at houtcome
    refine iff_of_false (fun hall => ?_) fun hfits => absurd hfits.1 (Nat.not_le.mpr hlimit)
    obtain ⟨f, hf⟩ := List.exists_mem_of_length_pos (Nat.lt_of_le_of_lt (Nat.zero_le _) hlimit)
    obtain ⟨hlocal, hmissing⟩ := mem_missing.mp hf
    have hheld := hall f hlocal
    rw [favorites_migratedFirestore, if_pos houtcome] at hheld
    exact hmissing hheld
  · have happlied : limited limit (.commit user (batch firestore user (limited limit)
        localProverbs)) ≠ .error := by
      rw [houtcome, if_neg hlimit]
      decide
    rw [holds_of_fetched_iff rfl hnodup happlied, FitsOneBatch]
    exact (and_iff_right (Nat.not_lt.mp hlimit)).symm

end Limit

/-- With a Firestore that refuses batches of more than 500 writes and does everything
else, the migration ends with every local favourite's proverb in the collection exactly
when the missing ones fit into one batch. -/
theorem migration_of_any_length_iff {s : App} {user : UserIdentifier}
    (hcollection : s.remoteCollection = some user) (owner : UserIdentifier)
    (random : Identifier) (now : Date) :
    ∃ s', (s.checkAndMigrateLocalFavoriteProverbs owner).bind
        (settle (limited 500) random now s.calls.length 2) = some s' ∧
      s'.calls = s.calls ∧
        ((∀ f ∈ s.localStorage.objects,
            (s'.firestore.favorites user).Holds f.originIdentifier) ↔
          FitsOneBatch 500 (s.firestore.favorites user) s.localStorage.objects) := by
  obtain ⟨s', hends, hcalls, hfirestore⟩ := migration_ends s owner (limited 500) random now
  refine ⟨s', hends, hcalls, ?_⟩
  rw [hfirestore, migrated, hcollection]
  exact holds_limited_iff 500 s.localStorage.objects_nodup

def number (n : Nat) : Identifier := String.ofList (List.replicate (n + 1) 'a')

theorem number_injective : Function.Injective number := by
  intro m n h
  have hlists := String.ofList_injective h
  simpa using congrArg List.length hlists

def numbered (n : Nat) : RFavoriteProverb := ⟨number n, number n, 0, "", "", ""⟩

theorem nodup_numbered (count : Nat) :
    (((List.range count).map numbered).map RealmObject.primaryKey).Nodup := by
  rw [List.map_map]
  exact List.nodup_range.map number_injective

def manyFavorites (count : Nat) : App :=
  { favoriteOnBothSides with
    localStorage := ⟨some ⟨(List.range count).map numbered, nodup_numbered count⟩, .commit⟩
    firestore := ⟨fun _ => true, fun _ => KeyedStore.empty⟩ }

/-- As many are missing, beside one more that has a document. -/
def manyMissing (count : Nat) : App :=
  { manyFavorites (count + 1) with
    firestore := ⟨fun _ => true, fun _ =>
      KeyedStore.empty.put (.ofFavorite (.ofRFavoriteProverb (numbered count)))⟩ }

theorem holds_manyMissing_iff (count : Nat) (originIdentifier : Identifier) :
    ((manyMissing count).firestore.favorites "user").Holds originIdentifier ↔
      originIdentifier = number count := by
  constructor
  · rintro ⟨document, hmem, rfl⟩
    rcases KeyedStore.mem_put.mp hmem with rfl | ⟨hmem, _⟩
    · rfl
    · exact absurd hmem List.not_mem_nil
  · rintro rfl
    exact ⟨_, KeyedStore.mem_put_self _ _, rfl⟩

theorem fitsOneBatch_manyMissing (count : Nat) :
    FitsOneBatch count ((manyMissing count).firestore.favorites "user")
      (manyMissing count).localStorage.objects := by
  have hlocal : (manyMissing count).localStorage.objects =
      (List.range (count + 1)).map numbered := rfl
  constructor
  · have hstored : numbered count ∈ (manyMissing count).localStorage.objects := by
      rw [hlocal]
      exact List.mem_map_of_mem (List.mem_range.mpr (Nat.lt_succ_self count))
    have hshorter : (missing ((manyMissing count).firestore.favorites "user")
        (manyMissing count).localStorage.objects).length <
          (manyMissing count).localStorage.objects.length := by
      apply List.length_filter_lt_length_iff_exists.mpr
      have hheld : ((manyMissing count).firestore.favorites "user").Holds
          (numbered count).originIdentifier := (holds_manyMissing_iff count _).mpr rfl
      exact ⟨numbered count, hstored, by simpa using hheld⟩
    rw [hlocal, List.length_map, List.length_range] at hshorter
    rw [hlocal]
    exact Nat.le_of_lt_succ hshorter
  · intro f hf hheld
    refine ⟨.ofFavorite (.ofRFavoriteProverb (numbered count)), KeyedStore.mem_put_self _ _,
      ((holds_manyMissing_iff count _).mp hheld).symm, ?_⟩
    intro hreplaced
    obtain ⟨g, hg, hidentifier⟩ := List.mem_map.mp hreplaced
    obtain ⟨hlocal', hmissing⟩ := mem_missing.mp hg
    rw [hlocal] at hlocal'
    obtain ⟨n, _, rfl⟩ := List.mem_map.mp hlocal'
    exact hmissing ((holds_manyMissing_iff count _).mpr hidentifier)

/-- 500 favourites are missing, just as many as a batch takes, beside one that is not. -/
theorem migration_of_any_length_both_sides :
    ∃ s', ((manyMissing 500).checkAndMigrateLocalFavoriteProverbs "user").bind
        (settle (limited 500) "" 0 0 2) = some s' ∧
      ∀ f ∈ (manyMissing 500).localStorage.objects,
        (s'.firestore.favorites "user").Holds f.originIdentifier := by
  have hcollection : (manyMissing 500).remoteCollection = some "user" := rfl
  obtain ⟨s', hends, _, hholds⟩ := migration_of_any_length_iff hcollection "user" "" 0
  exact ⟨s', hends, hholds.mpr (fitsOneBatch_manyMissing 500)⟩

/-- A batch of more than 500 favourites is refused, and none of them is migrated. -/
theorem manyFavorites_not_migrated {count : Nat} (hcount : 500 < count) :
    ¬ ∀ s', ((manyFavorites count).checkAndMigrateLocalFavoriteProverbs "user").bind
        (settle (limited 500) "" 0 0 2) = some s' →
      ∀ f ∈ (manyFavorites count).localStorage.objects,
        (s'.firestore.favorites "user").Holds f.originIdentifier := by
  intro h
  obtain ⟨s', hends, _, hfirestore⟩ :=
    migration_ends (manyFavorites count) "user" (limited 500) "" 0
  have hall := h s' hends
  rw [hfirestore] at hall
  have hfits := (holds_limited_iff 500 (manyFavorites count).localStorage.objects_nodup).mp hall
  have hmissing : missing ((manyFavorites count).firestore.favorites "user")
      (manyFavorites count).localStorage.objects = (List.range count).map numbered := by
    have hlocal : (manyFavorites count).localStorage.objects =
        (List.range count).map numbered := rfl
    rw [missing, hlocal, List.filter_eq_self]
    intro f _
    simp [Collection.Holds, manyFavorites, KeyedStore.empty, ← KeyedStore.mem_entries]
  have hlength := hfits.1
  rw [hmissing, List.length_map, List.length_range] at hlength
  omega

theorem long_list_not_migrated :
    ¬ ∀ s', ((manyFavorites 501).checkAndMigrateLocalFavoriteProverbs "user").bind
        (settle (limited 500) "" 0 0 2) = some s' →
      ∀ f ∈ (manyFavorites 501).localStorage.objects,
        (s'.firestore.favorites "user").Holds f.originIdentifier :=
  manyFavorites_not_migrated (by decide)

end Proverbs.App
