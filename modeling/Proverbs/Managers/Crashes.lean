import Proverbs.Managers.CapturedFavorites

/-! # Where the app crashes

A turn that ends the process is one of four. It reads a favourite of Realm that has been
deleted: the one it was called with, or one that a migration captured before its fetch.
What a turn looks up itself is always managed. Or Google reports an authentication that
nobody waits for, and the closure that is not there is unwrapped. Or a favourite is deleted
whose identifier is no path of a document, which Firestore raises an exception for. Or a
transaction is begun inside one whose commit has thrown, which Realm raises one for.
-/

namespace Proverbs

def Proverb.managedFavorite : Proverb → List RFavoriteProverb
  | .rFavorite f => [f]
  | _ => []

namespace App

/-- The favourites a callback holds and reads. A migration reads what it captured when it
compares it with the fetched list, which an empty one spares it, or when it uploads it, and
for that a `remoteStorage` is needed. -/
def readByCallback (s : App) (callback : Callback) (response : Response) :
    List RFavoriteProverb :=
  match callback with
  | .isFavorite (.checkAndSaveOrDelete _ proverb) => proverb.managedFavorite
  | .favoritesFetched migration =>
      match FirestoreManager.getAllFavoriteProverbsResult response with
      | .ok (_ :: _) => migration.localProverbs
      | _ => if s.remoteStorage.isSome then migration.localProverbs else []
  | _ => []

def readBy (s : App) (input : Input) : List RFavoriteProverb :=
  match input.event with
  | .save proverb | .delete proverb | .checkAndSaveOrDeleteFavorite proverb =>
      proverb.managedFavorite
  | .deliver index =>
      match s.calls[index]? with
      | some ⟨_, callback, some response⟩ => s.readByCallback callback response
      | _ => []
  | _ => []

/-! ## Documents that are deleted -/

def deletedDocument (s : App) (proverb : FFavoriteProverb) : List Identifier :=
  if s.remoteCollection.isSome then [proverb.identifier] else []

def addressedByDelete (s : App) : Proverb → List Identifier
  | .fFavorite proverb => if s.isLocalStorage then [] else s.deletedDocument proverb
  | _ => []

def addressedByCallback (s : App) (callback : Callback) (response : Response) :
    List Identifier :=
  match callback with
  | .isFavorite (.checkAndSaveOrDelete _ proverb) =>
      if FirestoreManager.isFavoriteResult response then s.addressedByDelete proverb else []
  | .getFavorite _ _ =>
      match FirestoreManager.getFavoriteResult response with
      | .ok proverb => s.deletedDocument proverb
      | .error _ => []
  | _ => []

/-- The documents a turn addresses to delete them. -/
def addressedBy (s : App) (input : Input) : List Identifier :=
  match input.event with
  | .delete proverb | .checkAndSaveOrDeleteFavorite proverb => s.addressedByDelete proverb
  | .deliver index =>
      match s.calls[index]? with
      | some ⟨_, callback, some response⟩ => s.addressedByCallback callback response
      | _ => []
  | _ => []

/-! ## Transactions that are begun -/

/-- A favourite below the limit is written to Realm. -/
def writtenBySave (s : App) : Proverb → Bool
  | .rProverb _ =>
      s.isLocalStorage && !(s.hasRestriction && decide (freeMaxCount ≤ s.getLocalCount))
  | _ => false

def writtenByDelete (s : App) : Proverb → Bool
  | .rProverb proverb =>
      s.isLocalStorage &&
        (s.localStorage.get RFavoriteProverb.originIdentifier proverb.identifier).isSome
  | .rFavorite _ => s.isLocalStorage
  | .fFavorite _ => false

def writtenByToggle (s : App) (proverb : Proverb) (result : Bool) : Bool :=
  if result then s.writtenByDelete proverb else s.writtenBySave proverb

/-- An upload that sends nothing is followed by the `deleteAll` at once. -/
def writtenByUpload (s : App) (proverbs : List RFavoriteProverb) : Bool :=
  s.remoteCollection.isNone || proverbs.isEmpty

def writtenByFetch (s : App) (migration : Migration)
    (result : Except AppError (List FFavoriteProverb)) : Bool :=
  match result with
  | .ok (favorite :: favorites) =>
      s.writtenByUpload (filter migration.localProverbs (favorite :: favorites))
  | _ => s.writtenByUpload migration.localProverbs

def writtenByMigration (s : App) : Bool :=
  s.localStorage.objects.isEmpty || s.remoteCollection.isNone

def writtenByCallback (s : App) (callback : Callback) (response : Response) : Bool :=
  match callback with
  | .userDocumentLoaded _ => response = .userDocument true && s.writtenByMigration
  | .userCreated _ => FirestoreManager.writeResult response && s.writtenByMigration
  | .favoritesFetched migration =>
      s.writtenByFetch migration (FirestoreManager.getAllFavoriteProverbsResult response)
  | .favoritesUploaded _ => true
  | .isFavorite (.checkAndSaveOrDelete _ proverb) =>
      s.writtenByToggle proverb (FirestoreManager.isFavoriteResult response)
  | _ => false

/-- The turn begins a transaction, if Realm is open. -/
def writtenBy (s : App) (input : Input) : Bool :=
  match input.event with
  | .save proverb => s.writtenBySave proverb
  | .delete proverb => s.writtenByDelete proverb
  | .checkAndSaveOrDeleteFavorite proverb =>
      s.isLocalStorage && s.writtenByToggle proverb (s.isFavoriteLocal proverb)
  | .deliver index =>
      match s.calls[index]? with
      | some ⟨_, callback, some response⟩ => s.writtenByCallback callback response
      | _ => false
  | _ => false

/-! ## Turns -/

/-- No exception has ended the process. -/
def Live (s : App) : Prop := s.aborted = false ∧ s.localStorage.writes ≠ .raised

instance (s : App) : Decidable s.Live :=
  inferInstanceAs (Decidable (s.aborted = false ∧ s.localStorage.writes ≠ .raised))

/-- A step of a process that is still there after it. -/
def turn (s : App) (input : Input) : Option App := (step s input).filter fun t => decide t.Live

/-- The turn reads a deleted favourite, or unwraps a closure of Google's that is not there. -/
def Traps (s : App) (input : Input) : Prop :=
  (∃ f ∈ s.readBy input, s.localStorage.isValid f = false) ∨
    input.event = .didSignInFor .authentication ∧ s.googleCompletion = none

instance (s : App) (input : Input) : Decidable (s.Traps input) :=
  inferInstanceAs (Decidable (_ ∨ _ ∧ _))

/-- The turn traps, deletes what is no document, or begins a transaction inside an open one. -/
def Crashes (s : App) (input : Input) : Prop :=
  s.Traps input ∨
    (∃ identifier ∈ s.addressedBy input, isDocumentPath identifier = false) ∨
    s.writtenBy input = true ∧ s.localStorage.realm.isSome ∧ s.localStorage.writes = .leftOpen

instance (s : App) (input : Input) : Decidable (s.Crashes input) :=
  inferInstanceAs (Decidable (_ ∨ _ ∨ _ ∧ _ ∧ _))

section Requests

variable {s : App}

theorem readable_iff (s : App) (proverb : Proverb) :
    s.readable proverb = true ↔
      ∀ f ∈ proverb.managedFavorite, s.localStorage.isValid f = true := by
  cases proverb <;> simp [readable, Proverb.managedFavorite]

theorem save_isSome (s : App) (proverb : Proverb) (request : Nat) (random : Identifier)
    (now : Date) : (s.save proverb request random now).isSome = s.readable proverb := by
  simp only [save]
  cases hreadable : s.readable proverb with
  | false => rfl
  | true =>
      rw [if_pos rfl]
      split <;> rfl

theorem checkAndDeleteLocal_isSome (s : App) (proverb : Proverb) :
    (s.checkAndDeleteLocal proverb).isSome := by
  cases proverb with
  | rProverb proverb =>
      simp only [checkAndDeleteLocal]
      split
      · exact deleteLocal_isSome s _
      · rfl
  | rFavorite f => exact deleteLocal_isSome s f
  | fFavorite f => rfl

theorem delete_isSome (s : App) (proverb : Proverb) (request : Nat) :
    (s.delete proverb request).isSome = s.readable proverb := by
  unfold delete
  cases hreadable : s.readable proverb with
  | false => rfl
  | true =>
      rw [if_pos rfl]
      split
      · rw [Option.isSome_map]
        exact checkAndDeleteLocal_isSome s proverb
      · rfl

theorem toggleCompleted_isSome (s : App) (request : Nat) (proverb : Proverb) (result : Bool)
    (random : Identifier) (now : Date) :
    (s.checkCompleted (.checkAndSaveOrDelete request proverb) result random now).isSome =
      s.readable proverb := by
  cases result with
  | true => exact delete_isSome s proverb request
  | false => exact save_isSome s proverb request random now

/-- A check that is not answered yet has read nothing; a catalogue proverb can be read. -/
theorem toggle_isSome (s : App) (request : Nat) (proverb : Proverb) (random : Identifier)
    (now : Date) :
    (s.isFavorite proverb (.checkAndSaveOrDelete request proverb) random now).isSome =
      s.readable proverb := by
  unfold isFavorite
  split
  · exact toggleCompleted_isSome s request proverb _ random now
  · cases proverb with
    | rProverb proverb =>
        simp only [isFavoriteRemote]
        split
        · exact toggleCompleted_isSome s request _ false random now
        · split
          · rfl
          · exact toggleCompleted_isSome s request _ _ random now
    | rFavorite f => exact toggleCompleted_isSome s request (.rFavorite f) true random now
    | fFavorite f => exact toggleCompleted_isSome s request (.fFavorite f) true random now

theorem check_isSome (s : App) (request : Nat) (proverb : Proverb) (random : Identifier)
    (now : Date) : (s.isFavorite proverb (.answer request) random now).isSome := by
  unfold isFavorite
  split
  · rfl
  · cases proverb with
    | rProverb proverb =>
        simp only [isFavoriteRemote]
        split
        · rfl
        · split <;> rfl
    | rFavorite f => rfl
    | fFavorite f => rfl

end Requests

section Callbacks

variable {s : App}

theorem saveToRemoteStorage_isSome_iff {migration : Migration}
    {proverbs : List RFavoriteProverb} :
    (s.saveToRemoteStorage migration proverbs).isSome ↔
      (s.remoteStorage.isSome → ∀ f ∈ proverbs, s.localStorage.isValid f = true) := by
  constructor
  · intro hsome hm f hf
    obtain ⟨manager, hm⟩ := Option.isSome_iff_exists.mp hm
    by_contra hdeleted
    have hall : ¬ proverbs.all s.localStorage.isValid = true := by
      rw [List.all_eq_true]
      exact fun h => hdeleted (h f hf)
    simp [saveToRemoteStorage, hm, hall] at hsome
  · intro h
    cases hm : s.remoteStorage with
    | none => simp [saveToRemoteStorage, hm]
    | some manager => exact saveToRemoteStorage_isSome (h (by simp [hm]))

theorem favoritesFetched_isSome_iff {migration : Migration} {response : Response} :
    (s.favoritesFetched migration
        (FirestoreManager.getAllFavoriteProverbsResult response)).isSome ↔
      ∀ f ∈ s.readByCallback (.favoritesFetched migration) response,
        s.localStorage.isValid f = true := by
  have hupload : (s.saveToRemoteStorage migration migration.localProverbs).isSome ↔
      ∀ f ∈ if s.remoteStorage.isSome then migration.localProverbs else [],
        s.localStorage.isValid f = true := by
    rw [saveToRemoteStorage_isSome_iff]
    cases s.remoteStorage.isSome <;> simp
  simp only [readByCallback]
  cases FirestoreManager.getAllFavoriteProverbsResult response with
  | error error => exact hupload
  | ok favorites =>
      cases favorites with
      | nil => exact hupload
      | cons favorite favorites =>
          constructor
          · intro hsome f hf
            by_contra hdeleted
            have hall : ¬ migration.localProverbs.all s.localStorage.isValid = true := by
              rw [List.all_eq_true]
              exact fun h => hdeleted (h f hf)
            simp [favoritesFetched, hall] at hsome
          · intro h
            exact favoritesFetched_isSome h _

/-- A callback stops exactly where it reads a deleted favourite. -/
theorem called_isSome_iff (s : App) (callback : Callback) (response : Response)
    (random : Identifier) (now : Date) :
    (s.called callback response random now).isSome ↔
      ∀ f ∈ s.readByCallback callback response, s.localStorage.isValid f = true := by
  have hquiet : callback.isMigration = true → callback.captured = [] →
      (s.called callback response random now).isSome := by
    intro hmigration hcaptured
    exact called_isSome hmigration (by simp [hcaptured]) response random now
  cases callback with
  | userDocumentLoaded manager => exact iff_of_true (hquiet rfl rfl) (by simp [readByCallback])
  | userCreated manager => exact iff_of_true (hquiet rfl rfl) (by simp [readByCallback])
  | favoritesFetched migration => exact favoritesFetched_isSome_iff
  | isFavorite completion =>
      cases completion with
      | answer request => exact iff_of_true rfl (by simp [readByCallback])
      | checkAndSaveOrDelete request proverb =>
          simp only [called, readByCallback]
          rw [toggleCompleted_isSome, readable_iff]
  | _ => exact iff_of_true rfl (by simp [readByCallback])

end Callbacks

/-! ## What a turn leaves of the process -/

/-- A transaction is begun or none, and these documents are addressed, all on the way from `s`
to `t`. -/
structure Leaves (s t : App) (written : Bool) (addressed : List Identifier) : Prop where
  writes : t.localStorage.writes =
    if written && s.localStorage.realm.isSome then s.localStorage.writes.next
    else s.localStorage.writes
  aborted : t.aborted = (s.aborted || !addressed.all isDocumentPath)

namespace Leaves

variable {s t u : App} {request : Nat} {ids : ProverbIdentifiers} {proverb : Proverb}
  {random : Identifier} {now : Date} {written : Bool} {addressed : List Identifier}

theorem of_same (hstorage : t.localStorage = s.localStorage) (haborted : t.aborted = s.aborted) :
    Leaves s t false [] :=
  ⟨by simp [hstorage], by simp [haborted]⟩

/-- What comes before and after changes neither the storage nor the process. -/
theorem between (h : Leaves s t written addressed) {s' t' : App}
    (hstorage : s'.localStorage = s.localStorage) (haborted : s'.aborted = s.aborted)
    (hstorage' : t'.localStorage = t.localStorage) (haborted' : t'.aborted = t.aborted) :
    Leaves s' t' written addressed := by
  refine ⟨?_, ?_⟩
  · rw [hstorage, hstorage']
    exact h.writes
  · rw [haborted, haborted']
    exact h.aborted

theorem realmWrite (hstorage : t.localStorage = (s.localStorage.realmWrite processBlock).1)
    (haborted : t.aborted = s.aborted) : Leaves s t true [] :=
  ⟨by simp [hstorage, LocalStorage.writes_realmWrite], by simp [haborted]⟩

theorem aborted_saveCompleted (s : App) (result : Except AppError Proverb) :
    (s.saveCompleted request ids result).aborted = s.aborted :=
  congrArg Prod.snd (device_saveCompleted s request ids result)

theorem aborted_deleteCompleted (s : App) (error : Option AppError) :
    (s.deleteCompleted request ids error).aborted = s.aborted :=
  congrArg Prod.snd (device_deleteCompleted s request ids error)

theorem saveCompleted (s : App) (request : Nat) (ids : ProverbIdentifiers)
    (result : Except AppError Proverb) :
    Leaves s (s.saveCompleted request ids result) false [] :=
  of_same (localStorage_saveCompleted s request ids result) (aborted_saveCompleted s result)

theorem deleteCompleted (s : App) (request : Nat) (ids : ProverbIdentifiers)
    (error : Option AppError) : Leaves s (s.deleteCompleted request ids error) false [] :=
  of_same (localStorage_deleteCompleted s request ids error) (aborted_deleteCompleted s error)

/-! ### Saving and deleting -/

theorem checkAndSaveLocal (hlocal : s.isLocalStorage = true) :
    Leaves s (s.checkAndSaveLocal proverb random now).1 (s.writtenBySave proverb) [] := by
  cases proverb with
  | rProverb proverb =>
      simp only [App.checkAndSaveLocal, writtenBySave, hlocal, Bool.true_and]
      split
      · rename_i hlimit
        rw [hlimit]
        exact of_same rfl rfl
      · rename_i hlimit
        rw [Bool.eq_false_of_not_eq_true hlimit]
        have hsaved := LocalStorage.saveUpdate_fst s.localStorage
          (RFavoriteProverb.ofRProverb random now proverb)
        split
        · exact realmWrite hsaved rfl
        · exact realmWrite hsaved rfl
  | rFavorite => exact of_same rfl rfl
  | fFavorite => exact of_same rfl rfl

theorem chackAndSaveRemote (s : App) (proverb : Proverb) :
    Leaves s (s.chackAndSaveRemote proverb request ids random now) false [] := by
  cases proverb with
  | rProverb proverb =>
      simp only [App.chackAndSaveRemote]
      split
      · exact saveCompleted s request ids _
      · split
        · exact of_same rfl rfl
        · exact saveCompleted s request ids _
  | rFavorite => exact saveCompleted s request ids (.error (.manager .isFavorite))
  | fFavorite => exact saveCompleted s request ids (.error (.manager .isFavorite))

theorem save (h : s.save proverb request random now = some t) :
    Leaves s t (s.writtenBySave proverb) [] := by
  let called := s.output (.saveCalled request s.isPurchased s.storedCount)
  have hcalled : called.writtenBySave proverb = s.writtenBySave proverb := by cases proverb <;> rfl
  simp only [App.save] at h
  split at h
  · split at h
    · rename_i hlocal
      rw [← Option.some.inj h, ← hcalled]
      have hsaved : Leaves called (called.checkAndSaveLocal proverb random now).1
          (called.writtenBySave proverb) [] := checkAndSaveLocal hlocal
      exact hsaved.between rfl rfl (localStorage_saveCompleted _ _ _ _) (aborted_saveCompleted _ _)
    · rename_i hremote
      rw [← Option.some.inj h]
      have hnothing : s.writtenBySave proverb = false := by
        have hlocal : s.isLocalStorage = false := Bool.eq_false_of_not_eq_true hremote
        cases proverb <;> simp [writtenBySave, hlocal]
      rw [hnothing]
      exact (chackAndSaveRemote called proverb).between rfl rfl rfl rfl
  · cases h

theorem deleteLocal {f : RFavoriteProverb} {error : Option AppError}
    (h : s.deleteLocal f = some (t, error)) : Leaves s t true [] := by
  rw [App.deleteLocal, LocalStorage.delete_of_hasRealm, Option.map_some] at h
  rw [← (Prod.mk.inj (Option.some.inj h)).1]
  exact realmWrite rfl rfl

theorem checkAndDeleteLocal {error : Option AppError} (hlocal : s.isLocalStorage = true)
    (h : s.checkAndDeleteLocal proverb = some (t, error)) :
    Leaves s t (s.writtenByDelete proverb) [] := by
  cases proverb with
  | rProverb proverb =>
      simp only [App.checkAndDeleteLocal] at h
      simp only [writtenByDelete, hlocal, Bool.true_and]
      cases hget : s.localStorage.get RFavoriteProverb.originIdentifier proverb.identifier with
      | none =>
          rw [hget] at h
          rw [← (Prod.mk.inj (Option.some.inj h)).1]
          exact of_same rfl rfl
      | some f =>
          rw [hget] at h
          exact deleteLocal h
  | rFavorite f =>
      rw [writtenByDelete, hlocal]
      exact deleteLocal h
  | fFavorite f =>
      rw [← (Prod.mk.inj (Option.some.inj h)).1]
      exact of_same rfl rfl

theorem deleteRemote (s : App) (proverb : FFavoriteProverb) :
    Leaves s (s.deleteRemote request ids proverb) false (s.deletedDocument proverb) := by
  cases hm : s.remoteStorage with
  | none =>
      simp only [App.deleteRemote, deletedDocument, remoteCollection, hm]
      exact deleteCompleted s request ids _
  | some manager =>
      cases hcollection : manager.favoritesCollection with
      | none =>
          simp only [App.deleteRemote, deletedDocument, remoteCollection, hm, Option.bind_some,
            FirestoreManager.delete, hcollection]
          exact deleteCompleted s request ids _
      | some collection =>
          simp only [App.deleteRemote, deletedDocument, remoteCollection, hm, Option.bind_some,
            FirestoreManager.delete, hcollection, Option.isSome_some, if_true]
          cases hpath : isDocumentPath proverb.identifier with
          | true => exact ⟨rfl, by simp [App.call, hpath]⟩
          | false => exact ⟨rfl, by simp [abort, hpath]⟩

theorem favoriteFound (s : App) (response : Response) :
    Leaves s (s.favoriteFound request ids (FirestoreManager.getFavoriteResult response)) false
      (s.addressedByCallback (.getFavorite request ids) response) := by
  simp only [App.favoriteFound, addressedByCallback]
  cases FirestoreManager.getFavoriteResult response with
  | ok proverb => exact deleteRemote s proverb
  | error error => exact deleteCompleted s request ids (some error)

theorem checkAndDeleteRemote (hremote : s.isLocalStorage = false) :
    Leaves s (s.checkAndDeleteRemote proverb request ids) false (s.addressedByDelete proverb) := by
  cases proverb with
  | rProverb proverb =>
      simp only [App.checkAndDeleteRemote, addressedByDelete]
      split
      · exact of_same rfl rfl
      · unfold FirestoreManager.getFavorite
        split
        · exact of_same rfl rfl
        · rename_i hanswered
          split at hanswered
          · rw [← Request.answered.inj hanswered]
            exact deleteCompleted s request ids (some .undefinedError)
          · cases hanswered
  | rFavorite => exact deleteCompleted s request ids (some (.manager .isNotFavorite))
  | fFavorite f =>
      simp only [App.checkAndDeleteRemote, addressedByDelete, hremote, Bool.false_eq_true, if_false]
      exact deleteRemote s f

theorem delete (h : s.delete proverb request = some t) :
    Leaves s t (s.writtenByDelete proverb) (s.addressedByDelete proverb) := by
  simp only [App.delete] at h
  split at h
  · split at h
    · rename_i hlocal
      obtain ⟨⟨u, error⟩, hdelete, hcompleted⟩ := Option.map_eq_some_iff.mp h
      have hnothing : s.addressedByDelete proverb = [] := by
        cases proverb <;> simp [addressedByDelete, hlocal]
      rw [← hcompleted, hnothing]
      exact (checkAndDeleteLocal hlocal hdelete).between rfl rfl
        (localStorage_deleteCompleted _ _ _ _) (aborted_deleteCompleted _ _)
    · rename_i hremote
      have hremote' : s.isLocalStorage = false := Bool.eq_false_of_not_eq_true hremote
      have hnothing : s.writtenByDelete proverb = false := by
        cases proverb <;> simp [writtenByDelete, hremote']
      rw [← Option.some.inj h, hnothing]
      exact checkAndDeleteRemote hremote'
  · cases h

/-- The body of `checkAndSaveOrDeleteFavorite` for the answer of its check. -/
theorem toggleCompleted {result : Bool}
    (h : s.checkCompleted (.checkAndSaveOrDelete request proverb) result random now = some t) :
    Leaves s t (s.writtenByToggle proverb result)
      (if result then s.addressedByDelete proverb else []) := by
  cases result with
  | true => exact delete h
  | false => exact save h

theorem toggle
    (h : s.isFavorite proverb (.checkAndSaveOrDelete request proverb) random now = some t) :
    Leaves s t (s.isLocalStorage && s.writtenByToggle proverb (s.isFavoriteLocal proverb))
      (s.addressedByDelete proverb) := by
  unfold App.isFavorite at h
  split at h
  · rename_i hlocal
    have hnothing : s.addressedByDelete proverb = [] := by
      cases proverb <;> simp [addressedByDelete, hlocal]
    have htoggle := toggleCompleted h
    rw [hlocal, Bool.true_and]
    simpa only [hnothing, ite_self] using htoggle
  · rename_i hremote
    have hremote' : s.isLocalStorage = false := Bool.eq_false_of_not_eq_true hremote
    have hchecked : ∀ result, s.checkCompleted (.checkAndSaveOrDelete request proverb) result
        random now = some t →
          Leaves s t false (if result then s.addressedByDelete proverb else []) := by
      intro result hresult
      have htoggle := toggleCompleted hresult
      have hnothing : s.writtenByToggle proverb result = false := by
        cases proverb <;> cases result <;>
          simp [writtenByToggle, writtenByDelete, writtenBySave, hremote']
      rwa [hnothing] at htoggle
    rw [hremote', Bool.false_and]
    cases proverb with
    | rProverb proverb =>
        simp only [App.isFavoriteRemote] at h
        split at h
        · exact hchecked false h
        · split at h
          · rw [← Option.some.inj h]
            exact of_same rfl rfl
          · simpa [addressedByDelete] using hchecked _ h
    | rFavorite f => exact hchecked true h
    | fFavorite f => exact hchecked true h

/-! ### The migration -/

theorem migrationCompleted (s : App) (user : UserIdentifier) (result : Bool) :
    Leaves s (s.migrationCompleted user result) true [] :=
  realmWrite (LocalStorage.deleteAll_eq s.localStorage) rfl

theorem saveToRemoteStorage {migration : Migration} {proverbs : List RFavoriteProverb}
    (h : s.saveToRemoteStorage migration proverbs = some t) :
    Leaves s t (s.writtenByUpload proverbs) [] := by
  simp only [App.saveToRemoteStorage] at h
  cases hm : s.remoteStorage with
  | none =>
      rw [hm] at h
      obtain rfl := Option.some.inj h
      have hwritten : s.writtenByUpload proverbs = true := by
        simp [writtenByUpload, remoteCollection, hm]
      rw [hwritten]
      exact migrationCompleted s migration.user false
  | some manager =>
      rw [hm] at h
      by_cases hvalid : proverbs.all s.localStorage.isValid = true
      · simp only [hvalid, if_true, FirestoreManager.saveAll, List.length_map] at h
        cases hcollection : manager.favoritesCollection with
        | none =>
            have hwritten : s.writtenByUpload proverbs = true := by
              simp [writtenByUpload, remoteCollection, hm, hcollection]
            rw [hcollection] at h
            obtain rfl := Option.some.inj h
            rw [hwritten]
            exact migrationCompleted s migration.user false
        | some collection =>
            have hwritten : s.writtenByUpload proverbs = proverbs.isEmpty := by
              simp [writtenByUpload, remoteCollection, hm, hcollection]
            rw [hcollection] at h
            rw [hwritten]
            cases proverbs with
            | nil =>
                obtain rfl := Option.some.inj h
                exact migrationCompleted s migration.user true
            | cons f proverbs =>
                obtain rfl := Option.some.inj h
                exact of_same rfl rfl
      · simp [hvalid] at h

theorem favoritesFetched {migration : Migration}
    {result : Except AppError (List FFavoriteProverb)}
    (h : s.favoritesFetched migration result = some t) :
    Leaves s t (s.writtenByFetch migration result) [] := by
  cases result with
  | error error => exact saveToRemoteStorage h
  | ok favorites =>
      cases favorites with
      | nil => exact saveToRemoteStorage h
      | cons favorite favorites =>
          simp only [App.favoritesFetched, List.length_cons, Nat.zero_lt_succ, if_true] at h
          simp only [writtenByFetch]
          split at h
          · cases hfilter : filter migration.localProverbs (favorite :: favorites) with
            | nil =>
                rw [hfilter] at h
                obtain rfl := Option.some.inj h
                simp only [writtenByUpload, List.isEmpty_nil, Bool.or_true]
                exact migrationCompleted s migration.user true
            | cons f toSave =>
                rw [hfilter] at h
                exact saveToRemoteStorage h
          · cases h

theorem checkAndMigrate {user : UserIdentifier}
    (h : s.checkAndMigrateLocalFavoriteProverbs user = some t) :
    Leaves s t s.writtenByMigration [] := by
  simp only [checkAndMigrateLocalFavoriteProverbs] at h
  cases hall : s.localStorage.getAll with
  | none =>
      rw [hall] at h
      obtain rfl := Option.some.inj h
      simp only [writtenByMigration, LocalStorage.objects, hall, Option.getD_none,
        List.isEmpty_nil, Bool.true_or]
      exact migrationCompleted s user true
  | some localProverbs =>
      rw [hall] at h
      simp only [writtenByMigration, LocalStorage.objects, hall, Option.getD_some]
      cases localProverbs with
      | nil =>
          obtain rfl := Option.some.inj h
          exact migrationCompleted s user true
      | cons f localProverbs =>
          simp only [List.length_cons, Nat.zero_lt_succ, if_true] at h
          simp only [List.isEmpty_cons, Bool.false_or]
          cases hm : s.remoteStorage with
          | none =>
              rw [hm] at h
              obtain rfl := Option.some.inj h
              simp only [remoteCollection, hm, Option.bind_none, Option.isNone_none]
              exact migrationCompleted s user false
          | some manager =>
              rw [hm] at h
              simp only [FirestoreManager.getAllFavoriteProverbs] at h
              cases hcollection : manager.favoritesCollection with
              | none =>
                  rw [hcollection] at h
                  have hfetched := favoritesFetched h
                  simp only [writtenByFetch, writtenByUpload, remoteCollection, hm,
                    Option.bind_some, hcollection, Option.isNone_none, Bool.true_or] at hfetched
                  simpa only [remoteCollection, hm, Option.bind_some, hcollection,
                    Option.isNone_none] using hfetched
              | some collection =>
                  rw [hcollection] at h
                  obtain rfl := Option.some.inj h
                  simp only [remoteCollection, hm, Option.bind_some, hcollection,
                    Option.isNone_some]
                  exact of_same rfl rfl

theorem userDocumentReady {manager : FirestoreManager} {result : Bool}
    (h : s.userDocumentReady manager result = some t) :
    Leaves s t (result && s.writtenByMigration) [] := by
  cases result with
  | true => exact checkAndMigrate h
  | false =>
      obtain rfl := Option.some.inj h
      exact of_same rfl rfl

theorem userDocumentLoaded {manager : FirestoreManager} {response : Response}
    (h : s.userDocumentLoaded manager response = some t) :
    Leaves s t (response = .userDocument true && s.writtenByMigration) [] := by
  cases response with
  | userDocument hasData =>
      cases hasData with
      | true => simpa using checkAndMigrate h
      | false =>
          obtain rfl := Option.some.inj h
          exact of_same rfl rfl
  | error => exact userDocumentReady h
  | nothing => exact userDocumentReady h
  | documents => exact userDocumentReady h
  | written => exact userDocumentReady h

/-! ### Callbacks and turns -/

theorem check (h : s.isFavorite proverb (.answer request) random now = some t) :
    Leaves s t false [] := by
  unfold App.isFavorite at h
  split at h
  · rw [← Option.some.inj h]
    exact of_same rfl rfl
  · cases proverb with
    | rProverb proverb =>
        simp only [App.isFavoriteRemote] at h
        split at h
        · rw [← Option.some.inj h]
          exact of_same rfl rfl
        · split at h
          · rw [← Option.some.inj h]
            exact of_same rfl rfl
          · rw [← Option.some.inj h]
            exact of_same rfl rfl
    | rFavorite f =>
        rw [← Option.some.inj h]
        exact of_same rfl rfl
    | fFavorite f =>
        rw [← Option.some.inj h]
        exact of_same rfl rfl

theorem called {callback : Callback} {response : Response}
    (h : s.called callback response random now = some t) :
    Leaves s t (s.writtenByCallback callback response)
      (s.addressedByCallback callback response) := by
  cases callback with
  | userDocumentLoaded manager => exact userDocumentLoaded h
  | userCreated manager => exact userDocumentReady h
  | favoritesFetched migration => exact favoritesFetched h
  | favoritesUploaded migration =>
      obtain rfl := Option.some.inj h
      exact migrationCompleted s migration.user _
  | getAll request =>
      obtain rfl := Option.some.inj h
      exact of_same rfl rfl
  | isFavorite completion =>
      cases completion with
      | answer request =>
          obtain rfl := Option.some.inj h
          exact of_same rfl rfl
      | checkAndSaveOrDelete request proverb => exact toggleCompleted h
  | save request ids proverb =>
      obtain rfl := Option.some.inj h
      exact saveCompleted s request ids _
  | getFavorite request ids =>
      obtain rfl := Option.some.inj h
      exact favoriteFound s response
  | delete request ids =>
      obtain rfl := Option.some.inj h
      exact deleteCompleted s request ids _

theorem deliver {index : Nat} (h : s.deliver index random now = some t) :
    Leaves s t (s.writtenBy ⟨.deliver index, random, now⟩)
      (s.addressedBy ⟨.deliver index, random, now⟩) := by
  unfold App.deliver at h
  split at h
  · rename_i operation callback response hcall
    have hcalled := called h
    simp only [writtenBy, addressedBy, hcall]
    exact hcalled.between rfl rfl rfl rfl
  · rename_i hwaiting
    have hnothing : s.writtenBy ⟨.deliver index, random, now⟩ = false ∧
        s.addressedBy ⟨.deliver index, random, now⟩ = [] := by
      simp [writtenBy, addressedBy]
    obtain rfl := Option.some.inj h
    rw [hnothing.1, hnothing.2]
    exact of_same rfl rfl

end Leaves

/-! ## Every turn -/

theorem not_traps_iff {s : App} {input : Input}
    (h : input.event ≠ .didSignInFor .authentication) :
    ¬ s.Traps input ↔ ∀ f ∈ s.readBy input, s.localStorage.isValid f = true := by
  simp [Traps, h]

theorem didSignInFor_isSome_iff (s : App) (result : GoogleResult) :
    (s.didSignInFor result).isSome ↔
      ¬ (result = .authentication ∧ s.googleCompletion = none) := by
  unfold didSignInFor
  cases result <;> cases s.googleCompletion <;> simp

theorem deliver_isSome_iff (s : App) (index : Nat) (random : Identifier) (now : Date) :
    (s.deliver index random now).isSome ↔
      ∀ f ∈ s.readBy ⟨.deliver index, random, now⟩, s.localStorage.isValid f = true := by
  unfold deliver
  split
  · rename_i operation callback response hcall
    simp only [readBy, hcall]
    exact called_isSome_iff { s with calls := s.calls.eraseIdx index } callback response random now
  · rename_i hwaiting
    have hnothing : s.readBy ⟨.deliver index, random, now⟩ = [] := by simp [readBy]
    simp [hnothing]

theorem step_isSome_iff (s : App) (input : Input) :
    (step s input).isSome ↔ ¬ s.Traps input := by
  obtain ⟨event, random, now⟩ := input
  cases event with
  | didSignInFor result =>
      rw [step, didSignInFor_isSome_iff]
      simp [Traps, readBy]
  | save proverb =>
      rw [not_traps_iff (by simp), step, save_isSome]
      exact readable_iff s proverb
  | delete proverb =>
      rw [not_traps_iff (by simp), step, delete_isSome]
      exact readable_iff s proverb
  | checkAndSaveOrDeleteFavorite proverb =>
      rw [not_traps_iff (by simp), step, toggle_isSome]
      exact readable_iff s proverb
  | deliver index =>
      rw [not_traps_iff (by simp), step]
      exact deliver_isSome_iff s index random now
  | isFavorite proverb =>
      rw [not_traps_iff (by simp)]
      exact iff_of_true (check_isSome s.takeRequest s.nextRequest proverb random now)
        (by simp [readBy])
  | _ =>
      rw [not_traps_iff (by simp)]
      exact iff_of_true rfl (by simp [readBy])

section TakeRequest

variable (s : App) (proverb : Proverb)

@[simp] theorem writtenBySave_takeRequest :
    s.takeRequest.writtenBySave proverb = s.writtenBySave proverb := by
  cases proverb <;> rfl

@[simp] theorem writtenByDelete_takeRequest :
    s.takeRequest.writtenByDelete proverb = s.writtenByDelete proverb := by
  cases proverb <;> rfl

@[simp] theorem writtenByToggle_takeRequest (result : Bool) :
    s.takeRequest.writtenByToggle proverb result = s.writtenByToggle proverb result := by
  cases result <;> simp [writtenByToggle]

@[simp] theorem isFavoriteLocal_takeRequest :
    s.takeRequest.isFavoriteLocal proverb = s.isFavoriteLocal proverb := by
  cases proverb <;> rfl

@[simp] theorem addressedByDelete_takeRequest :
    s.takeRequest.addressedByDelete proverb = s.addressedByDelete proverb := by
  cases proverb <;> rfl

end TakeRequest

theorem leaves_step {s t : App} {input : Input} (hlaunch : ∀ throws, input.event ≠ .launch throws)
    (hwrites : ∀ throw, input.event ≠ .realmWrites throw) (h : step s input = some t) :
    Leaves s t (s.writtenBy input) (s.addressedBy input) := by
  obtain ⟨event, random, now⟩ := input
  cases event with
  | launch throws => exact absurd rfl (hlaunch throws)
  | realmWrites throw => exact absurd rfl (hwrites throw)
  | getAll =>
      obtain rfl := Option.some.inj h
      have hsame : (s.takeRequest.getAll s.nextRequest).device = s.device :=
        device_getAll s.takeRequest s.nextRequest
      exact .of_same (congrArg Prod.fst hsame) (congrArg Prod.snd hsame)
  | isFavorite proverb =>
      have hchecked : Leaves s.takeRequest t false [] := Leaves.check h
      exact hchecked.between rfl rfl rfl rfl
  | save proverb =>
      have hsaved := Leaves.save (s := s.takeRequest) h
      rw [writtenBySave_takeRequest] at hsaved
      exact hsaved.between rfl rfl rfl rfl
  | delete proverb =>
      have hdeleted := Leaves.delete (s := s.takeRequest) h
      rw [writtenByDelete_takeRequest, addressedByDelete_takeRequest] at hdeleted
      exact hdeleted.between rfl rfl rfl rfl
  | checkAndSaveOrDeleteFavorite proverb =>
      have htoggled := Leaves.toggle (s := s.takeRequest) h
      rw [writtenByToggle_takeRequest, isFavoriteLocal_takeRequest,
        addressedByDelete_takeRequest] at htoggled
      exact htoggled.between rfl rfl rfl rfl
  | serve index outcome =>
      obtain rfl := Option.some.inj h
      have hsame : (s.serve index outcome).device = s.device := by
        unfold serve
        split <;> rfl
      exact .of_same (congrArg Prod.fst hsame) (congrArg Prod.snd hsame)
  | deliver index => exact Leaves.deliver h
  | _ =>
      have hsame := device_account rfl h
      exact .of_same (congrArg Prod.fst hsame) (congrArg Prod.snd hsame)

/-- A live process survives a step exactly if it addresses documents and begins no transaction
inside an open one. -/
theorem Leaves.live_iff {s t : App} {written : Bool} {addressed : List Identifier}
    (h : Leaves s t written addressed) (hs : s.Live) :
    t.Live ↔ ¬ ((∃ identifier ∈ addressed, isDocumentPath identifier = false) ∨
      written = true ∧ s.localStorage.realm.isSome ∧ s.localStorage.writes = .leftOpen) := by
  obtain ⟨haborted, hwrites⟩ := hs
  have haddressed : t.aborted = false ↔
      ¬ ∃ identifier ∈ addressed, isDocumentPath identifier = false := by
    rw [h.aborted, haborted]
    simp
  have hwritten : t.localStorage.writes ≠ .raised ↔
      ¬ (written = true ∧ s.localStorage.realm.isSome ∧ s.localStorage.writes = .leftOpen) := by
    rw [h.writes]
    cases written <;> cases s.localStorage.realm.isSome <;> cases hw : s.localStorage.writes <;>
      simp_all [Writes.next]
  rw [Live, haddressed, hwritten, not_or]

theorem turn_eq_some_iff {s t : App} {input : Input} :
    turn s input = some t ↔ step s input = some t ∧ t.Live := by
  simp [turn, Option.filter_eq_some_iff]

theorem live_of_turn {s t : App} {input : Input} (h : turn s input = some t) : t.Live :=
  (turn_eq_some_iff.mp h).2

theorem live_restarted (s : App) : s.restarted.Live :=
  ⟨rfl, (Writes.reopened_closed _).2⟩

theorem live_launch (s : App) (throws : Bool) : (s.launch throws).Live := by
  have hstart : (s.restarted.userManagerStart throws).device = s.restarted.device :=
    have hevent : isAccountEvent (Input.mk (.userManagerStart throws) "" 0).event = true := rfl
    device_account hevent rfl
  have hsame : (s.launch throws).device = s.restarted.device :=
    (device_setupFirestoreManager _).trans hstart
  have hstorage : (s.launch throws).localStorage = s.restarted.localStorage :=
    congrArg Prod.fst hsame
  refine ⟨congrArg Prod.snd hsame, ?_⟩
  rw [hstorage]
  exact (live_restarted s).2

theorem live_of_reachable {device s : App} {throws : Bool}
    (h : Transition.Reachable turn (device.launch throws) s) : s.Live :=
  h.invariant (fun _ _ _ _ ht => live_of_turn ht) (live_launch device throws)

theorem reachable_of_turn {s t : App} (h : Transition.Reachable turn s t) :
    Transition.Reachable step s t :=
  h.mono fun _ _ _ hs => (turn_eq_some_iff.mp hs).1

theorem live_setThrows {s : App} (h : s.Live) (throw : Bool) :
    Live { s with localStorage := s.localStorage.setThrows throw } := by
  refine ⟨h.1, ?_⟩
  have hnot := h.2
  cases hw : s.localStorage.writes <;> cases throw <;>
    simp_all [LocalStorage.setThrows, Writes.set]

theorem turn_isSome_iff {s : App} (hs : s.Live) (input : Input) :
    (turn s input).isSome ↔ ¬ s.Crashes input := by
  have htraps := step_isSome_iff s input
  cases hstep : step s input with
  | none =>
      have htrap : s.Traps input := by
        by_contra hnot
        simp [hstep, hnot] at htraps
      exact iff_of_false (by simp [turn, hstep]) fun hnot => hnot (Or.inl htrap)
  | some t =>
      have hno : ¬ s.Traps input := htraps.mp (by simp [hstep])
      have hturn : (turn s input).isSome ↔ t.Live := by simp [turn, hstep]
      rw [hturn, Crashes, not_or, and_iff_right hno]
      obtain ⟨event, random, now⟩ := input
      cases event with
      | launch throws =>
          obtain rfl := Option.some.inj hstep
          exact iff_of_true (live_launch s throws) (by simp [addressedBy, writtenBy])
      | realmWrites throw =>
          obtain rfl := Option.some.inj hstep
          exact iff_of_true (live_setThrows hs throw) (by simp [addressedBy, writtenBy])
      | _ => exact (leaves_step (by simp) (by simp) hstep).live_iff hs

/-- From any state of a live process, a run comes to its end exactly if none of its turns reads
a deleted favourite, unwraps a closure of Google's that is not there, deletes what is no
document, or begins a transaction inside an open one. -/
theorem run_isSome_iff_no_crash {s : App} (h : s.Live) (inputs : List Input) :
    (Transition.run turn s inputs).isSome ↔
      Transition.Along turn (fun u input => ¬ u.Crashes input) s inputs := by
  rw [Transition.run_isSome_iff]
  exact Transition.along_congr (I := Live) (fun _ _ _ _ _ _ hs => live_of_turn hs)
    (fun u input _ hu => turn_isSome_iff hu input) h

/-- A save whose commit throws, and another one, with a launch between them or without. -/
def savesAfterThrow (relaunched : Bool) : List Input :=
  [⟨.realmWrites true, "", 0⟩, ⟨.save (.rProverb ⟨"1", 0, "", "", "", false⟩), "a", 0⟩] ++
    (if relaunched then [⟨.launch false, "", 0⟩] else []) ++
    [⟨.save (.rProverb ⟨"2", 0, "", "", "", false⟩), "b", 0⟩]

theorem run_isSome_iff_no_crash_saves :
    (Transition.run turn (installed.launch false) (savesAfterThrow true)).isSome ∧
      ¬ (Transition.run turn (installed.launch false) (savesAfterThrow false)).isSome := by
  have hlive : (installed.launch false).Live := by decide
  constructor
  · exact (run_isSome_iff_no_crash hlive (savesAfterThrow true)).mpr (by decide)
  · exact fun hsome => absurd ((run_isSome_iff_no_crash hlive _).mp hsome) (by decide)

end App

end Proverbs
