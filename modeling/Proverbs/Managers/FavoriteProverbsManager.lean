import Proverbs.Managers.State

/-! # FavoriteProverbsManager

The manager's methods and the bodies of its closures, on the state of the app.
A method that reads or deletes a Realm object may trap, which is `none`. Where a
path of the source never calls its completion, nothing is put out here either.
-/

namespace Proverbs

def freeMaxCount : Nat := 5

namespace App

def isLocalStorage (s : App) : Bool := s.currentPlan != .paidRegistered

def hasRestriction (s : App) : Bool := !s.isPurchased

def getLocalCount (s : App) : Nat := (s.localStorage.getAll.map List.length).getD 0

def remoteCount (s : App) : Nat :=
  match s.remoteCollection with
  | none => 0
  | some user => (s.firestore.favorites user).entries.length

def storedCount (s : App) : Nat := if s.isLocalStorage then s.getLocalCount else s.remoteCount

/-- Reading a property of a favourite deleted from Realm traps. -/
def readable (s : App) : Proverb → Bool
  | .rFavorite proverb => s.localStorage.isValid proverb
  | _ => true

def identifiers : Proverb → ProverbIdentifiers
  | .rProverb proverb => ⟨none, proverb.identifier⟩
  | .rFavorite proverb => ⟨some proverb.identifier, proverb.originIdentifier⟩
  | .fFavorite proverb => ⟨some proverb.identifier, proverb.originIdentifier⟩

/-! ## Completions of the public methods -/

/-- `saveCompletion`, then the caller's completion. -/
def saveCompleted (s : App) (request : Nat) (identifiers : ProverbIdentifiers)
    (result : Except AppError Proverb) : App :=
  match result with
  | .ok proverb => (s.output (.didSave identifiers)).output (.saved request (.ok proverb))
  | .error error => s.output (.saved request (.error error))

/-- `deleteCompletion`, then the caller's completion. -/
def deleteCompleted (s : App) (request : Nat) (identifiers : ProverbIdentifiers)
    (error : Option AppError) : App :=
  match error with
  | none => (s.output (.didDelete identifiers)).output (.deleted request none)
  | some error => s.output (.deleted request (some error))

def getAllCompleted (s : App) (request : Nat)
    (result : Except AppError (List FFavoriteProverb)) : App :=
  s.output (.gotAll request (result.map fun favorites => favorites.map Proverb.fFavorite))

/-! ## Local storage -/

def isFavoriteLocal (s : App) : Proverb → Bool
  | .rFavorite _ => true
  | .rProverb proverb =>
      (s.localStorage.get RFavoriteProverb.originIdentifier proverb.identifier).isSome
  | .fFavorite _ => false

def checkAndSaveLocal (s : App) (proverb : Proverb) (random : Identifier) (now : Date) :
    App × Except AppError Proverb :=
  match proverb with
  | .rProverb proverb =>
      if s.hasRestriction && decide (freeMaxCount ≤ s.getLocalCount) then
        (s, .error (.manager (.maxLimit freeMaxCount)))
      else
        let saveProverb := RFavoriteProverb.ofRProverb random now proverb
        let (localStorage, done) := s.localStorage.saveUpdate saveProverb
        let s := { s with localStorage := localStorage }
        if done then (s, .ok (.rFavorite saveProverb)) else (s, .error (.manager .undefined))
  | _ => (s, .error (.manager .isFavorite))

/-- The local closure `delete` of `checkAndDeleteLocal`. -/
def deleteLocal (s : App) (proverb : RFavoriteProverb) : Option (App × Option AppError) :=
  (s.localStorage.delete ⟨proverb, true⟩).map fun (localStorage, done) =>
    ({ s with localStorage := localStorage },
      if done then none else some (.manager .undefined))

def checkAndDeleteLocal (s : App) (proverb : Proverb) : Option (App × Option AppError) :=
  match proverb with
  | .rProverb proverb =>
      match s.localStorage.get RFavoriteProverb.originIdentifier proverb.identifier with
      | some rFavoriteProverb => s.deleteLocal rFavoriteProverb
      | none => some (s, some (.manager .isNotFavorite))
  | .rFavorite proverb => s.deleteLocal proverb
  | .fFavorite _ => some (s, some (.manager .isNotFavorite))

/-! ## Remote storage -/

def chackAndSaveRemote (s : App) (proverb : Proverb) (request : Nat)
    (identifiers : ProverbIdentifiers) (random : Identifier) (now : Date) : App :=
  match proverb with
  | .rProverb proverb =>
      match s.remoteStorage with
      | none => s.saveCompleted request identifiers (.error (.manager .undefined))
      | some remoteStorage =>
          let fProverb := FFavoriteProverb.ofRProverb random now proverb
          match remoteStorage.save fProverb with
          | .sent operation => s.call operation (.save request identifiers fProverb)
          | .answered result =>
              s.saveCompleted request identifiers (result.map Proverb.fFavorite)
  | _ => s.saveCompleted request identifiers (.error (.manager .isFavorite))

/-- The local closure `delete` of `checkAndDeleteRemote`. -/
def deleteRemote (s : App) (request : Nat) (identifiers : ProverbIdentifiers)
    (proverb : FFavoriteProverb) : App :=
  match s.remoteStorage with
  | none => s.deleteCompleted request identifiers (some (.manager .undefined))
  | some remoteStorage =>
      match remoteStorage.delete proverb with
      | none => s.abort
      | some (.sent operation) => s.call operation (.delete request identifiers)
      | some (.answered error) => s.deleteCompleted request identifiers error

def favoriteFound (s : App) (request : Nat) (identifiers : ProverbIdentifiers)
    (result : Except AppError FFavoriteProverb) : App :=
  match result with
  | .ok proverb => s.deleteRemote request identifiers proverb
  | .error error => s.deleteCompleted request identifiers (some error)

def checkAndDeleteRemote (s : App) (proverb : Proverb) (request : Nat)
    (identifiers : ProverbIdentifiers) : App :=
  match proverb with
  | .rProverb proverb =>
      match s.remoteStorage with
      | none => s
      | some remoteStorage =>
          match remoteStorage.getFavorite proverb.identifier with
          | .sent operation => s.call operation (.getFavorite request identifiers)
          | .answered result => s.favoriteFound request identifiers result
  | .fFavorite proverb => s.deleteRemote request identifiers proverb
  | .rFavorite _ => s.deleteCompleted request identifiers (some (.manager .isNotFavorite))

/-! ## Public methods -/

def getAll (s : App) (request : Nat) : App :=
  if s.isLocalStorage then
    match s.localStorage.getAll with
    | some results => s.output (.gotAll request (.ok (results.map Proverb.rFavorite)))
    | none => s.output (.gotAll request (.error (.manager .undefined)))
  else
    match s.remoteStorage with
    | none => s.output (.gotAll request (.error (.manager .undefined)))
    | some remoteStorage =>
        match remoteStorage.getAllFavoriteProverbs with
        | .sent operation => s.call operation (.getAll request)
        | .answered result => s.getAllCompleted request result

def save (s : App) (proverb : Proverb) (request : Nat) (random : Identifier) (now : Date) :
    Option App :=
  if s.readable proverb then
    let identifiers := identifiers proverb
    let s := s.output (.saveCalled request s.isPurchased s.storedCount)
    if s.isLocalStorage then
      let (s, result) := s.checkAndSaveLocal proverb random now
      some (s.saveCompleted request identifiers result)
    else some (s.chackAndSaveRemote proverb request identifiers random now)
  else none

def delete (s : App) (proverb : Proverb) (request : Nat) : Option App :=
  if s.readable proverb then
    let identifiers := identifiers proverb
    if s.isLocalStorage then
      (s.checkAndDeleteLocal proverb).map fun (s, error) =>
        s.deleteCompleted request identifiers error
    else some (s.checkAndDeleteRemote proverb request identifiers)
  else none

/-- The closures handed to `isFavorite`; the second is the one of
`checkAndSaveOrDeleteFavorite`, the same on both screens. -/
def checkCompleted (s : App) (completion : CheckCompletion) (result : Bool)
    (random : Identifier) (now : Date) : Option App :=
  match completion with
  | .answer request => some (s.output (.checked request result))
  | .checkAndSaveOrDelete request proverb =>
      if result then s.delete proverb request else s.save proverb request random now

def isFavoriteRemote (s : App) (proverb : Proverb) (completion : CheckCompletion)
    (random : Identifier) (now : Date) : Option App :=
  match proverb with
  | .rFavorite _ | .fFavorite _ => s.checkCompleted completion true random now
  | .rProverb proverb =>
      match s.remoteStorage with
      | none => s.checkCompleted completion false random now
      | some remoteStorage =>
          match remoteStorage.isFavorite proverb.identifier with
          | .sent operation => some (s.call operation (.isFavorite completion))
          | .answered result => s.checkCompleted completion result random now

def isFavorite (s : App) (proverb : Proverb) (completion : CheckCompletion)
    (random : Identifier) (now : Date) : Option App :=
  if s.isLocalStorage then
    s.checkCompleted completion (s.isFavoriteLocal proverb) random now
  else s.isFavoriteRemote proverb completion random now

/-! ## Migration of the local favourites -/

/-- The completion `setupFirestoreManager` hands to the migration; it does not
look at its argument. -/
def migrationCompleted (s : App) (user : UserIdentifier) (_result : Bool) : App :=
  { s.output (.migrated user
      (s.localStorage.objects.filter (· ∉ s.localStorage.deleteAll.objects))) with
    localStorage := s.localStorage.deleteAll }

def filter (localProverbs : List RFavoriteProverb) (remoteProverbs : List FFavoriteProverb) :
    List RFavoriteProverb :=
  localProverbs.filter fun rProverb =>
    (remoteProverbs.filter fun fProverb =>
      fProverb.originIdentifier = rProverb.originIdentifier).length ≤ 0

def saveToRemoteStorage (s : App) (migration : Migration) (proverbs : List RFavoriteProverb) :
    Option App :=
  match s.remoteStorage with
  | none => some (s.migrationCompleted migration.user false)
  | some remoteStorage =>
      if proverbs.all s.localStorage.isValid then
        match remoteStorage.saveAll (proverbs.map FFavoriteProverb.ofRFavoriteProverb) with
        | .sent operation => some (s.call operation (.favoritesUploaded migration))
        | .answered result => some (s.migrationCompleted migration.user result)
      else none

/-- The closure handed to `getAllFavoriteProverbs`. -/
def favoritesFetched (s : App) (migration : Migration)
    (result : Except AppError (List FFavoriteProverb)) : Option App :=
  match result with
  | .ok favorites =>
      if 0 < favorites.length then
        if migration.localProverbs.all s.localStorage.isValid then
          let toSave := filter migration.localProverbs favorites
          if 0 < toSave.length then s.saveToRemoteStorage migration toSave
          else some (s.migrationCompleted migration.user true)
        else none
      else s.saveToRemoteStorage migration migration.localProverbs
  | .error _ => s.saveToRemoteStorage migration migration.localProverbs

def checkAndMigrateLocalFavoriteProverbs (s : App) (user : UserIdentifier) : Option App :=
  match s.localStorage.getAll with
  | none => some (s.migrationCompleted user true)
  | some localProverbs =>
      if 0 < localProverbs.length then
        match s.remoteStorage with
        | none => some (s.migrationCompleted user false)
        | some remoteStorage =>
            let migration : Migration := ⟨user, localProverbs⟩
            match remoteStorage.getAllFavoriteProverbs with
            | .sent operation => some (s.call operation (.favoritesFetched migration))
            | .answered result => s.favoritesFetched migration result
      else some (s.migrationCompleted user true)

/-! ## The user document -/

/-- `self.userDocument = nil`, on the instance the closure belongs to. -/
def dropUserDocument (s : App) (manager : FirestoreManager) : App :=
  { s with
    remoteStorage := s.remoteStorage.map fun remoteStorage =>
      if remoteStorage.reference = manager.reference then
        { remoteStorage with userDocument := none }
      else remoteStorage }

/-- The completion of `checkAndCreateCurrentUser` in `loadOrCreateUserDocument`,
and the closure of `setupFirestoreManager` it ends in. -/
def userDocumentReady (s : App) (manager : FirestoreManager) (result : Bool) : Option App :=
  if result then s.checkAndMigrateLocalFavoriteProverbs manager.currentUserIdentifier
  else some (s.dropUserDocument manager)

def userDocumentLoaded (s : App) (manager : FirestoreManager) (response : Response) :
    Option App :=
  match response with
  | .userDocument true => s.userDocumentReady manager true
  | .userDocument false =>
      some (s.call (.setUserDocument manager.currentUserIdentifier) (.userCreated manager))
  | _ => s.userDocumentReady manager false

def setupFirestoreManager (s : App) : App :=
  match s.currentUser with
  | none => s
  | some currentUserIdentifier =>
      let manager : FirestoreManager :=
        ⟨s.nextReference, currentUserIdentifier, some currentUserIdentifier⟩
      { s with remoteStorage := some manager, nextReference := s.nextReference + 1 }.call
        (.getUserDocument currentUserIdentifier) (.userDocumentLoaded manager)

def deleteFirestoreManager (s : App) : App := { s with remoteStorage := none }

/-! ## Callbacks -/

def called (s : App) (callback : Callback) (response : Response) (random : Identifier)
    (now : Date) : Option App :=
  match callback with
  | .userDocumentLoaded manager => s.userDocumentLoaded manager response
  | .userCreated manager =>
      s.userDocumentReady manager (FirestoreManager.writeResult response)
  | .favoritesFetched migration =>
      s.favoritesFetched migration (FirestoreManager.getAllFavoriteProverbsResult response)
  | .favoritesUploaded migration =>
      some (s.migrationCompleted migration.user (FirestoreManager.writeResult response))
  | .getAll request =>
      some (s.getAllCompleted request (FirestoreManager.getAllFavoriteProverbsResult response))
  | .isFavorite completion =>
      s.checkCompleted completion (FirestoreManager.isFavoriteResult response) random now
  | .save request identifiers proverb =>
      some (s.saveCompleted request identifiers
        ((FirestoreManager.saveResult proverb response).map Proverb.fFavorite))
  | .getFavorite request identifiers =>
      some (s.favoriteFound request identifiers (FirestoreManager.getFavoriteResult response))
  | .delete request identifiers =>
      some (s.deleteCompleted request identifiers (FirestoreManager.deleteResult response))

end App

end Proverbs
