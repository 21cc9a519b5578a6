import Proverbs.Managers.Firebase.Firestore

/-! # FirestoreManager

Each method either sends one operation to Firestore or, when its guard fails,
answers its completion at once. How the later response of a sent operation is
turned into the completion's argument is the method's `...Result` function.
-/

namespace Proverbs

inductive FavoriteProverbsManagerError where
  | undefined
  | maxLimit (limit : Nat)
  | isFavorite
  | isNotFavorite
deriving DecidableEq, Repr

/-- The errors a completion can be given: the manager's own, `UndefinedError`,
and whatever Firestore reports. -/
inductive AppError where
  | manager (error : FavoriteProverbsManagerError)
  | undefinedError
  | firestore
deriving DecidableEq, Repr

/-- What a method of `FirestoreManager` does with its completion. -/
inductive Request (α : Type) where
  | sent (operation : Operation)
  | answered (result : α)

/-- An instance of the class. `reference` is its identity: closures hold the
instance that created them, also after `remoteStorage` has been replaced. -/
structure FirestoreManager where
  reference : Nat
  currentUserIdentifier : UserIdentifier
  userDocument : Option UserIdentifier
deriving DecidableEq, Repr

namespace FirestoreManager

/-- A favourites collection is named by the user whose document it belongs to. -/
def favoritesCollection (manager : FirestoreManager) : Option UserIdentifier :=
  manager.userDocument

/-! ## The methods -/

def getAllFavoriteProverbs (manager : FirestoreManager) :
    Request (Except AppError (List FFavoriteProverb)) :=
  match manager.favoritesCollection with
  | none => .answered (.error .undefinedError)
  | some collection => .sent (.getDocuments collection)

def getFavorite (manager : FirestoreManager) (identifier : Identifier) :
    Request (Except AppError FFavoriteProverb) :=
  match manager.favoritesCollection with
  | none => .answered (.error .undefinedError)
  | some collection => .sent (.whereOriginIdentifier collection identifier)

def saveAll (manager : FirestoreManager) (proverbs : List FFavoriteProverb) : Request Bool :=
  match manager.favoritesCollection with
  | none => .answered false
  | some collection =>
      if proverbs.length = 0 then .answered true else .sent (.commit collection proverbs)

def save (manager : FirestoreManager) (proverb : FFavoriteProverb) :
    Request (Except AppError FFavoriteProverb) :=
  match manager.favoritesCollection with
  | none => .answered (.error .undefinedError)
  | some collection => .sent (.setData collection proverb)

/-- Nobody catches the exception of a proverb whose identifier is no path (`none`). Saved are
proverbs under identifiers the app has drawn, which are paths. -/
def delete (manager : FirestoreManager) (proverb : FFavoriteProverb) :
    Option (Request (Option AppError)) :=
  match manager.favoritesCollection with
  | none => some (.answered (some .undefinedError))
  | some collection =>
      if isDocumentPath proverb.identifier then
        some (.sent (.deleteDocument collection proverb.identifier))
      else none

def isFavorite (manager : FirestoreManager) (identifier : Identifier) : Request Bool :=
  match manager.favoritesCollection with
  | none => .answered false
  | some collection => .sent (.whereOriginIdentifier collection identifier)

section Delete

variable {manager : FirestoreManager} {proverb : FFavoriteProverb} {collection : UserIdentifier}

theorem delete_of_path (h : manager.userDocument = some collection)
    (hpath : isDocumentPath proverb.identifier = true) :
    manager.delete proverb = some (.sent (.deleteDocument collection proverb.identifier)) := by
  simp [delete, favoritesCollection, h, hpath]

/-- Only what is no path stops a deletion, and only where there is a collection. -/
theorem delete_isSome_iff :
    (manager.delete proverb).isSome ↔
      (manager.userDocument ≠ none → isDocumentPath proverb.identifier = true) := by
  unfold delete favoritesCollection
  cases manager.userDocument with
  | none => simp
  | some collection => cases isDocumentPath proverb.identifier <;> simp

/-- What is sent is the deletion of one document, and the proverb names it. -/
theorem delete_sent {operation : Operation} (h : manager.delete proverb = some (.sent operation)) :
    ∃ collection, manager.favoritesCollection = some collection ∧
      isDocumentPath proverb.identifier = true ∧
      operation = .deleteDocument collection proverb.identifier := by
  unfold delete at h
  split at h
  · simp at h
  · rename_i collection hcollection
    split at h
    · rename_i hpath
      exact ⟨collection, hcollection, hpath, (Request.sent.inj (Option.some.inj h)).symm⟩
    · simp at h

end Delete

/-! ## What the completions are given -/

def getAllFavoriteProverbsResult : Response → Except AppError (List FFavoriteProverb)
  | .error => .error .firestore
  | .documents documents => .ok (documents.map Document.favorite)
  | _ => .error .undefinedError

def getFavoriteResult : Response → Except AppError FFavoriteProverb
  | .error => .error .firestore
  | .documents (document :: _) => .ok document.favorite
  | _ => .error .undefinedError

/-- `save(proverbs:)` and `createNewUser`: only an error counts as a failure. -/
def writeResult : Response → Bool
  | .error => false
  | _ => true

def saveResult (proverb : FFavoriteProverb) : Response → Except AppError FFavoriteProverb
  | .error => .error .firestore
  | _ => .ok proverb

def deleteResult : Response → Option AppError
  | .error => some .firestore
  | _ => none

def isFavoriteResult : Response → Bool
  | .documents documents => 0 < documents.length
  | _ => false

end FirestoreManager

end Proverbs
