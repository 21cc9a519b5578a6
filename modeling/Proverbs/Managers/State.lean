import Proverbs.Managers.Firebase.FirestoreManager

/-! # The state of the app

What the singletons `UserManager`, `IAPController` and `FavoriteProverbsManager`
hold, the persistent stores behind them, and the Firestore calls in flight. A
closure handed to an asynchronous call is a constructor of `Callback` with the
variables it captured; `App.called` (in `FavoriteProverbsManager`) is its body.
-/

namespace Proverbs

inductive Plan where
  | free
  | paid
  | paidRegistered
deriving DecidableEq, Repr

inductive Login where
  | facebook
  | twitter
  | google
deriving DecidableEq, Repr

/-- How far an accepted sign-in attempt has come: its provider's dialog is open,
or Firebase has been given the credential. -/
inductive SignInStage where
  | provider (option : Login)
  | firebaseAuth
deriving DecidableEq, Repr

structure SignIn where
  attempt : Nat
  stage : SignInStage
deriving DecidableEq, Repr

structure ProverbIdentifiers where
  favoriteIdentifier : Option Identifier
  originIdentifier : Identifier
deriving DecidableEq, Repr

/-- One run of `setupFirestoreManager` past its user document: the user it was
started for and the local favourites it found. -/
structure Migration where
  user : UserIdentifier
  localProverbs : List RFavoriteProverb
deriving DecidableEq, Repr

inductive CheckCompletion where
  | answer (request : Nat)
  | checkAndSaveOrDelete (request : Nat) (proverb : Proverb)
deriving DecidableEq, Repr

inductive Callback where
  | userDocumentLoaded (manager : FirestoreManager)
  | userCreated (manager : FirestoreManager)
  | favoritesFetched (migration : Migration)
  | favoritesUploaded (migration : Migration)
  | getAll (request : Nat)
  | isFavorite (completion : CheckCompletion)
  | save (request : Nat) (identifiers : ProverbIdentifiers) (proverb : FFavoriteProverb)
  | getFavorite (request : Nat) (identifiers : ProverbIdentifiers)
  | delete (request : Nat) (identifiers : ProverbIdentifiers)
deriving DecidableEq, Repr

/-- A call in flight; once Firestore has carried it out its response is fixed and
waits for the main thread. -/
structure Call where
  operation : Operation
  callback : Callback
  response : Option Response
deriving DecidableEq, Repr

/-- What the app hands out, in order: answers to completions and notifications.
`saveCalled` and `migrated` record, for the statements below, the circumstances
of a `save` and of a `deleteAll`. -/
inductive Output where
  | checked (request : Nat) (result : Bool)
  | saved (request : Nat) (result : Except AppError Proverb)
  | deleted (request : Nat) (error : Option AppError)
  | gotAll (request : Nat) (result : Except AppError (List Proverb))
  | didSave (identifiers : ProverbIdentifiers)
  | didDelete (identifiers : ProverbIdentifiers)
  | signedIn (attempt : Nat) (result : Bool)
  | signedOut (result : Bool)
  | purchased (result : Bool)
  | restored (result : Bool)
  | saveCalled (request : Nat) (isPurchased : Bool) (stored : Nat)
  | migrated (user : UserIdentifier) (erased : List RFavoriteProverb)
deriving DecidableEq

structure App where
  currentUser : Option UserIdentifier
  isPurchased : Bool
  /-- The user defaults flag of `logoutAtFirstLaunch`. -/
  firstLaunchFlag : Bool
  currentPlan : Plan
  signIns : List SignIn
  /-- The attempt whose closure is in `googleCompletion`. -/
  googleCompletion : Option Nat
  localStorage : LocalStorage RFavoriteProverb
  remoteStorage : Option FirestoreManager
  firestore : Firestore
  calls : List Call
  /-- Fresh object identities and request numbers. -/
  nextReference : Nat
  nextRequest : Nat
  outputs : List Output
  /-- Firestore has raised an exception, and the process is over. -/
  aborted : Bool

namespace App

def isSignedIn (s : App) : Bool := s.currentUser.isSome

def output (s : App) (o : Output) : App := { s with outputs := s.outputs ++ [o] }

def call (s : App) (operation : Operation) (callback : Callback) : App :=
  { s with calls := s.calls ++ [⟨operation, callback, none⟩] }

/-- Firestore raises an exception that nobody catches. -/
def abort (s : App) : App := { s with aborted := true }

def remoteCollection (s : App) : Option UserIdentifier :=
  s.remoteStorage.bind FirestoreManager.favoritesCollection

end App

end Proverbs
