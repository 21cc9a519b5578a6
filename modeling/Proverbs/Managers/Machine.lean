import Proverbs.Core.Transition
import Proverbs.Managers.UserGroup.IAPController

/-! # The app as a machine

One step is one turn of the main thread: an action of the user, an answer of the
App Store, of a sign-in provider or of Firestore. Firestore carries a call out
(`serve`) and the callback runs later (`deliver`); both may happen in any order
with everything else.
-/

namespace Proverbs

inductive Event where
  | launch (signOutThrows : Bool)
  | userManagerStart (signOutThrows : Bool)
  | signIn (option : Login)
  | providerCompleted (attempt : Nat) (option : Login) (credential : Bool)
  | didSignInFor (result : GoogleResult)
  | firebaseAuthenticated (attempt : Nat) (result : AuthResult)
  | signOut (throws : Bool)
  | purchaseCompleted (success : Bool)
  | restoreCompleted (results : RestoreResults)
  | completeTransactions (purchases : List TransactionState)
  | getAll
  | isFavorite (proverb : Proverb)
  | save (proverb : Proverb)
  | delete (proverb : Proverb)
  | checkAndSaveOrDeleteFavorite (proverb : Proverb)
  | serve (index : Nat) (outcome : Outcome)
  | deliver (index : Nat)
  | realmWrites (throw : Bool)
deriving DecidableEq, Repr

/-- An event with the identifier and the time drawn while it is handled. -/
structure Input where
  event : Event
  random : Identifier
  now : Date
deriving DecidableEq, Repr

namespace App

/-- The app on a new device, before its first launch. -/
def installed : App where
  currentUser := none
  isPurchased := false
  firstLaunchFlag := false
  currentPlan := .free
  signIns := []
  googleCompletion := none
  localStorage := ⟨some KeyedStore.empty, .commit⟩
  remoteStorage := none
  firestore := ⟨fun _ => false, fun _ => KeyedStore.empty⟩
  calls := []
  nextReference := 0
  nextRequest := 0
  outputs := []
  aborted := false

/-- A new process: what only lived in memory is gone, and nothing has been handed out. -/
def restarted (s : App) : App :=
  { s with
    currentPlan := .free
    signIns := []
    googleCompletion := none
    localStorage := s.localStorage.reopened
    remoteStorage := none
    calls := []
    outputs := []
    aborted := false }

@[simp] theorem calls_restarted (s : App) : s.restarted.calls = [] := rfl

@[simp] theorem outputs_restarted (s : App) : s.restarted.outputs = [] := rfl

/-- `UserManager.start`, `IAPController.start` (which registers its handler) and
`FavoriteProverbsManager.start`. -/
def launch (s : App) (signOutThrows : Bool) : App :=
  (s.restarted.userManagerStart signOutThrows).setupFirestoreManager

def takeRequest (s : App) : App := { s with nextRequest := s.nextRequest + 1 }

/-- Firestore carries out the call at `index`. -/
def serve (s : App) (index : Nat) (outcome : Outcome) : App :=
  match s.calls[index]? with
  | some ⟨operation, callback, none⟩ =>
      let (firestore, response) := s.firestore.serve operation outcome
      { s with
        firestore := firestore
        calls := s.calls.set index ⟨operation, callback, some response⟩ }
  | _ => s

/-- The main thread runs the callback of the call at `index`, if it was served. -/
def deliver (s : App) (index : Nat) (random : Identifier) (now : Date) : Option App :=
  match s.calls[index]? with
  | some ⟨_, callback, some response⟩ =>
      { s with calls := s.calls.eraseIdx index }.called callback response random now
  | _ => some s

def step (s : App) (input : Input) : Option App :=
  match input.event with
  | .launch throws => some (s.launch throws)
  | .userManagerStart throws => some (s.userManagerStart throws)
  | .signIn option => some (s.takeRequest.signIn option s.nextRequest)
  | .providerCompleted attempt option credential =>
      some (s.providerCompleted attempt option credential)
  | .didSignInFor result => s.didSignInFor result
  | .firebaseAuthenticated attempt result => some (s.firebaseAuthenticated attempt result)
  | .signOut throws =>
      let (s, result) := s.signOut throws
      some (s.output (.signedOut result))
  | .purchaseCompleted success => some (s.purchaseCompleted success)
  | .restoreCompleted results => some (s.restoreCompleted results)
  | .completeTransactions purchases => some (s.completeTransactions purchases)
  | .getAll => some (s.takeRequest.getAll s.nextRequest)
  | .isFavorite proverb =>
      s.takeRequest.isFavorite proverb (.answer s.nextRequest) input.random input.now
  | .save proverb => s.takeRequest.save proverb s.nextRequest input.random input.now
  | .delete proverb => s.takeRequest.delete proverb s.nextRequest
  | .checkAndSaveOrDeleteFavorite proverb =>
      s.takeRequest.isFavorite proverb (.checkAndSaveOrDelete s.nextRequest proverb)
        input.random input.now
  | .serve index outcome => some (s.serve index outcome)
  | .deliver index => s.deliver index input.random input.now
  | .realmWrites throw => some { s with localStorage := s.localStorage.setThrows throw }

end App

end Proverbs
