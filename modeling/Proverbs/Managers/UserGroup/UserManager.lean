import Proverbs.Managers.FavoriteProverbsManager

/-! # UserManager

Sign-in, sign-out and the cached plan. Firebase's change of the current user and
the callback that reports it are one step. The notifications `DidSignIn` and
`WillSignOut` are observed by `FavoriteProverbsManager`, synchronously.
-/

namespace Proverbs

/-- What `Auth.auth().signIn(with:)` reports. -/
inductive AuthResult where
  | user (identifier : UserIdentifier)
  | error
  | nothing
deriving DecidableEq, Repr

/-- What Google's delegate callback is given. -/
inductive GoogleResult where
  | error
  | authentication
  | nothing
deriving DecidableEq, Repr

namespace App

def updateCurrentPlan (s : App) : App :=
  { s with
    currentPlan :=
      if s.isSignedIn && s.isPurchased then .paidRegistered
      else if s.isPurchased then .paid
      else .free }

/-! ## Sign-out -/

/-- The state after `signOut` and the `Bool` its completion is given. -/
def signOut (s : App) (throws : Bool) : App × Bool :=
  let s := s.deleteFirestoreManager
  if throws then (s, false)
  else ({ s with currentUser := none }.updateCurrentPlan, true)

def logoutAtFirstLaunch (s : App) (throws : Bool) : App :=
  if s.firstLaunchFlag then s else { (s.signOut throws).1 with firstLaunchFlag := true }

def userManagerStart (s : App) (throws : Bool) : App :=
  (s.logoutAtFirstLaunch throws).updateCurrentPlan

/-! ## Sign-in -/

def canSignIn (s : App) : Bool := s.isPurchased

/-- The sign-in attempt waits for its provider; Google's closure is stored in the
one slot `googleCompletion`. -/
def signIn (s : App) (option : Login) (attempt : Nat) : App :=
  if !s.canSignIn then s.output (.signedIn attempt false)
  else
    match option with
    | .google => { s with googleCompletion := some attempt }
    | option => { s with signIns := s.signIns ++ [⟨attempt, .provider option⟩] }

/-- The closure around every end of an attempt: the plan is refreshed, the answer
given and, on success, `DidSignIn` posted. -/
def signInCompleted (s : App) (attempt : Nat) (result : Bool) : App :=
  let s := s.updateCurrentPlan.output (.signedIn attempt result)
  if result then s.setupFirestoreManager else s

def firebaseAuth (s : App) (attempt : Nat) : App :=
  { s with signIns := s.signIns ++ [⟨attempt, .firebaseAuth⟩] }

/-- `internalCompletion`, once Facebook or Twitter is done. -/
def providerCompleted (s : App) (attempt : Nat) (option : Login) (credential : Bool) : App :=
  if ⟨attempt, .provider option⟩ ∈ s.signIns then
    let s := { s with signIns := s.signIns.erase ⟨attempt, .provider option⟩ }
    if credential then s.firebaseAuth attempt else s.signInCompleted attempt false
  else s

/-- `sign(_:didSignInFor:withError:)`; the credential branch unwraps the slot. -/
def didSignInFor (s : App) (result : GoogleResult) : Option App :=
  match result, s.googleCompletion with
  | .authentication, none => none
  | .authentication, some attempt =>
      some { s.firebaseAuth attempt with googleCompletion := none }
  | _, none => some s
  | _, some attempt =>
      some { s.signInCompleted attempt false with googleCompletion := none }

def firebaseAuthenticated (s : App) (attempt : Nat) (result : AuthResult) : App :=
  if ⟨attempt, .firebaseAuth⟩ ∈ s.signIns then
    let s := { s with signIns := s.signIns.erase ⟨attempt, .firebaseAuth⟩ }
    match result with
    | .user identifier => { s with currentUser := some identifier }.signInCompleted attempt true
    | _ => s.signInCompleted attempt false
  else s

end App

end Proverbs
