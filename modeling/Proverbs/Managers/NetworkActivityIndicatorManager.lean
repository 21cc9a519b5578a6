import Proverbs.Managers.State

/-! # NetworkActivityIndicatorManager

The counter, and the managers that start and finish counted operations around their
SDK calls. What a call brings does not matter here, only which further call its
callback makes and whether it finishes an operation. A sign-in with Facebook or
Twitter is finished before Firebase is asked, one with Google after it.
-/

namespace Proverbs

/-! ## The counter -/

/-- The class's `loadingCount`, and `isNetworkActivityIndicatorVisible`. -/
structure NetworkIndicator where
  loadingCount : Nat
  isVisible : Bool
deriving DecidableEq, Repr

namespace NetworkIndicator

def networkOperationStarted (indicator : NetworkIndicator) : NetworkIndicator where
  loadingCount := indicator.loadingCount + 1
  isVisible := if indicator.loadingCount = 0 then true else indicator.isVisible

def networkOperationFinished (indicator : NetworkIndicator) : NetworkIndicator :=
  let loadingCount :=
    if 0 < indicator.loadingCount then indicator.loadingCount - 1 else indicator.loadingCount
  { loadingCount := loadingCount
    isVisible := if loadingCount = 0 then false else indicator.isVisible }

/-- The count is right, and the indicator visible while it is positive. -/
structure Shows (count : Nat) (indicator : NetworkIndicator) : Prop where
  loadingCount : indicator.loadingCount = count
  isVisible : indicator.isVisible = true ↔ 0 < count

variable {indicator : NetworkIndicator} {count : Nat}

theorem Shows.started (h : Shows count indicator) :
    Shows (count + 1) indicator.networkOperationStarted := by
  constructor
  · rw [networkOperationStarted, h.loadingCount]
  · have hvisible := h.isVisible
    simp only [networkOperationStarted, h.loadingCount]
    by_cases hzero : count = 0
    · simp [hzero]
    · rw [if_neg hzero, hvisible]
      omega

theorem Shows.finished (h : Shows (count + 1) indicator) :
    Shows count indicator.networkOperationFinished := by
  have hvisible : indicator.isVisible = true := h.isVisible.mpr (Nat.succ_pos count)
  simp only [networkOperationFinished, h.loadingCount, Nat.succ_pos, if_true, Nat.add_sub_cancel]
  constructor
  · rfl
  · simp only [hvisible]
    by_cases hzero : count = 0
    · simp [hzero]
    · simp only [hzero, if_false, true_iff]
      omega

theorem Shows.unique {other : Nat} (h : Shows count indicator) (h' : Shows other indicator) :
    count = other := h.loadingCount.symm.trans h'.loadingCount

end NetworkIndicator

/-! ## SDK calls -/

/-- A call of an SDK that has not called back yet. -/
inductive SDKCall where
  | firestore (operation : Operation)
  | purchaseProduct
  | restorePurchases
  | facebookLogIn
  | graphRequest
  | twitterLogIn
  /-- `GIDSignIn.signIn`, until `didSignInFor`. -/
  | googleSignIn
  /-- `Auth.signIn` with the closure of a Google sign-in, or with another one. -/
  | firebaseAuth (google : Bool)
deriving DecidableEq, Repr

/-- What a callback is given, as far as the app looks: for the user document `success`
is a snapshot with data and `nothing` one without; for Google `nothing` is neither an
error nor an authentication. -/
inductive SDKReply where
  | success
  | error
  | nothing
deriving DecidableEq, Repr

structure NetworkActivity where
  indicator : NetworkIndicator
  outstanding : List SDKCall
  googleCompletion : Bool
deriving DecidableEq, Repr

namespace NetworkActivity

def launched : NetworkActivity := ⟨⟨0, false⟩, [], false⟩

def networkOperationStarted (s : NetworkActivity) : NetworkActivity :=
  { s with indicator := s.indicator.networkOperationStarted }

def networkOperationFinished (s : NetworkActivity) : NetworkActivity :=
  { s with indicator := s.indicator.networkOperationFinished }

def send (s : NetworkActivity) (call : SDKCall) : NetworkActivity :=
  { s with outstanding := s.outstanding ++ [call] }

/-! ## FirestoreManager -/

/-- A method past its guard starts an operation; one that answers at once does not. -/
def request {α : Type} (s : NetworkActivity) : Request α → NetworkActivity
  | .sent operation => s.networkOperationStarted.send (.firestore operation)
  | .answered _ => s

def loadOrCreateUserDocument (s : NetworkActivity) (manager : FirestoreManager) :
    NetworkActivity :=
  s.networkOperationStarted.send (.firestore (.getUserDocument manager.currentUserIdentifier))

def getAllFavoriteProverbs (s : NetworkActivity) (manager : FirestoreManager) : NetworkActivity :=
  s.request manager.getAllFavoriteProverbs

def getFavorite (s : NetworkActivity) (manager : FirestoreManager) (identifier : Identifier) :
    NetworkActivity :=
  s.request (manager.getFavorite identifier)

def saveAll (s : NetworkActivity) (manager : FirestoreManager)
    (proverbs : List FFavoriteProverb) : NetworkActivity :=
  s.request (manager.saveAll proverbs)

def save (s : NetworkActivity) (manager : FirestoreManager) (proverb : FFavoriteProverb) :
    NetworkActivity :=
  s.request (manager.save proverb)

/-- Where `document(_:)` raises, the process ends. -/
def delete (s : NetworkActivity) (manager : FirestoreManager) (proverb : FFavoriteProverb) :
    Option NetworkActivity :=
  (manager.delete proverb).map s.request

def isFavorite (s : NetworkActivity) (manager : FirestoreManager) (identifier : Identifier) :
    NetworkActivity :=
  s.request (manager.isFavorite identifier)

/-- The closures of the methods: all finish, except that a user document without data
is created first. -/
def firestoreCalledBack (s : NetworkActivity) (operation : Operation) (reply : SDKReply) :
    NetworkActivity :=
  match operation, reply with
  | .getUserDocument user, .nothing => s.send (.firestore (.setUserDocument user))
  | _, _ => s.networkOperationFinished

/-! ## IAPController -/

def purchase (s : NetworkActivity) : NetworkActivity :=
  s.networkOperationStarted.send .purchaseProduct

/-- `restorePurchases` of SwiftyStoreKit returns at once while a restore is pending. -/
def restore (s : NetworkActivity) : NetworkActivity :=
  let s := s.networkOperationStarted
  if .restorePurchases ∈ s.outstanding then s else s.send .restorePurchases

/-! ## UserManager -/

def signIn (s : NetworkActivity) (option : Login) (canSignIn : Bool) : NetworkActivity :=
  if !canSignIn then s
  else
    let s := s.networkOperationStarted
    match option with
    | .facebook => s.send .facebookLogIn
    | .twitter => s.send .twitterLogIn
    | .google => { s with googleCompletion := true }.send .googleSignIn

def internalCompletion (s : NetworkActivity) (authCredentials : Bool) : NetworkActivity :=
  let s := s.networkOperationFinished
  if authCredentials then s.send (.firebaseAuth false) else s

/-- `sign(_:didSignInFor:withError:)`; the closure in the slot finishes its operation
when it is called. -/
def didSignInFor (s : NetworkActivity) (reply : SDKReply) : Option NetworkActivity :=
  match reply, s.googleCompletion with
  | .success, false => none
  | .success, true => some { s.send (.firebaseAuth true) with googleCompletion := false }
  | _, true => some { s.networkOperationFinished with googleCompletion := false }
  | _, false => some s

def calledBack (s : NetworkActivity) (call : SDKCall) (reply : SDKReply) :
    Option NetworkActivity :=
  match call with
  | .firestore operation => some (s.firestoreCalledBack operation reply)
  | .purchaseProduct | .restorePurchases => some s.networkOperationFinished
  | .facebookLogIn =>
      if reply = .success then some (s.send .graphRequest) else some (s.internalCompletion false)
  | .graphRequest | .twitterLogIn => some (s.internalCompletion (reply = .success))
  | .googleSignIn => s.didSignInFor reply
  | .firebaseAuth google => some (if google then s.networkOperationFinished else s)

/-! ## The machine -/

inductive Event where
  | loadOrCreateUserDocument (manager : FirestoreManager)
  | getAllFavoriteProverbs (manager : FirestoreManager)
  | getFavorite (manager : FirestoreManager) (identifier : Identifier)
  | saveAll (manager : FirestoreManager) (proverbs : List FFavoriteProverb)
  | save (manager : FirestoreManager) (proverb : FFavoriteProverb)
  | delete (manager : FirestoreManager) (proverb : FFavoriteProverb)
  | isFavorite (manager : FirestoreManager) (identifier : Identifier)
  | purchase
  | restore
  | signIn (option : Login) (canSignIn : Bool)
  | callback (index : Nat) (reply : SDKReply)
deriving DecidableEq, Repr

def step (s : NetworkActivity) : Event → Option NetworkActivity
  | .loadOrCreateUserDocument manager => some (s.loadOrCreateUserDocument manager)
  | .getAllFavoriteProverbs manager => some (s.getAllFavoriteProverbs manager)
  | .getFavorite manager identifier => some (s.getFavorite manager identifier)
  | .saveAll manager proverbs => some (s.saveAll manager proverbs)
  | .save manager proverb => some (s.save manager proverb)
  | .delete manager proverb => s.delete manager proverb
  | .isFavorite manager identifier => some (s.isFavorite manager identifier)
  | .purchase => some s.purchase
  | .restore => some s.restore
  | .signIn option canSignIn => some (s.signIn option canSignIn)
  | .callback index reply =>
      match s.outstanding[index]? with
      | some call => { s with outstanding := s.outstanding.eraseIdx index }.calledBack call reply
      | none => some s

end NetworkActivity

end Proverbs
