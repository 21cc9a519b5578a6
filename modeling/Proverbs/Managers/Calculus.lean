import Proverbs.Core.InFlight
import Proverbs.Managers.Machine

/-! # Frames of the app's functions

What the favourites functions leave alone: the signed-in user, the purchase flag,
the cached plan and the sign-ins under way, and whom `remoteStorage` was created
for. Only `UserManager`, `IAPController` and the setup of a Firestore manager
change any of it. They in turn, and the requests to Firestore, leave the local
storage alone.
-/

namespace Proverbs.App

/-! ## Pending calls -/

section Calls

variable {s : App} {operation : Operation} {callback : Callback}

@[simp] theorem calls_call :
    (s.call operation callback).calls = s.calls ++ [⟨operation, callback, none⟩] := rfl

theorem callbacks_serve (s : App) (index : Nat) (outcome : Outcome) :
    (s.serve index outcome).calls.map Call.callback = s.calls.map Call.callback := by
  unfold serve
  split
  · rename_i operation callback hcall
    exact InFlight.map_set_of_eq Call.callback hcall rfl
  · rfl

/-- The call just sent is served and delivered before anything else happens. -/
theorem deliver_serve_call (outcome : Outcome) (random : Identifier) (now : Date) :
    ((s.call operation callback).serve s.calls.length outcome).deliver s.calls.length random now =
      { s with firestore := (s.firestore.serve operation outcome).1 }.called callback
        (s.firestore.serve operation outcome).2 random now := by
  have hserve : (s.call operation callback).serve s.calls.length outcome =
      { s with
        firestore := (s.firestore.serve operation outcome).1
        calls := s.calls ++
          [⟨operation, callback, some (s.firestore.serve operation outcome).2⟩] } := by
    simp [serve, call]
  rw [hserve]
  simp [deliver, List.eraseIdx_append_of_length_le]

end Calls

/-- Serve and deliver whatever is pending from `index` on, one call at a time,
with the outcomes given: nothing else happens in between. -/
def settle (outcome : Operation → Outcome) (random : Identifier) (now : Date) (index : Nat) :
    Nat → App → Option App
  | 0, s => some s
  | fuel + 1, s =>
      match s.calls[index]? with
      | none => some s
      | some call =>
          ((s.serve index (outcome call.operation)).deliver index random now).bind
            (settle outcome random now index fuel)

section Settle

variable {outcome : Operation → Outcome} {random : Identifier} {now : Date} {s : App}

theorem settle_of_settled (fuel : Nat) {index : Nat} (h : s.calls.length ≤ index) :
    settle outcome random now index fuel s = some s := by
  cases fuel with
  | zero => rfl
  | succ fuel => simp [settle, List.getElem?_eq_none h]

theorem settle_call (fuel : Nat) (operation : Operation) (callback : Callback) :
    settle outcome random now s.calls.length (fuel + 1) (s.call operation callback) =
      ({ s with firestore := (s.firestore.serve operation (outcome operation)).1 }.called callback
        (s.firestore.serve operation (outcome operation)).2 random now).bind
        (settle outcome random now s.calls.length fuel) := by
  have hget : (s.call operation callback).calls[s.calls.length]? =
      some ⟨operation, callback, none⟩ := by simp
  simp only [settle, hget]
  rw [deliver_serve_call]

theorem settle_add (m n : Nat) {index : Nat} (s : App) :
    settle outcome random now index (m + n) s =
      (settle outcome random now index m s).bind (settle outcome random now index n) := by
  induction m generalizing s with
  | zero => simp [settle]
  | succ m ih =>
      rw [Nat.succ_add]
      simp only [settle]
      cases hc : s.calls[index]? with
      | none =>
          rw [Option.bind_some]
          exact (settle_of_settled n (List.getElem?_eq_none_iff.mp hc)).symm
      | some call =>
          rw [Option.bind_assoc]
          exact Option.bind_congr fun t _ => ih t

end Settle

/-! ## The account frame -/

/-- The part of the state that belongs to the account and the purchase. -/
structure Account where
  currentUser : Option UserIdentifier
  isPurchased : Bool
  firstLaunchFlag : Bool
  currentPlan : Plan
  signIns : List SignIn
  googleCompletion : Option Nat
  remoteUser : Option UserIdentifier

def remoteUser (s : App) : Option UserIdentifier :=
  s.remoteStorage.map FirestoreManager.currentUserIdentifier

def account (s : App) : Account where
  currentUser := s.currentUser
  isPurchased := s.isPurchased
  firstLaunchFlag := s.firstLaunchFlag
  currentPlan := s.currentPlan
  signIns := s.signIns
  googleCompletion := s.googleCompletion
  remoteUser := s.remoteUser

section Account

variable {s s' : App} {random : Identifier} {now : Date}

@[simp] theorem account_output (o : Output) : (s.output o).account = s.account := rfl

@[simp] theorem account_call (operation : Operation) (callback : Callback) :
    (s.call operation callback).account = s.account := rfl

@[simp] theorem account_takeRequest : s.takeRequest.account = s.account := rfl

@[simp] theorem account_saveCompleted (request : Nat) (identifiers : ProverbIdentifiers)
    (result : Except AppError Proverb) :
    (s.saveCompleted request identifiers result).account = s.account := by
  cases result <;> simp [saveCompleted]

@[simp] theorem account_deleteCompleted (request : Nat) (identifiers : ProverbIdentifiers)
    (error : Option AppError) :
    (s.deleteCompleted request identifiers error).account = s.account := by
  cases error <;> simp [deleteCompleted]

@[simp] theorem account_getAllCompleted (request : Nat)
    (result : Except AppError (List FFavoriteProverb)) :
    (s.getAllCompleted request result).account = s.account := rfl

@[simp] theorem account_checkAndSaveLocal (proverb : Proverb) :
    (s.checkAndSaveLocal proverb random now).1.account = s.account := by
  cases proverb with
  | rProverb proverb =>
      simp only [checkAndSaveLocal]
      split
      · rfl
      · split <;> rfl
  | rFavorite => rfl
  | fFavorite => rfl

theorem account_checkAndDeleteLocal {proverb : Proverb} {error : Option AppError}
    (h : s.checkAndDeleteLocal proverb = some (s', error)) : s'.account = s.account := by
  have hlocal : ∀ f t e, s.deleteLocal f = some (t, e) → t.account = s.account := by
    intro f t e ht
    obtain ⟨⟨storage, done⟩, _, hp⟩ := Option.map_eq_some_iff.mp ht
    simp only [Prod.mk.injEq] at hp
    rw [← hp.1]
    rfl
  cases proverb with
  | rProverb proverb =>
      simp only [checkAndDeleteLocal] at h
      split at h
      · exact hlocal _ _ _ h
      · simp only [Option.some.injEq, Prod.mk.injEq] at h
        rw [h.1]
  | rFavorite proverb => exact hlocal _ _ _ h
  | fFavorite proverb =>
      simp only [checkAndDeleteLocal, Option.some.injEq, Prod.mk.injEq] at h
      rw [h.1]

/-- A favourite that has been read is deleted through a reference of its own. -/
theorem deleteLocal_isSome (s : App) (proverb : RFavoriteProverb) :
    (s.deleteLocal proverb).isSome := by
  simp [deleteLocal, LocalStorage.delete_of_hasRealm]

@[simp] theorem account_chackAndSaveRemote (proverb : Proverb) (request : Nat)
    (identifiers : ProverbIdentifiers) :
    (s.chackAndSaveRemote proverb request identifiers random now).account = s.account := by
  cases proverb with
  | rProverb proverb =>
      simp only [chackAndSaveRemote]
      split
      · simp
      · split <;> simp
  | rFavorite => simp [chackAndSaveRemote]
  | fFavorite => simp [chackAndSaveRemote]

@[simp] theorem account_deleteRemote (request : Nat) (identifiers : ProverbIdentifiers)
    (proverb : FFavoriteProverb) :
    (s.deleteRemote request identifiers proverb).account = s.account := by
  unfold deleteRemote
  split
  · simp
  · split
    · rfl
    · simp
    · simp

@[simp] theorem account_favoriteFound (request : Nat) (identifiers : ProverbIdentifiers)
    (result : Except AppError FFavoriteProverb) :
    (s.favoriteFound request identifiers result).account = s.account := by
  cases result <;> simp [favoriteFound]

@[simp] theorem account_checkAndDeleteRemote (proverb : Proverb) (request : Nat)
    (identifiers : ProverbIdentifiers) :
    (s.checkAndDeleteRemote proverb request identifiers).account = s.account := by
  cases proverb with
  | rProverb proverb =>
      simp only [checkAndDeleteRemote]
      split
      · rfl
      · split <;> simp
  | rFavorite => simp [checkAndDeleteRemote]
  | fFavorite => simp [checkAndDeleteRemote]

@[simp] theorem account_getAll (request : Nat) : (s.getAll request).account = s.account := by
  unfold getAll
  split
  · split <;> simp
  · split
    · simp
    · split <;> simp

theorem account_save {proverb : Proverb} {request : Nat}
    (h : s.save proverb request random now = some s') : s'.account = s.account := by
  simp only [save] at h
  split at h
  · split at h
    · rw [← Option.some.inj h]
      simp
    · rw [← Option.some.inj h]
      simp
  · simp at h

theorem account_delete {proverb : Proverb} {request : Nat}
    (h : s.delete proverb request = some s') : s'.account = s.account := by
  unfold delete at h
  split at h
  · split at h
    · obtain ⟨⟨t, error⟩, ht, rfl⟩ := Option.map_eq_some_iff.mp h
      simp [account_checkAndDeleteLocal ht]
    · rw [← Option.some.inj h]
      simp
  · simp at h

theorem account_checkCompleted {completion : CheckCompletion} {result : Bool}
    (h : s.checkCompleted completion result random now = some s') : s'.account = s.account := by
  cases completion with
  | answer request =>
      rw [← Option.some.inj h]
      rfl
  | checkAndSaveOrDelete request proverb =>
      simp only [checkCompleted] at h
      split at h
      · exact account_delete h
      · exact account_save h

theorem account_isFavorite {proverb : Proverb} {completion : CheckCompletion}
    (h : s.isFavorite proverb completion random now = some s') : s'.account = s.account := by
  unfold isFavorite at h
  split at h
  · exact account_checkCompleted h
  · cases proverb with
    | rProverb proverb =>
        simp only [isFavoriteRemote] at h
        split at h
        · exact account_checkCompleted h
        · split at h
          · rw [← Option.some.inj h]
            simp
          · exact account_checkCompleted h
    | rFavorite => exact account_checkCompleted h
    | fFavorite => exact account_checkCompleted h

@[simp] theorem account_migrationCompleted (user : UserIdentifier) (result : Bool) :
    (s.migrationCompleted user result).account = s.account := rfl

theorem account_saveToRemoteStorage {migration : Migration} {proverbs : List RFavoriteProverb}
    (h : s.saveToRemoteStorage migration proverbs = some s') : s'.account = s.account := by
  unfold saveToRemoteStorage at h
  split at h
  · rw [← Option.some.inj h]
    simp
  · split at h
    · split at h
      all_goals
        rw [← Option.some.inj h]
        simp
    · simp at h

theorem account_favoritesFetched {migration : Migration}
    {result : Except AppError (List FFavoriteProverb)}
    (h : s.favoritesFetched migration result = some s') : s'.account = s.account := by
  cases result with
  | error => exact account_saveToRemoteStorage h
  | ok favorites =>
      simp only [favoritesFetched] at h
      split at h
      · split at h
        · split at h
          · exact account_saveToRemoteStorage h
          · rw [← Option.some.inj h]
            simp
        · simp at h
      · exact account_saveToRemoteStorage h

theorem account_checkAndMigrate {user : UserIdentifier}
    (h : s.checkAndMigrateLocalFavoriteProverbs user = some s') : s'.account = s.account := by
  unfold checkAndMigrateLocalFavoriteProverbs at h
  split at h
  · rw [← Option.some.inj h]
    simp
  · split at h
    · split at h
      · rw [← Option.some.inj h]
        simp
      · split at h
        · rw [← Option.some.inj h]
          simp
        · exact account_favoritesFetched h
    · rw [← Option.some.inj h]
      simp

@[simp] theorem account_dropUserDocument (manager : FirestoreManager) :
    (s.dropUserDocument manager).account = s.account := by
  cases h : s.remoteStorage with
  | none => simp [dropUserDocument, account, remoteUser, h]
  | some remoteStorage =>
      by_cases hr : remoteStorage.reference = manager.reference <;>
        simp [dropUserDocument, account, remoteUser, h, hr]

theorem account_userDocumentReady {manager : FirestoreManager} {result : Bool}
    (h : s.userDocumentReady manager result = some s') : s'.account = s.account := by
  unfold userDocumentReady at h
  split at h
  · exact account_checkAndMigrate h
  · rw [← Option.some.inj h]
    simp

theorem account_called {callback : Callback} {response : Response}
    (h : s.called callback response random now = some s') : s'.account = s.account := by
  cases callback with
  | userDocumentLoaded manager =>
      simp only [called, userDocumentLoaded] at h
      split at h
      · exact account_userDocumentReady h
      · rw [← Option.some.inj h]
        simp
      · exact account_userDocumentReady h
  | userCreated manager => exact account_userDocumentReady h
  | favoritesFetched migration => exact account_favoritesFetched h
  | isFavorite completion => exact account_checkCompleted h
  | _ =>
      rw [← Option.some.inj h]
      simp

theorem account_deliver {index : Nat} (h : s.deliver index random now = some s') :
    s'.account = s.account := by
  unfold deliver at h
  split at h
  · exact (account_called h).trans rfl
  · rw [← Option.some.inj h]

@[simp] theorem account_serve (index : Nat) (outcome : Outcome) :
    (s.serve index outcome).account = s.account := by
  unfold serve
  split <;> rfl

end Account

/-! ## The local storage -/

section Storage

theorem localStorage_saveCompleted (s : App) (request : Nat) (ids : ProverbIdentifiers)
    (result : Except AppError Proverb) :
    (s.saveCompleted request ids result).localStorage = s.localStorage := by
  cases result <;> rfl

@[simp] theorem localStorage_deleteCompleted (s : App) (request : Nat)
    (ids : ProverbIdentifiers) (error : Option AppError) :
    (s.deleteCompleted request ids error).localStorage = s.localStorage := by
  cases error <;> rfl

@[simp] theorem localStorage_chackAndSaveRemote (s : App) (proverb : Proverb) (request : Nat)
    (ids : ProverbIdentifiers) (random : Identifier) (now : Date) :
    (s.chackAndSaveRemote proverb request ids random now).localStorage = s.localStorage := by
  cases proverb with
  | rProverb proverb =>
      simp only [chackAndSaveRemote]
      split
      · rfl
      · split
        · rfl
        · exact localStorage_saveCompleted s request ids _
  | rFavorite => rfl
  | fFavorite => rfl

@[simp] theorem localStorage_deleteRemote (s : App) (request : Nat) (ids : ProverbIdentifiers)
    (proverb : FFavoriteProverb) :
    (s.deleteRemote request ids proverb).localStorage = s.localStorage := by
  unfold deleteRemote
  split
  · rfl
  · split
    · rfl
    · rfl
    · exact localStorage_deleteCompleted s request ids _

@[simp] theorem localStorage_favoriteFound (s : App) (request : Nat) (ids : ProverbIdentifiers)
    (result : Except AppError FFavoriteProverb) :
    (s.favoriteFound request ids result).localStorage = s.localStorage := by
  cases result with
  | ok proverb => exact localStorage_deleteRemote s request ids proverb
  | error error => rfl

@[simp] theorem localStorage_checkAndDeleteRemote (s : App) (proverb : Proverb) (request : Nat)
    (ids : ProverbIdentifiers) :
    (s.checkAndDeleteRemote proverb request ids).localStorage = s.localStorage := by
  cases proverb with
  | rProverb proverb =>
      simp only [checkAndDeleteRemote]
      split
      · rfl
      · split
        · rfl
        · exact localStorage_favoriteFound s request ids _
  | rFavorite => rfl
  | fFavorite f => exact localStorage_deleteRemote s request ids f

end Storage

/-! ## The device -/

/-- What only the requests for favourites change: the local storage, and whether the process
has been ended by Firestore. -/
def device (s : App) : LocalStorage RFavoriteProverb × Bool := (s.localStorage, s.aborted)

theorem device_saveCompleted (s : App) (request : Nat) (ids : ProverbIdentifiers)
    (result : Except AppError Proverb) :
    (s.saveCompleted request ids result).device = s.device := by
  cases result <;> rfl

theorem device_deleteCompleted (s : App) (request : Nat) (ids : ProverbIdentifiers)
    (error : Option AppError) : (s.deleteCompleted request ids error).device = s.device := by
  cases error <;> rfl

theorem device_getAll (s : App) (request : Nat) : (s.getAll request).device = s.device := by
  unfold getAll
  split
  · split <;> rfl
  · split
    · rfl
    · split <;> rfl

theorem device_setupFirestoreManager (s : App) : s.setupFirestoreManager.device = s.device := by
  unfold setupFirestoreManager
  split <;> rfl

theorem device_signInCompleted (s : App) (attempt : Nat) (result : Bool) :
    (s.signInCompleted attempt result).device = s.device := by
  cases result with
  | false => rfl
  | true => exact device_setupFirestoreManager _

theorem device_completeTransactions (s : App) (purchases : List TransactionState) :
    (s.completeTransactions purchases).device = s.device := by
  induction purchases generalizing s with
  | nil => rfl
  | cons transaction purchases ih =>
      have hone : (s.completeTransaction transaction).device = s.device := by
        cases transaction <;> rfl
      exact (ih (s.completeTransaction transaction)).trans hone

theorem device_restoreCompleted (s : App) (results : RestoreResults) :
    (s.restoreCompleted results).device = s.device := by
  unfold restoreCompleted
  split <;> rfl

theorem localStorage_getAll (s : App) (request : Nat) :
    (s.getAll request).localStorage = s.localStorage :=
  congrArg Prod.fst (device_getAll s request)

theorem localStorage_setupFirestoreManager (s : App) :
    s.setupFirestoreManager.localStorage = s.localStorage :=
  congrArg Prod.fst (device_setupFirestoreManager s)

theorem localStorage_completeTransactions (s : App) (purchases : List TransactionState) :
    (s.completeTransactions purchases).localStorage = s.localStorage :=
  congrArg Prod.fst (device_completeTransactions s purchases)

theorem localStorage_restoreCompleted (s : App) (results : RestoreResults) :
    (s.restoreCompleted results).localStorage = s.localStorage :=
  congrArg Prod.fst (device_restoreCompleted s results)

end Proverbs.App
