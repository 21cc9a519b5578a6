import Proverbs.Managers.Firebase.UserData
import Proverbs.Managers.UserGroup.SignInAttempts
import Proverbs.Managers.UserGroup.SignInState

/-! # Nothing sent

Firestore is only called through `remoteStorage`, which is there for a signed-in user;
signing in needs the purchase. As long as no sign-in is asked for after one, the app
keeps to the device.
-/

namespace Proverbs.App

/-- Nobody is signed in or about to be, and no call is under way. -/
structure OnDevice (s : App) : Prop where
  currentUser : s.currentUser = none
  signIns : s.signIns = []
  googleCompletion : s.googleCompletion = none
  remoteStorage : s.remoteStorage = none
  calls : s.calls = []

/-! ## Requests without a remote storage -/

section Requests

variable {s s' : App} {random : Identifier} {now : Date}

abbrev CallsNothing : App → App → Prop := Extends (fun _ => False) (fun _ => True)

theorem CallsNothing.calls_eq (h : CallsNothing s s') : s'.calls = s.calls := by
  obtain ⟨calls, hcalls, hnone⟩ := h.calls
  rw [hcalls, List.eq_nil_iff_forall_not_mem.mpr hnone, List.append_nil]

theorem calls_saveCompleted (request : Nat) (identifiers : ProverbIdentifiers)
    (result : Except AppError Proverb) :
    (s.saveCompleted request identifiers result).calls = s.calls := by
  have heffect : CallsNothing s (s.saveCompleted request identifiers result) :=
    Extends.saveCompleted trivial (fun _ => trivial) result
  exact heffect.calls_eq

theorem calls_deleteCompleted (request : Nat) (identifiers : ProverbIdentifiers)
    (error : Option AppError) : (s.deleteCompleted request identifiers error).calls = s.calls := by
  have heffect : CallsNothing s (s.deleteCompleted request identifiers error) :=
    Extends.deleteCompleted trivial (fun _ => trivial) error
  exact heffect.calls_eq

theorem calls_chackAndSaveRemote (hnone : s.remoteStorage = none) (proverb : Proverb)
    (request : Nat) (identifiers : ProverbIdentifiers) :
    (s.chackAndSaveRemote proverb request identifiers random now).calls = s.calls := by
  unfold chackAndSaveRemote
  split
  · rw [hnone]
    exact calls_saveCompleted request identifiers _
  · exact calls_saveCompleted request identifiers _

theorem calls_checkAndDeleteRemote (hnone : s.remoteStorage = none) (proverb : Proverb)
    (request : Nat) (identifiers : ProverbIdentifiers) :
    (s.checkAndDeleteRemote proverb request identifiers).calls = s.calls := by
  unfold checkAndDeleteRemote
  split
  · rw [hnone]
  · rw [deleteRemote, hnone]
    exact calls_deleteCompleted request identifiers _
  · exact calls_deleteCompleted request identifiers _

theorem calls_getAll (hnone : s.remoteStorage = none) (request : Nat) :
    (s.getAll request).calls = s.calls := by
  unfold getAll
  rw [hnone]
  split
  · split <;> rfl
  · rfl

theorem calls_save (hnone : s.remoteStorage = none) {proverb : Proverb} {request : Nat}
    (hs : s.save proverb request random now = some s') : s'.calls = s.calls := by
  unfold save at hs
  split at hs
  · dsimp only at hs
    split at hs
    · have hlocal : ∀ t : App, CallsNothing t (t.checkAndSaveLocal proverb random now).1 :=
        fun _ => Extends.checkAndSaveLocal proverb random now
      rw [← Option.some.inj hs, calls_saveCompleted, (hlocal _).calls_eq]
      rfl
    · rw [← Option.some.inj hs]
      exact calls_chackAndSaveRemote (s := s.output _) hnone proverb request _
  · cases hs

theorem calls_delete (hnone : s.remoteStorage = none) {proverb : Proverb} {request : Nat}
    (hs : s.delete proverb request = some s') : s'.calls = s.calls := by
  unfold delete at hs
  split at hs
  · dsimp only at hs
    split at hs
    · obtain ⟨⟨t, error⟩, hdelete, ht⟩ := Option.map_eq_some_iff.mp hs
      have hlocal : CallsNothing s t := Extends.checkAndDeleteLocal hdelete
      rw [← ht, calls_deleteCompleted]
      exact hlocal.calls_eq
    · rw [← Option.some.inj hs]
      exact calls_checkAndDeleteRemote hnone proverb request _
  · cases hs

theorem calls_checkCompleted (hnone : s.remoteStorage = none) {completion : CheckCompletion}
    {result : Bool} (hs : s.checkCompleted completion result random now = some s') :
    s'.calls = s.calls := by
  unfold checkCompleted at hs
  split at hs
  · rw [← Option.some.inj hs]
    rfl
  · split at hs
    · exact calls_delete hnone hs
    · exact calls_save hnone hs

theorem calls_isFavorite (hnone : s.remoteStorage = none) {proverb : Proverb}
    {completion : CheckCompletion} (hs : s.isFavorite proverb completion random now = some s') :
    s'.calls = s.calls := by
  unfold isFavorite isFavoriteRemote at hs
  split at hs
  · exact calls_checkCompleted hnone hs
  · split at hs
    · exact calls_checkCompleted hnone hs
    · exact calls_checkCompleted hnone hs
    · rw [hnone] at hs
      exact calls_checkCompleted hnone hs

end Requests

/-! ## Turns -/

section Turns

variable {s s' : App}

theorem OnDevice.of_account (h : OnDevice s) (haccount : s'.account = s.account)
    (hcalls : s'.calls = s.calls) : OnDevice s' := by
  have hremote : s'.remoteUser = none := by
    rw [show s'.remoteUser = s.remoteUser from congrArg Account.remoteUser haccount,
      remoteUser, h.remoteStorage]
    rfl
  exact ⟨(congrArg Account.currentUser haccount).trans h.currentUser,
    (congrArg Account.signIns haccount).trans h.signIns,
    (congrArg Account.googleCompletion haccount).trans h.googleCompletion,
    remoteStorage_eq_none hremote, hcalls.trans h.calls⟩

theorem OnDevice.updateCurrentPlan (h : OnDevice s) : OnDevice s.updateCurrentPlan :=
  ⟨h.currentUser, h.signIns, h.googleCompletion, h.remoteStorage, h.calls⟩

theorem OnDevice.output (h : OnDevice s) (o : Output) : OnDevice (s.output o) :=
  ⟨h.currentUser, h.signIns, h.googleCompletion, h.remoteStorage, h.calls⟩

theorem OnDevice.signOut (h : OnDevice s) (throws : Bool) : OnDevice (s.signOut throws).1 := by
  cases throws with
  | true => exact ⟨h.currentUser, h.signIns, h.googleCompletion, rfl, h.calls⟩
  | false => exact ⟨rfl, h.signIns, h.googleCompletion, rfl, h.calls⟩

theorem OnDevice.userManagerStart (h : OnDevice s) (throws : Bool) :
    OnDevice (s.userManagerStart throws) := by
  unfold App.userManagerStart logoutAtFirstLaunch
  split
  · exact h.updateCurrentPlan
  · have hout := h.signOut throws
    exact ⟨hout.currentUser, hout.signIns, hout.googleCompletion, hout.remoteStorage, hout.calls⟩

theorem OnDevice.setupFirestoreManager (h : OnDevice s) : s.setupFirestoreManager = s := by
  unfold App.setupFirestoreManager
  rw [h.currentUser]

theorem onDevice_launch (hnobody : s.currentUser = none) (throws : Bool) :
    OnDevice (s.launch throws) := by
  have hstarted : OnDevice (s.restarted.userManagerStart throws) := by
    apply OnDevice.userManagerStart
    exact ⟨hnobody, rfl, rfl, rfl, rfl⟩
  rw [launch, hstarted.setupFirestoreManager]
  exact hstarted

theorem OnDevice.setPurchased (h : OnDevice s) (newValue : Bool) :
    OnDevice (s.setPurchased newValue) := by
  cases newValue with
  | true => exact ⟨h.currentUser, h.signIns, h.googleCompletion, h.remoteStorage, h.calls⟩
  | false => exact ⟨h.currentUser, h.signIns, h.googleCompletion, h.remoteStorage, h.calls⟩

theorem OnDevice.completeTransactions (h : OnDevice s) (purchases : List TransactionState) :
    OnDevice (s.completeTransactions purchases) := by
  induction purchases generalizing s with
  | nil => exact h
  | cons transaction purchases ih =>
      apply ih
      cases transaction with
      | purchased | restored => exact h.setPurchased true
      | failed | purchasing | deferred => exact h.setPurchased false
      | unknown => exact h

theorem OnDevice.restoreCompleted (h : OnDevice s) (results : RestoreResults) :
    OnDevice (s.restoreCompleted results) := by
  unfold App.restoreCompleted
  split
  · exact (h.setPurchased false).output _
  · exact (h.setPurchased true).output _

theorem OnDevice.didSignInFor (h : OnDevice s) {result : GoogleResult}
    (hs : s.didSignInFor result = some s') : OnDevice s' := by
  cases result with
  | authentication => simp [App.didSignInFor, h.googleCompletion] at hs
  | error | nothing =>
      simp only [App.didSignInFor, h.googleCompletion, Option.some.injEq] at hs
      rw [← hs]
      exact h

theorem OnDevice.serve (h : OnDevice s) (index : Nat) (outcome : Outcome) :
    s.serve index outcome = s := by
  rw [App.serve, h.calls]
  rfl

theorem OnDevice.deliver (h : OnDevice s) (index : Nat) (random : Identifier) (now : Date) :
    s.deliver index random now = some s := by
  rw [App.deliver, h.calls]
  rfl

/-- A turn keeps to the device, unless it is a sign-in that is accepted. -/
theorem OnDevice.stays (h : OnDevice s) {input : Input}
    (hsignIn : ∀ option, input.event = .signIn option → s.isPurchased = false)
    (hs : step s input = some s') : OnDevice s' := by
  have hrequest : OnDevice s.takeRequest :=
    ⟨h.currentUser, h.signIns, h.googleCompletion, h.remoteStorage, h.calls⟩
  obtain ⟨event, random, now⟩ := input
  cases event with
  | launch throws =>
      rw [← Option.some.inj hs]
      exact onDevice_launch h.currentUser throws
  | userManagerStart throws =>
      rw [← Option.some.inj hs]
      exact h.userManagerStart throws
  | signIn option =>
      rw [← Option.some.inj hs, signIn_rejected (hsignIn option rfl)]
      exact hrequest.output _
  | providerCompleted attempt option credential =>
      rw [← Option.some.inj hs, providerCompleted, h.signIns, if_neg List.not_mem_nil]
      exact h
  | didSignInFor result => exact h.didSignInFor hs
  | firebaseAuthenticated attempt result =>
      rw [← Option.some.inj hs, firebaseAuthenticated, h.signIns, if_neg List.not_mem_nil]
      exact h
  | signOut throws =>
      rw [← Option.some.inj hs]
      exact (h.signOut throws).output _
  | purchaseCompleted success =>
      rw [← Option.some.inj hs]
      cases success with
      | true => exact (h.setPurchased true).output _
      | false => exact (h.setPurchased false).output _
  | restoreCompleted results =>
      rw [← Option.some.inj hs]
      exact h.restoreCompleted results
  | completeTransactions purchases =>
      rw [← Option.some.inj hs]
      exact h.completeTransactions purchases
  | getAll =>
      rw [← Option.some.inj hs]
      exact hrequest.of_account (account_getAll _) (calls_getAll hrequest.remoteStorage _)
  | isFavorite proverb =>
      exact hrequest.of_account (account_isFavorite hs) (calls_isFavorite h.remoteStorage hs)
  | save proverb =>
      exact hrequest.of_account (account_save hs) (calls_save h.remoteStorage hs)
  | delete proverb =>
      exact hrequest.of_account (account_delete hs) (calls_delete h.remoteStorage hs)
  | checkAndSaveOrDeleteFavorite proverb =>
      exact hrequest.of_account (account_isFavorite hs) (calls_isFavorite h.remoteStorage hs)
  | serve index outcome =>
      rw [← Option.some.inj hs, h.serve index outcome]
      exact h
  | deliver index =>
      have hsame : s' = s := Option.some.inj (hs.symm.trans (h.deliver index random now))
      rw [hsame]
      exact h
  | realmWrites throw =>
      rw [← Option.some.inj hs]
      exact ⟨h.currentUser, h.signIns, h.googleCompletion, h.remoteStorage, h.calls⟩

theorem OnDevice.firestore_eq (h : OnDevice s) {input : Input} (hs : step s input = some s') :
    s'.firestore = s.firestore := by
  by_cases hserved : ∀ index outcome, input.event ≠ .serve index outcome
  · exact firestore_step hserved hs
  · obtain ⟨index, outcome, hevent⟩ : ∃ index outcome, input.event = .serve index outcome := by
      by_contra hnot
      exact hserved fun index outcome hevent => hnot ⟨index, outcome, hevent⟩
    have hsame : s.serve index outcome = s' := by
      rw [App.step, hevent] at hs
      exact Option.some.inj hs
    rw [← hsame, h.serve index outcome]

theorem OnDevice.step (h : OnDevice s) {input : Input}
    (hsignIn : ∀ option, input.event = .signIn option → s.isPurchased = false)
    (hs : step s input = some s') : OnDevice s' ∧ s'.firestore = s.firestore :=
  ⟨h.stays hsignIn hs, h.firestore_eq hs⟩

end Turns

end Proverbs.App
