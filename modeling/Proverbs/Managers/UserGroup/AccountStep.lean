import Proverbs.Managers.Calculus

/-! # What a step does to the account

One inversion for all the events that are not the store's: which of the signed-in
user, the cached plan and the user of `remoteStorage` an event may change, and
into what. The invariants over runs are read off from it. The store's events
change the purchase flag and the plan, and nothing else of the account.
-/

namespace Proverbs.App

/-- The plan the two flags stand for, whatever is cached. -/
def plan (s : App) : Plan := s.updateCurrentPlan.currentPlan

theorem plan_of_account {s s' : App} (hu : s'.currentUser = s.currentUser)
    (hp : s'.isPurchased = s.isPurchased) : s'.plan = s.plan := by
  simp [plan, updateCurrentPlan, isSignedIn, hu, hp]

/-- The events of the store: the only ones that change the purchase flag. -/
def isStoreEvent : Event → Bool
  | .purchaseCompleted _ | .restoreCompleted _ | .completeTransactions _ => true
  | _ => false

inductive AccountStep (s s' : App) (event : Event) : Prop where
  | kept (huser : s'.currentUser = s.currentUser) (hremote : s'.remoteUser = s.remoteUser)
      (hplan : s'.currentPlan = s.currentPlan) (hflag : s'.firstLaunchFlag = s.firstLaunchFlag)
  | refreshed (huser : s'.currentUser = s.currentUser) (hremote : s'.remoteUser = s.remoteUser)
      (hplan : s'.currentPlan = s'.plan) (hflag : s'.firstLaunchFlag = s.firstLaunchFlag)
  | signedIn (attempt : Nat) (identifier : UserIdentifier)
      (hevent : event = .firebaseAuthenticated attempt (.user identifier))
      (huser : s'.currentUser = some identifier) (hremote : s'.remoteUser = some identifier)
      (hplan : s'.currentPlan = s'.plan) (hflag : s'.firstLaunchFlag = s.firstLaunchFlag)
  | signedOut (hevent : event = .signOut false) (huser : s'.currentUser = none)
      (hremote : s'.remoteUser = none) (hplan : s'.currentPlan = s'.plan)
      (hflag : s'.firstLaunchFlag = s.firstLaunchFlag)
  | signOutFailed (hevent : event = .signOut true) (huser : s'.currentUser = s.currentUser)
      (hremote : s'.remoteUser = none) (hplan : s'.currentPlan = s.currentPlan)
      (hflag : s'.firstLaunchFlag = s.firstLaunchFlag)
  | started (throws : Bool) (hevent : event = .userManagerStart throws)
      (hsame : s.firstLaunchFlag = true →
        s'.currentUser = s.currentUser ∧ s'.remoteUser = s.remoteUser)
      (hplan : s'.currentPlan = s'.plan) (hflag : s'.firstLaunchFlag = true)
  | launched (throws : Bool) (hevent : event = .launch throws)
      (hsame : s.firstLaunchFlag = true → s'.currentUser = s.currentUser)
      (hremote : s'.remoteUser = s'.currentUser)
      (hplan : s'.currentPlan = s'.plan) (hflag : s'.firstLaunchFlag = true)

theorem keepsAccount {s s' : App} {event : Event} (h : s'.account = s.account) :
    s'.isPurchased = s.isPurchased ∧ AccountStep s s' event :=
  ⟨congrArg Account.isPurchased h,
    .kept (congrArg Account.currentUser h) (congrArg Account.remoteUser h)
      (congrArg Account.currentPlan h) (congrArg Account.firstLaunchFlag h)⟩

/-! ## The functions of UserManager -/

section UserManager

variable (s : App)

/-- The setup gives `remoteStorage` to the signed-in user and changes nothing else
of the account. -/
theorem setupFirestoreManager_account :
    s.setupFirestoreManager.currentUser = s.currentUser ∧
      s.setupFirestoreManager.isPurchased = s.isPurchased ∧
      s.setupFirestoreManager.currentPlan = s.currentPlan ∧
      s.setupFirestoreManager.firstLaunchFlag = s.firstLaunchFlag ∧
      s.setupFirestoreManager.remoteUser = s.currentUser.or s.remoteUser := by
  unfold setupFirestoreManager
  cases hu : s.currentUser with
  | none => simp [hu]
  | some identifier => simp [call, remoteUser]

theorem userManagerStart_account (throws : Bool) :
    (s.userManagerStart throws).isPurchased = s.isPurchased ∧
      (s.userManagerStart throws).firstLaunchFlag = true ∧
      (s.userManagerStart throws).currentPlan = (s.userManagerStart throws).plan ∧
      (s.firstLaunchFlag = true → (s.userManagerStart throws).currentUser = s.currentUser ∧
        (s.userManagerStart throws).remoteUser = s.remoteUser) ∧
      (s.remoteUser = none → (s.userManagerStart throws).remoteUser = none) := by
  have hplan : (s.userManagerStart throws).currentPlan = (s.userManagerStart throws).plan := rfl
  cases hf : s.firstLaunchFlag with
  | true =>
      have hsame : s.userManagerStart throws = s.updateCurrentPlan := by
        simp [userManagerStart, logoutAtFirstLaunch, hf]
      rw [hsame]
      exact ⟨rfl, hf, rfl, fun _ => ⟨rfl, rfl⟩, fun h => h⟩
  | false =>
      have hout : s.userManagerStart throws =
          { (s.signOut throws).1 with firstLaunchFlag := true }.updateCurrentPlan := by
        simp [userManagerStart, logoutAtFirstLaunch, hf]
      refine ⟨?_, ?_, hplan, by simp, fun _ => ?_⟩
      all_goals
        rw [hout]
        cases throws <;> rfl

end UserManager

/-! ## Every step -/

theorem didSignInFor_account {s s' : App} {result : GoogleResult}
    (h : s.didSignInFor result = some s') :
    s'.isPurchased = s.isPurchased ∧ AccountStep s s' (.didSignInFor result) := by
  unfold didSignInFor at h
  split at h
  · simp at h
  · rw [← Option.some.inj h]
    exact ⟨rfl, .kept rfl rfl rfl rfl⟩
  · rw [← Option.some.inj h]
    exact ⟨rfl, .kept rfl rfl rfl rfl⟩
  · rw [← Option.some.inj h]
    exact ⟨rfl, .refreshed rfl rfl rfl rfl⟩

theorem firebaseAuthenticated_account (s : App) (attempt : Nat) (result : AuthResult) :
    (s.firebaseAuthenticated attempt result).isPurchased = s.isPurchased ∧
      AccountStep s (s.firebaseAuthenticated attempt result)
        (.firebaseAuthenticated attempt result) := by
  unfold firebaseAuthenticated
  split
  · cases result with
    | user identifier =>
        let t : App := { s with
          signIns := s.signIns.erase ⟨attempt, .firebaseAuth⟩
          currentUser := some identifier }
        obtain ⟨hu, hp, hc, hf, hr⟩ :=
          setupFirestoreManager_account (t.updateCurrentPlan.output (.signedIn attempt true))
        refine ⟨hp, .signedIn attempt identifier rfl hu hr ?_ hf⟩
        exact hc.trans (plan_of_account hu hp).symm
    | error => exact ⟨rfl, .refreshed rfl rfl rfl rfl⟩
    | nothing => exact ⟨rfl, .refreshed rfl rfl rfl rfl⟩
  · exact ⟨rfl, .kept rfl rfl rfl rfl⟩

theorem launch_account (s : App) (throws : Bool) :
    (s.launch throws).isPurchased = s.isPurchased ∧
      (s.launch throws).firstLaunchFlag = true ∧
      (s.launch throws).currentPlan = (s.launch throws).plan ∧
      (s.firstLaunchFlag = true → (s.launch throws).currentUser = s.currentUser) ∧
      (s.launch throws).remoteUser = (s.launch throws).currentUser := by
  obtain ⟨hp, hf, hc, hsame, hnone⟩ := userManagerStart_account s.restarted throws
  obtain ⟨hu', hp', hc', hf', hr'⟩ :=
    setupFirestoreManager_account (s.restarted.userManagerStart throws)
  have hplan : (s.launch throws).currentPlan = (s.restarted.userManagerStart throws).plan :=
    hc'.trans hc
  refine ⟨hp'.trans hp, hf'.trans hf, hplan.trans (plan_of_account hu' hp').symm,
    fun hflag => hu'.trans (hsame hflag).1, ?_⟩
  calc (s.launch throws).remoteUser
      = (s.restarted.userManagerStart throws).currentUser.or
          (s.restarted.userManagerStart throws).remoteUser := hr'
    _ = (s.restarted.userManagerStart throws).currentUser := by rw [hnone rfl, Option.or_none]
    _ = (s.launch throws).currentUser := hu'.symm

/-- The inversion: apart from the store's events, no step changes the purchase flag
and each changes the account in one of the ways above. -/
theorem step_account {s s' : App} {input : Input} (hstore : isStoreEvent input.event = false)
    (h : step s input = some s') :
    s'.isPurchased = s.isPurchased ∧ AccountStep s s' input.event := by
  obtain ⟨event, random, now⟩ := input
  cases event with
  | launch throws =>
      rw [← Option.some.inj h]
      obtain ⟨hp, hf, hc, hsame, hr⟩ := launch_account s throws
      exact ⟨hp, .launched throws rfl hsame hr hc hf⟩
  | userManagerStart throws =>
      rw [← Option.some.inj h]
      obtain ⟨hp, hf, hc, hsame, _⟩ := userManagerStart_account s throws
      exact ⟨hp, .started throws rfl hsame hc hf⟩
  | signIn option =>
      rw [← Option.some.inj h]
      unfold signIn
      split
      · exact ⟨rfl, .kept rfl rfl rfl rfl⟩
      · cases option <;> exact ⟨rfl, .kept rfl rfl rfl rfl⟩
  | providerCompleted attempt option credential =>
      rw [← Option.some.inj h]
      unfold providerCompleted
      split
      · cases credential with
        | true => exact ⟨rfl, .kept rfl rfl rfl rfl⟩
        | false => exact ⟨rfl, .refreshed rfl rfl rfl rfl⟩
      · exact ⟨rfl, .kept rfl rfl rfl rfl⟩
  | didSignInFor result => exact didSignInFor_account h
  | firebaseAuthenticated attempt result =>
      rw [← Option.some.inj h]
      exact firebaseAuthenticated_account s attempt result
  | signOut throws =>
      rw [← Option.some.inj h]
      cases throws with
      | true => exact ⟨rfl, .signOutFailed rfl rfl rfl rfl rfl⟩
      | false => exact ⟨rfl, .signedOut rfl rfl rfl rfl rfl⟩
  | purchaseCompleted success => simp [isStoreEvent] at hstore
  | restoreCompleted results => simp [isStoreEvent] at hstore
  | completeTransactions purchases => simp [isStoreEvent] at hstore
  | getAll =>
      rw [← Option.some.inj h]
      exact keepsAccount (by simp)
  | isFavorite proverb => exact keepsAccount ((account_isFavorite h).trans account_takeRequest)
  | save proverb => exact keepsAccount ((account_save h).trans account_takeRequest)
  | delete proverb => exact keepsAccount ((account_delete h).trans account_takeRequest)
  | checkAndSaveOrDeleteFavorite proverb =>
      exact keepsAccount ((account_isFavorite h).trans account_takeRequest)
  | serve index outcome =>
      rw [← Option.some.inj h]
      exact keepsAccount (by simp)
  | deliver index => exact keepsAccount (account_deliver h)
  | realmWrites throw =>
      rw [← Option.some.inj h]
      exact keepsAccount rfl

/-! ## The store's events -/

theorem completeTransactions_account (s : App) (purchases : List TransactionState) :
    (s.completeTransactions purchases).currentUser = s.currentUser ∧
      (s.completeTransactions purchases).remoteUser = s.remoteUser ∧
      (s.completeTransactions purchases).firstLaunchFlag = s.firstLaunchFlag := by
  induction purchases generalizing s with
  | nil => exact ⟨rfl, rfl, rfl⟩
  | cons transaction purchases ih =>
      have hone : (s.completeTransaction transaction).currentUser = s.currentUser ∧
          (s.completeTransaction transaction).remoteUser = s.remoteUser ∧
          (s.completeTransaction transaction).firstLaunchFlag = s.firstLaunchFlag := by
        cases transaction <;> exact ⟨rfl, rfl, rfl⟩
      obtain ⟨hu, hr, hf⟩ := ih (s.completeTransaction transaction)
      exact ⟨hu.trans hone.1, hr.trans hone.2.1, hf.trans hone.2.2⟩

theorem step_store_account {s s' : App} {input : Input} (hstore : isStoreEvent input.event = true)
    (h : step s input = some s') :
    s'.currentUser = s.currentUser ∧ s'.remoteUser = s.remoteUser ∧
      s'.firstLaunchFlag = s.firstLaunchFlag := by
  obtain ⟨event, random, now⟩ := input
  cases event with
  | purchaseCompleted success =>
      rw [← Option.some.inj h]
      cases success <;> exact ⟨rfl, rfl, rfl⟩
  | restoreCompleted results =>
      rw [← Option.some.inj h]
      unfold restoreCompleted
      split <;> exact ⟨rfl, rfl, rfl⟩
  | completeTransactions purchases =>
      rw [← Option.some.inj h]
      exact completeTransactions_account s purchases
  | _ => simp [isStoreEvent] at hstore

end Proverbs.App
