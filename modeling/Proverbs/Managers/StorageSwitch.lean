import Proverbs.Managers.Crashes
import Proverbs.Managers.Migration
import Proverbs.Managers.UserGroup.AccountStep
import Proverbs.Managers.UserGroup.PurchaseFlag

/-! # Switching the storage

Which storage `getAll` reads follows the cached plan; when the local favourites
are uploaded and deleted follows the signed-in user. The two meet at a launch, a
sign-in, a purchase and a restore. For each of these the favourites stay visible
under a condition on the state before it, and no weaker one will do.
-/

namespace Proverbs.App

/-! ## What getAll returns -/

/-- `getAll`, called in `s` and answered without an error, returns a favourite of
this catalogue proverb. The callback draws no identifier and no time. -/
def Returns (s : App) (originIdentifier : Identifier) : Prop :=
  ∃ s' proverbs,
    settle (fun _ => .success) "" 0 s.calls.length 1 (s.takeRequest.getAll s.nextRequest) =
      some s' ∧
    s'.outputs = s.outputs ++ [.gotAll s.nextRequest (.ok proverbs)] ∧
    ∃ proverb ∈ proverbs, proverb.originIdentifier? = some originIdentifier

/-- Once the call is known to end in one answer, that answer decides. -/
theorem returns_iff_of_answer {s s' : App} {result : Except AppError (List Proverb)}
    (hsettle : settle (fun _ => .success) "" 0 s.calls.length 1
      (s.takeRequest.getAll s.nextRequest) = some s')
    (houtputs : s'.outputs = s.outputs ++ [.gotAll s.nextRequest result])
    (originIdentifier : Identifier) :
    Returns s originIdentifier ↔
      ∃ proverbs, result = .ok proverbs ∧
        ∃ proverb ∈ proverbs, proverb.originIdentifier? = some originIdentifier := by
  constructor
  · rintro ⟨t, proverbs, ht, hout, hmem⟩
    obtain rfl : s' = t := Option.some.inj (hsettle.symm.trans ht)
    have hsame := List.append_cancel_left (houtputs.symm.trans hout)
    simp only [List.cons.injEq, Output.gotAll.injEq, true_and, and_true] at hsame
    exact ⟨proverbs, hsame, hmem⟩
  · rintro ⟨proverbs, rfl, hmem⟩
    exact ⟨s', proverbs, hsettle, houtputs, hmem⟩

theorem returns_local {s : App} (h : s.isLocalStorage = true) (originIdentifier : Identifier) :
    Returns s originIdentifier ↔
      ∃ f ∈ s.localStorage.objects, f.originIdentifier = originIdentifier := by
  cases hall : s.localStorage.getAll with
  | none =>
      have hget : s.takeRequest.getAll s.nextRequest =
          s.takeRequest.output (.gotAll s.nextRequest (.error (.manager .undefined))) := by
        unfold getAll
        rw [if_pos (show s.takeRequest.isLocalStorage = true from h)]
        simp only [takeRequest, hall]
      have hobjects : s.localStorage.objects = [] := by simp [LocalStorage.objects, hall]
      rw [returns_iff_of_answer (by rw [hget]; exact settle_of_settled 1 (Nat.le_refl _)) rfl]
      simp [hobjects]
  | some favorites =>
      have hget : s.takeRequest.getAll s.nextRequest =
          s.takeRequest.output (.gotAll s.nextRequest (.ok (favorites.map Proverb.rFavorite))) := by
        unfold getAll
        rw [if_pos (show s.takeRequest.isLocalStorage = true from h)]
        simp only [takeRequest, hall]
      rw [returns_iff_of_answer (by rw [hget]; exact settle_of_settled 1 (Nat.le_refl _)) rfl,
        LocalStorage.objects_of_getAll hall]
      simp [Proverb.originIdentifier?]

theorem returns_remote {s : App} (h : s.isLocalStorage = false) (originIdentifier : Identifier) :
    Returns s originIdentifier ↔
      ∃ user, s.remoteCollection = some user ∧
        (s.firestore.favorites user).Holds originIdentifier := by
  have hremote : s.takeRequest.isLocalStorage = false := h
  have hanswered : ∀ error, s.remoteCollection = none →
      s.takeRequest.getAll s.nextRequest =
        s.takeRequest.output (.gotAll s.nextRequest (.error error)) →
      (Returns s originIdentifier ↔ ∃ user, s.remoteCollection = some user ∧
        (s.firestore.favorites user).Holds originIdentifier) := by
    intro error hnone hget
    rw [returns_iff_of_answer (by rw [hget]; exact settle_of_settled 1 (Nat.le_refl _)) rfl]
    simp [hnone]
  cases hm : s.remoteStorage with
  | none =>
      apply hanswered (.manager .undefined)
      · simp [remoteCollection, hm]
      · simp only [getAll, hremote, Bool.false_eq_true, if_false]
        simp only [takeRequest, hm]
  | some manager =>
      cases hu : manager.userDocument with
      | none =>
          apply hanswered .undefinedError
          · simp [remoteCollection, hm, FirestoreManager.favoritesCollection, hu]
          · simp only [getAll, hremote, Bool.false_eq_true, if_false]
            simp only [takeRequest, hm, FirestoreManager.getAllFavoriteProverbs,
              FirestoreManager.favoritesCollection, hu]
            rfl
      | some user =>
          have hget : s.takeRequest.getAll s.nextRequest =
              s.takeRequest.call (.getDocuments user) (.getAll s.nextRequest) := by
            simp only [getAll, hremote, Bool.false_eq_true, if_false]
            simp only [takeRequest, hm, FirestoreManager.getAllFavoriteProverbs,
              FirestoreManager.favoritesCollection, hu]
          have hsettle : settle (fun _ => .success) "" 0 s.calls.length 1
              (s.takeRequest.getAll s.nextRequest) =
                some (s.takeRequest.getAllCompleted s.nextRequest
                  (.ok ((s.firestore.favorites user).documents.map Document.favorite))) := by
            rw [hget]
            exact (settle_call (s := s.takeRequest) 0 _ _).trans rfl
          have hcollection : s.remoteCollection = some user := by
            simp [remoteCollection, hm, FirestoreManager.favoritesCollection, hu]
          rw [returns_iff_of_answer hsettle rfl, hcollection]
          simp [Except.map, Proverb.originIdentifier?, Collection.Holds]

/-! ## Reachable states -/

/-- Some run from some launch ends in this state. -/
def Running (s : App) : Prop :=
  ∃ (device : App) (throws : Bool), Transition.Reachable turn (device.launch throws) s

/-- A purchase under a signed-in user is never cached as anything less. -/
def Registered (s : App) : Prop :=
  s.firstLaunchFlag = true ∧
    (s.isPurchased = true → s.isSignedIn = true → s.currentPlan = .paidRegistered)

theorem paidRegistered_of_plan {s : App} (h : s.currentPlan = s.plan) (hp : s.isPurchased = true)
    (hu : s.isSignedIn = true) : s.currentPlan = .paidRegistered := by
  rw [h]
  simp [plan, updateCurrentPlan, hp, hu]

theorem registered_setPurchased {s : App} (h : Registered s) (newValue : Bool) :
    Registered (s.setPurchased newValue) := by
  cases newValue with
  | true => exact ⟨h.1, fun hp hu => paidRegistered_of_plan rfl hp hu⟩
  | false => exact ⟨h.1, fun hp _ => absurd hp (by simp)⟩

theorem registered_completeTransactions {s : App} (h : Registered s)
    (purchases : List TransactionState) : Registered (s.completeTransactions purchases) := by
  induction purchases generalizing s with
  | nil => exact h
  | cons transaction purchases ih =>
      apply ih (s := s.completeTransaction transaction)
      cases transaction <;> first | exact registered_setPurchased h _ | exact h

theorem registered_step {s s' : App} {input : Input} (hs : Registered s)
    (h : step s input = some s') : Registered s' := by
  cases hstore : isStoreEvent input.event with
  | false =>
      obtain ⟨hpurchase, haccount⟩ := step_account hstore h
      have hsame : s'.currentUser = s.currentUser → s'.currentPlan = s.currentPlan →
          s'.firstLaunchFlag = s.firstLaunchFlag → Registered s' := by
        intro huser hplan hflag
        refine ⟨hflag.trans hs.1, fun hp hu => ?_⟩
        rw [hplan]
        exact hs.2 (hpurchase ▸ hp) (by simpa [isSignedIn, huser] using hu)
      have hfresh : s'.currentPlan = s'.plan → s'.firstLaunchFlag = true → Registered s' :=
        fun hplan hflag => ⟨hflag, paidRegistered_of_plan hplan⟩
      cases haccount with
      | kept huser hremote hplan hflag => exact hsame huser hplan hflag
      | signOutFailed hevent huser hremote hplan hflag => exact hsame huser hplan hflag
      | refreshed huser hremote hplan hflag => exact hfresh hplan (hflag.trans hs.1)
      | signedIn attempt identifier hevent huser hremote hplan hflag =>
          exact hfresh hplan (hflag.trans hs.1)
      | signedOut hevent huser hremote hplan hflag => exact hfresh hplan (hflag.trans hs.1)
      | started throws hevent hsame hplan hflag => exact hfresh hplan hflag
      | launched throws hevent hsame hremote hplan hflag => exact hfresh hplan hflag
  | true =>
      obtain ⟨event, random, now⟩ := input
      cases event with
      | purchaseCompleted success =>
          rw [← Option.some.inj h]
          cases success <;> exact registered_setPurchased hs _
      | restoreCompleted results =>
          rw [← Option.some.inj h]
          unfold restoreCompleted
          split <;> exact registered_setPurchased hs _
      | completeTransactions purchases =>
          rw [← Option.some.inj h]
          exact registered_completeTransactions hs purchases
      | _ => simp [isStoreEvent] at hstore

theorem registered_of_running {s : App} (h : Running s) : Registered s := by
  obtain ⟨device, throws, hreach⟩ := h
  obtain ⟨_, hflag, hplan, _, _⟩ := launch_account device throws
  exact (reachable_of_turn hreach).invariant (fun s input s' hs h => registered_step hs h)
    ⟨hflag, paidRegistered_of_plan hplan⟩

theorem live_of_running {s : App} (h : Running s) : s.Live := by
  obtain ⟨device, throws, hreach⟩ := h
  exact live_of_reachable hreach

/-! ## The switching events -/

/-- A launch, a sign-in that succeeds, a purchase or a restore that succeeds. -/
def Switches (s : App) : Event → Prop
  | .launch _ => True
  | .firebaseAuthenticated attempt (.user _) => ⟨attempt, .firebaseAuth⟩ ∈ s.signIns
  | .purchaseCompleted success => success = true
  | .restoreCompleted results => 0 < results.restoredPurchases
  | _ => False

/-- The calls already pending when the event's own calls are sent; a launch has
dropped them. -/
def pendingAt (s : App) : Event → Nat
  | .launch _ => 0
  | _ => s.calls.length

/-- What has to hold before the event. A launch under a user who has not purchased
deletes what it uploads; a sign-in uploads to the storage it switches to, if there
is a purchase; a purchase uploads nothing. Nothing can be deleted while a transaction
is still open, and a new process has none. -/
def SwitchKeeps (s : App) : Event → Prop
  | .launch _ =>
      s.currentUser = none ∨ s.localStorage.objects = [] ∨ ¬ s.localStorage.reopened.Available
  | .firebaseAuthenticated _ (.user identifier) =>
      ¬ (s.localStorage.realm.isSome ∧ s.localStorage.writes = .leftOpen) ∧
        if s.isPurchased then
          ∀ f ∈ s.localStorage.objects,
            KeptRemotely s.firestore identifier (fun _ => .success) s.localStorage.objects f
        else s.localStorage.objects = [] ∨ ¬ s.localStorage.Available
  | _ =>
      s.currentUser = none ∨
        ∀ f ∈ s.localStorage.objects, ∃ user, s.remoteCollection = some user ∧
          (s.firestore.favorites user).Holds f.originIdentifier

instance (s : App) (event : Event) : Decidable (SwitchKeeps s event) := by
  unfold SwitchKeeps
  split <;> infer_instance

/-- Every favourite visible in `s` is visible in `s'`. -/
def NothingHidden (s s' : App) : Prop :=
  ∀ originIdentifier, Returns s originIdentifier → Returns s' originIdentifier

section NothingHidden

variable {s s' : App}

theorem nothingHidden_same (hs : s.isLocalStorage = true) (hs' : s'.isLocalStorage = true)
    (h : s'.localStorage.objects = s.localStorage.objects) : NothingHidden s s' := by
  intro originIdentifier
  rw [returns_local hs, returns_local hs', h]
  exact id

/-- The local favourites are deleted under a plan that keeps reading them. -/
theorem nothingHidden_deleted_iff (hs : s.isLocalStorage = true) (hs' : s'.isLocalStorage = true)
    {storage : LocalStorage RFavoriteProverb} (hstorage : storage.realm = s.localStorage.realm)
    (h : s'.localStorage = storage.deleteAll) :
    NothingHidden s s' ↔ s.localStorage.objects = [] ∨ ¬ storage.Available := by
  by_cases havailable : storage.Available
  · have hgone : s'.localStorage.objects = [] := by
      rw [h]
      exact LocalStorage.objects_deleteAll_of_available havailable
    simp only [NothingHidden, returns_local hs, returns_local hs', hgone, havailable,
      not_true_eq_false, or_false, List.not_mem_nil, false_and, exists_false]
    constructor
    · intro hall
      apply List.eq_nil_iff_forall_not_mem.mpr
      intro f hf
      exact hall f.originIdentifier ⟨f, hf, rfl⟩
    · rintro hnil _ ⟨f, hf, _⟩
      rw [hnil] at hf
      exact absurd hf List.not_mem_nil
  · refine iff_of_true (nothingHidden_same hs hs' ?_) (Or.inr havailable)
    rw [h, LocalStorage.objects_deleteAll_of_not_available havailable]
    exact LocalStorage.objects_of_realm_eq hstorage

theorem nothingHidden_remote_iff (hs : s.isLocalStorage = true)
    (hs' : s'.isLocalStorage = false) :
    NothingHidden s s' ↔ ∀ f ∈ s.localStorage.objects, ∃ user, s'.remoteCollection = some user ∧
      (s'.firestore.favorites user).Holds f.originIdentifier := by
  simp only [NothingHidden, returns_local hs, returns_remote hs']
  constructor
  · intro hall f hf
    exact hall f.originIdentifier ⟨f, hf, rfl⟩
  · rintro hall _ ⟨f, hf, rfl⟩
    exact hall f hf

end NothingHidden

/-! ## Each event -/

section AfterSetup

variable (s : App) (user : UserIdentifier) (outcome : Operation → Outcome)

theorem currentPlan_afterSetup : (s.afterSetup user outcome).currentPlan = s.currentPlan := by
  unfold afterSetup
  simp only
  split <;> rfl

theorem aborted_afterSetup : (s.afterSetup user outcome).aborted = s.aborted := by
  unfold afterSetup
  simp only
  split <;> rfl

theorem remoteCollection_afterSetup (hloads : s.firestore.UserDocumentLoads user outcome) :
    (s.afterSetup user outcome).remoteCollection = some user := by
  unfold afterSetup
  simp only [if_pos hloads]
  rfl

end AfterSetup

theorem userDocumentLoads_success (firestore : Firestore) (user : UserIdentifier) :
    firestore.UserDocumentLoads user fun _ => .success :=
  ⟨rfl, Or.inr (by simp)⟩

/-- The event's step and the callbacks it starts end in `s'`. -/
def SettlesTo (s : App) (input : Input) (s' : App) : Prop :=
  ∃ t, step s input = some t ∧
    settle (fun _ => .success) input.random input.now (pendingAt s input.event) 4 t = some s' ∧
    s'.calls.length = pendingAt s input.event

theorem isLocalStorage_iff {s : App} :
    s.isLocalStorage = true ↔ s.currentPlan ≠ .paidRegistered := by
  simp [isLocalStorage]

theorem isLocalStorage_updateCurrentPlan {s : App} :
    s.updateCurrentPlan.isLocalStorage = !(s.isSignedIn && s.isPurchased) := by
  cases hu : s.isSignedIn <;> cases hp : s.isPurchased <;>
    simp [isLocalStorage, updateCurrentPlan, hu, hp]

theorem setupFirestoreManager_of_none {s : App} (h : s.currentUser = none) :
    s.setupFirestoreManager = s := by
  unfold setupFirestoreManager
  split <;> simp_all

theorem switch_launch {s : App} (hs : Registered s) (hlocal : s.isLocalStorage = true)
    (throws : Bool) (random : Identifier) (now : Date) :
    ∃ s', SettlesTo s ⟨.launch throws, random, now⟩ s' ∧
      (s'.Live ∧ NothingHidden s s' ↔ SwitchKeeps s (.launch throws)) := by
  let t : App := s.restarted
  have hlaunch : s.launch throws = t.updateCurrentPlan.setupFirestoreManager := by
    have hstart : t.userManagerStart throws = t.updateCurrentPlan := by
      have hflag : t.firstLaunchFlag = true := hs.1
      simp [userManagerStart, logoutAtFirstLaunch, hflag]
    exact congrArg setupFirestoreManager hstart
  have hlocal' : t.updateCurrentPlan.isLocalStorage = true := by
    rw [isLocalStorage_updateCurrentPlan]
    by_contra hremote
    have hboth : t.isSignedIn = true ∧ t.isPurchased = true := by simpa using hremote
    exact isLocalStorage_iff.mp hlocal (hs.2 hboth.2 hboth.1)
  cases hu : s.currentUser with
  | none =>
      refine ⟨t.updateCurrentPlan, ⟨_, rfl, ?_, rfl⟩, ?_⟩
      · have hnobody : t.updateCurrentPlan.currentUser = none := hu
        rw [hlaunch, setupFirestoreManager_of_none hnobody]
        exact settle_of_settled 4 (Nat.le_refl _)
      · have hobjects : t.localStorage.objects = s.localStorage.objects :=
          LocalStorage.objects_of_realm_eq rfl
        exact iff_of_true ⟨live_restarted s, nothingHidden_same hlocal hlocal' hobjects⟩ (Or.inl hu)
  | some user =>
      have hloads := userDocumentLoads_success t.updateCurrentPlan.firestore user
      let s' := t.updateCurrentPlan.afterSetup user fun _ => .success
      have hdeleted : s'.localStorage = t.localStorage.deleteAll := by
        rw [localStorage_afterSetup, if_pos hloads]
        rfl
      have hlive : s'.Live := by
        have hleaves : Leaves t s' true [] :=
          .realmWrite (hdeleted.trans (LocalStorage.deleteAll_eq _)) (aborted_afterSetup _ _ _)
        refine (hleaves.live_iff (live_restarted s)).mpr ?_
        have hnot : t.localStorage.writes ≠ .leftOpen := (Writes.reopened_closed _).1
        simp [hnot]
      refine ⟨s', ⟨_, rfl, ?_, ?_⟩, ?_⟩
      · rw [hlaunch]
        exact settle_setupFirestoreManager (s := t.updateCurrentPlan) hu 0
      · rw [calls_afterSetup]
        rfl
      · have hlocal'' : s'.isLocalStorage = true := by
          rw [isLocalStorage_iff, currentPlan_afterSetup]
          exact isLocalStorage_iff.mp hlocal'
        have hrealm : t.localStorage.realm = s.localStorage.realm := rfl
        rw [and_iff_right hlive, nothingHidden_deleted_iff hlocal hlocal'' hrealm hdeleted]
        simp [SwitchKeeps, hu, t, restarted]

theorem switch_signIn {s : App} (hlive : s.Live) (hlocal : s.isLocalStorage = true) {attempt : Nat}
    (hattempt : ⟨attempt, .firebaseAuth⟩ ∈ s.signIns) (identifier : UserIdentifier)
    (random : Identifier) (now : Date) :
    ∃ s', SettlesTo s ⟨.firebaseAuthenticated attempt (.user identifier), random, now⟩ s' ∧
      (s'.Live ∧ NothingHidden s s' ↔
        SwitchKeeps s (.firebaseAuthenticated attempt (.user identifier))) := by
  let t : App := { s with
    signIns := s.signIns.erase ⟨attempt, .firebaseAuth⟩
    currentUser := some identifier }
  let u : App := t.updateCurrentPlan.output (.signedIn attempt true)
  have hstep : s.firebaseAuthenticated attempt (.user identifier) = u.setupFirestoreManager := by
    simp only [firebaseAuthenticated, if_pos hattempt]
    rfl
  have hloads := userDocumentLoads_success u.firestore identifier
  have hdeleted : (u.afterSetup identifier fun _ => .success).localStorage =
      s.localStorage.deleteAll := by
    rw [localStorage_afterSetup, if_pos hloads]
    rfl
  have hplan : (u.afterSetup identifier fun _ => .success).isLocalStorage = !s.isPurchased := by
    have hu : u.isLocalStorage = !s.isPurchased := by
      change t.updateCurrentPlan.isLocalStorage = _
      rw [isLocalStorage_updateCurrentPlan]
      simp [isSignedIn, t]
    rw [← hu, isLocalStorage, isLocalStorage, currentPlan_afterSetup]
  refine ⟨u.afterSetup identifier fun _ => .success, ⟨_, rfl, ?_, ?_⟩, ?_⟩
  · change settle _ random now s.calls.length 4
      (s.firebaseAuthenticated attempt (.user identifier)) = _
    rw [hstep]
    exact settle_setupFirestoreManager (s := u) rfl 0
  · rw [calls_afterSetup]
    rfl
  · have hleaves : Leaves s (u.afterSetup identifier fun _ => .success) true [] :=
      .realmWrite (hdeleted.trans (LocalStorage.deleteAll_eq _)) (aborted_afterSetup _ _ _)
    have hopen : (u.afterSetup identifier fun _ => .success).Live ↔
        ¬ (s.localStorage.realm.isSome ∧ s.localStorage.writes = .leftOpen) := by
      rw [hleaves.live_iff hlive]
      simp
    rw [hopen, SwitchKeeps]
    refine and_congr_right fun _ => ?_
    cases hp : s.isPurchased with
    | false =>
        rw [nothingHidden_deleted_iff hlocal (by rw [hplan, hp]; rfl) rfl hdeleted]
        simp
    | true =>
        rw [nothingHidden_remote_iff hlocal (by rw [hplan, hp]; rfl)]
        simp only [if_true, remoteCollection_afterSetup u identifier _ hloads,
          Option.some.injEq, exists_eq_left']
        exact forall₂_congr fun f hf => holds_afterSetup u identifier _ hloads hf

theorem switch_purchase {s : App} (hlive : s.Live) (hlocal : s.isLocalStorage = true)
    (o : Output) :
    ((s.setPurchased true).output o).Live ∧ NothingHidden s ((s.setPurchased true).output o) ↔
      (s.currentUser = none ∨
        ∀ f ∈ s.localStorage.objects, ∃ user, s.remoteCollection = some user ∧
          (s.firestore.favorites user).Holds f.originIdentifier) := by
  have hplan : ((s.setPurchased true).output o).isLocalStorage = !s.isSignedIn := by
    change ({ s with isPurchased := true } : App).updateCurrentPlan.isLocalStorage = _
    rw [isLocalStorage_updateCurrentPlan]
    simp [isSignedIn]
  have hlive' : ((s.setPurchased true).output o).Live := hlive
  rw [and_iff_right hlive']
  cases hu : s.currentUser with
  | none =>
      have hsigned : s.isSignedIn = false := by simp [isSignedIn, hu]
      refine iff_of_true (nothingHidden_same hlocal ?_ rfl) (Or.inl rfl)
      rw [hplan, hsigned]
      rfl
  | some user =>
      have hsigned : s.isSignedIn = true := by simp [isSignedIn, hu]
      rw [nothingHidden_remote_iff hlocal (by rw [hplan, hsigned]; rfl)]
      simp only [reduceCtorEq, false_or]
      exact Iff.rfl

/-- In every reachable state that reads the local storage, and for every event that
may switch it, the run of the event ends, and the process survives it and hides nothing
exactly when the condition held before. -/
theorem switch_hides_nothing_iff {s : App} (hs : Running s) (hlocal : s.isLocalStorage = true)
    (input : Input) (hswitch : Switches s input.event) :
    ∃ s', SettlesTo s input s' ∧
      (s'.Live ∧ NothingHidden s s' ↔ SwitchKeeps s input.event) := by
  obtain ⟨event, random, now⟩ := input
  cases event with
  | launch throws => exact switch_launch (registered_of_running hs) hlocal throws random now
  | firebaseAuthenticated attempt result =>
      cases result with
      | user identifier =>
          exact switch_signIn (live_of_running hs) hlocal hswitch identifier random now
      | error => exact hswitch.elim
      | nothing => exact hswitch.elim
  | purchaseCompleted success =>
      cases success with
      | false => exact absurd hswitch (by simp [Switches])
      | true =>
          exact ⟨(s.setPurchased true).output (.purchased true),
            ⟨_, rfl, settle_of_settled 4 (Nat.le_refl _), rfl⟩,
            switch_purchase (live_of_running hs) hlocal _⟩
  | restoreCompleted results =>
      have hrestored : s.restoreCompleted results = (s.setPurchased true).output (.restored true) :=
        if_neg (Nat.not_le.mpr hswitch)
      refine ⟨(s.setPurchased true).output (.restored true), ⟨_, rfl, ?_, rfl⟩,
        switch_purchase (live_of_running hs) hlocal _⟩
      change settle _ random now s.calls.length 4 (s.restoreCompleted results) = _
      rw [hrestored]
      exact settle_of_settled 4 (Nat.le_refl _)
  | _ => exact hswitch.elim

/-- A purchase, a sign-in, a failed transaction, a relaunch without the purchase and
one favourite saved on the device. -/
def lapsedPurchase : List Input :=
  [.purchaseCompleted true, .signIn .google, .didSignInFor .authentication,
    .firebaseAuthenticated 0 (.user "user"), .serve 0 .success, .deliver 0, .serve 0 .success,
    .deliver 0, .completeTransactions [.failed], .launch false, .serve 0 .success, .deliver 0,
    .save (.rProverb ⟨"proverb", 0, "", "", "", false⟩)].map fun event => ⟨event, "favorite", 0⟩

def savedElsewhere : App :=
  { installed with
    firestore :=
      { userExists := fun _ => true
        favorites := fun _ => KeyedStore.empty.put (Document.ofFavorite
          (FFavoriteProverb.ofRProverb "elsewhere" 0 ⟨"2", 0, "", "", "", false⟩)) } }

/-- Two favourites on the device, a purchase, and a sign-in as far as Firebase. -/
def twoBeforeSignIn : List Input :=
  [⟨.save (.rProverb ⟨"1", 0, "", "", "", false⟩), "a", 0⟩,
    ⟨.save (.rProverb ⟨"2", 0, "", "", "", false⟩), "b", 0⟩,
    ⟨.purchaseCompleted true, "", 0⟩, ⟨.signIn .google, "", 0⟩,
    ⟨.didSignInFor .authentication, "", 0⟩]

/-- The sign-in uploads the first favourite and finds the second one. -/
theorem switch_hides_nothing_signIn :
    ∃ s s', Transition.run turn (savedElsewhere.launch false) twoBeforeSignIn = some s ∧
      Returns s "1" ∧ Returns s "2" ∧
      SettlesTo s ⟨.firebaseAuthenticated 2 (.user "user"), "", 0⟩ s' ∧
      s'.Live ∧ NothingHidden s s' := by
  have hrun : ∃ s, Transition.run turn (savedElsewhere.launch false) twoBeforeSignIn = some s ∧
      s.isLocalStorage = true ∧ ⟨2, .firebaseAuth⟩ ∈ s.signIns ∧
      (∃ f ∈ s.localStorage.objects, f.originIdentifier = "1") ∧
      (∃ f ∈ s.localStorage.objects, f.originIdentifier = "2") ∧
      SwitchKeeps s (.firebaseAuthenticated 2 (.user "user")) :=
    ⟨_, rfl, rfl, by decide, by decide, by decide, by decide +kernel⟩
  obtain ⟨s, hs, hlocal, hattempt, hfirst, hsecond, hkeeps⟩ := hrun
  have hrunning : Running s := ⟨savedElsewhere, false, _, hs⟩
  obtain ⟨s', hsettles, hiff⟩ := switch_hides_nothing_iff hrunning hlocal
    ⟨.firebaseAuthenticated 2 (.user "user"), "", 0⟩ hattempt
  exact ⟨s, s', hs, (returns_local hlocal _).mpr hfirst, (returns_local hlocal _).mpr hsecond,
    hsettles, hiff.mpr hkeeps⟩

/-- The purchase switches to the remote storage; the favourite stays on the device. -/
theorem purchase_hides_local_favorite :
    ∃ s s', Transition.run turn (installed.launch false) lapsedPurchase = some s ∧
      s.isLocalStorage = true ∧ Switches s (.purchaseCompleted true) ∧
      SettlesTo s ⟨.purchaseCompleted true, "", 0⟩ s' ∧ ¬ NothingHidden s s' := by
  refine ⟨_, _, rfl, rfl, rfl, ⟨_, rfl, rfl, rfl⟩, fun hall => ?_⟩
  have hvisible := hall "proverb" ((returns_local rfl _).mpr (by decide))
  obtain ⟨user, huser, hholds⟩ := (returns_remote rfl _).mp hvisible
  obtain rfl := Option.some.inj huser
  exact absurd hholds (by decide)

end Proverbs.App
