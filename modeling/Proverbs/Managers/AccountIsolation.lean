import Proverbs.Managers.Firebase.UserData

/-! # Accounts are kept apart

What is stored for a user who is not signed in is neither read nor changed. Everything that
is pending or held on the device was made for another user then, and sends its operations
for that one, so a run commutes with storing something else for the user.
-/

namespace Proverbs.App

/-! ## Nothing works on the account -/

/-- The instance was created for another user, and so was its document. -/
def Elsewhere (user : UserIdentifier) (manager : FirestoreManager) : Prop :=
  manager.currentUserIdentifier ≠ user ∧ manager.favoritesCollection ≠ some user

def callbackManager : Callback → Option FirestoreManager
  | .userDocumentLoaded manager => some manager
  | .userCreated manager => some manager
  | _ => none

/-- The user is not signed in, and nothing that is pending or held was made for them. -/
structure Foreign (user : UserIdentifier) (s : App) : Prop where
  currentUser : s.currentUser ≠ some user
  remoteStorage : ∀ manager ∈ s.remoteStorage, Elsewhere user manager
  operations : ∀ call ∈ s.calls, call.operation.user ≠ user
  managers : ∀ call ∈ s.calls, ∀ manager ∈ callbackManager call.callback,
    Elsewhere user manager

namespace Foreign

variable {user : UserIdentifier} {s s' : App} {manager : FirestoreManager}
  {operation : Operation}

theorem of_same (h : Foreign user s) (hu : s'.currentUser = s.currentUser)
    (hm : s'.remoteStorage = s.remoteStorage) (hc : s'.calls = s.calls) : Foreign user s' := by
  refine ⟨?_, ?_, ?_, ?_⟩
  · rw [hu]
    exact h.currentUser
  · rw [hm]
    exact h.remoteStorage
  · rw [hc]
    exact h.operations
  · rw [hc]
    exact h.managers

theorem call (h : Foreign user s) {callback : Callback} (hoperation : operation.user ≠ user)
    (hmanager : ∀ manager ∈ callbackManager callback, Elsewhere user manager) :
    Foreign user (s.call operation callback) := by
  refine ⟨h.currentUser, h.remoteStorage, fun call hcall => ?_, fun call hcall => ?_⟩
  · rcases List.mem_append.mp hcall with hold | hnew
    · exact h.operations call hold
    · obtain rfl := List.mem_singleton.mp hnew
      exact hoperation
  · rcases List.mem_append.mp hcall with hold | hnew
    · exact h.managers call hold
    · obtain rfl := List.mem_singleton.mp hnew
      exact hmanager

/-- A call whose callback belongs to no instance, to the collection `remoteStorage` has. -/
theorem request (h : Foreign user s) (hm : s.remoteStorage = some manager)
    (hoperation : manager.favoritesCollection = some operation.user) {callback : Callback}
    (hcallback : callbackManager callback = none) : Foreign user (s.call operation callback) := by
  apply h.call
  · intro hsame
    exact (h.remoteStorage manager hm).2 (hoperation.trans (congrArg some hsame))
  · simp [hcallback]

/-! ### What the methods of a FirestoreManager send -/

/-- A method that sends an operation sends it to the collection of its instance. -/
theorem collection_of_sent {α : Type} {answer : α} {send : UserIdentifier → Operation}
    (hsend : ∀ collection, (send collection).user = collection)
    (h : (match manager.favoritesCollection with
      | none => Request.answered answer
      | some collection => .sent (send collection)) = .sent operation) :
    manager.favoritesCollection = some operation.user := by
  split at h
  · simp at h
  · rename_i collection hcollection
    obtain rfl := Request.sent.inj h
    rw [hsend]
    exact hcollection

theorem collection_of_saveAll {proverbs : List FFavoriteProverb}
    (h : manager.saveAll proverbs = .sent operation) :
    manager.favoritesCollection = some operation.user := by
  unfold FirestoreManager.saveAll at h
  split at h
  · simp at h
  · rename_i collection hcollection
    split at h
    · simp at h
    · obtain rfl := Request.sent.inj h
      exact hcollection

/-! ### Requests -/

variable {number : Nat} {ids : ProverbIdentifiers} {random : Identifier} {now : Date}

theorem saveCompleted (h : Foreign user s) (number : Nat) (ids : ProverbIdentifiers)
    (result : Except AppError Proverb) :
    Foreign user (s.saveCompleted number ids result) := by
  cases result <;> exact h.of_same rfl rfl rfl

theorem deleteCompleted (h : Foreign user s) (number : Nat) (ids : ProverbIdentifiers)
    (error : Option AppError) :
    Foreign user (s.deleteCompleted number ids error) := by
  cases error <;> exact h.of_same rfl rfl rfl

theorem checkAndSaveLocal (h : Foreign user s) (proverb : Proverb) :
    Foreign user (s.checkAndSaveLocal proverb random now).1 := by
  cases proverb with
  | rProverb proverb =>
      simp only [App.checkAndSaveLocal]
      split
      · exact h
      · split <;> exact h.of_same rfl rfl rfl
  | rFavorite f => exact h
  | fFavorite f => exact h

theorem checkAndDeleteLocal (h : Foreign user s) {proverb : Proverb} {error : Option AppError}
    (hs : s.checkAndDeleteLocal proverb = some (s', error)) : Foreign user s' := by
  have hdeleted : ∀ f, s.deleteLocal f = some (s', error) → Foreign user s' := by
    intro f hf
    obtain ⟨⟨storage, done⟩, _, hp⟩ := Option.map_eq_some_iff.mp hf
    rw [← (Prod.mk.inj hp).1]
    exact h.of_same rfl rfl rfl
  have hsame : some (s, some (AppError.manager .isNotFavorite)) = some (s', error) →
      Foreign user s' := by
    intro hs
    rw [← (Prod.mk.inj (Option.some.inj hs)).1]
    exact h
  cases proverb with
  | rProverb proverb =>
      simp only [App.checkAndDeleteLocal] at hs
      split at hs
      · exact hdeleted _ hs
      · exact hsame hs
  | rFavorite f => exact hdeleted f hs
  | fFavorite f => exact hsame hs

theorem chackAndSaveRemote (h : Foreign user s) (proverb : Proverb) :
    Foreign user (s.chackAndSaveRemote proverb number ids random now) := by
  cases proverb with
  | rProverb proverb =>
      simp only [App.chackAndSaveRemote]
      split
      · exact h.saveCompleted number ids _
      · rename_i manager hm
        split
        · rename_i operation hsent
          exact h.request hm (collection_of_sent (fun _ => rfl) hsent) rfl
        · exact h.saveCompleted number ids _
  | rFavorite f => exact h.saveCompleted number ids (.error (.manager .isFavorite))
  | fFavorite f => exact h.saveCompleted number ids (.error (.manager .isFavorite))

theorem deleteRemote (h : Foreign user s) (proverb : FFavoriteProverb) :
    Foreign user (s.deleteRemote number ids proverb) := by
  unfold App.deleteRemote
  split
  · exact h.deleteCompleted number ids _
  · rename_i manager hm
    split
    · exact h.of_same rfl rfl rfl
    · rename_i operation hsent
      obtain ⟨collection, hcollection, _, hoperation⟩ := FirestoreManager.delete_sent hsent
      have huser : manager.favoritesCollection = some operation.user := by
        rw [hoperation]
        exact hcollection
      exact h.request hm huser rfl
    · exact h.deleteCompleted number ids _

theorem favoriteFound (h : Foreign user s) (result : Except AppError FFavoriteProverb) :
    Foreign user (s.favoriteFound number ids result) := by
  cases result with
  | ok proverb => exact h.deleteRemote proverb
  | error error => exact h.deleteCompleted number ids (some error)

theorem checkAndDeleteRemote (h : Foreign user s) (proverb : Proverb) :
    Foreign user (s.checkAndDeleteRemote proverb number ids) := by
  cases proverb with
  | rProverb proverb =>
      simp only [App.checkAndDeleteRemote]
      split
      · exact h
      · rename_i manager hm
        split
        · rename_i operation hsent
          exact h.request hm (collection_of_sent (fun _ => rfl) hsent) rfl
        · exact h.favoriteFound _
  | rFavorite f => exact h.deleteCompleted number ids (some (.manager .isNotFavorite))
  | fFavorite f => exact h.deleteRemote f

theorem getAll (h : Foreign user s) : Foreign user (s.getAll number) := by
  unfold App.getAll
  split
  · split <;> exact h.of_same rfl rfl rfl
  · split
    · exact h.of_same rfl rfl rfl
    · rename_i manager hm
      split
      · rename_i operation hsent
        exact h.request hm (collection_of_sent (fun _ => rfl) hsent) rfl
      · exact h.of_same rfl rfl rfl

theorem save (h : Foreign user s) {proverb : Proverb}
    (hs : s.save proverb number random now = some s') : Foreign user s' := by
  have hcalled : Foreign user (s.output (.saveCalled number s.isPurchased s.storedCount)) :=
    h.of_same rfl rfl rfl
  simp only [App.save] at hs
  split at hs
  · split at hs
    · rw [← Option.some.inj hs]
      exact (hcalled.checkAndSaveLocal proverb).saveCompleted number _ _
    · rw [← Option.some.inj hs]
      exact hcalled.chackAndSaveRemote proverb
  · simp at hs

theorem delete (h : Foreign user s) {proverb : Proverb}
    (hs : s.delete proverb number = some s') : Foreign user s' := by
  unfold App.delete at hs
  split at hs
  · split at hs
    · obtain ⟨⟨t, error⟩, ht, rfl⟩ := Option.map_eq_some_iff.mp hs
      exact (h.checkAndDeleteLocal ht).deleteCompleted number _ error
    · rw [← Option.some.inj hs]
      exact h.checkAndDeleteRemote proverb
  · simp at hs

theorem checkCompleted (h : Foreign user s) {completion : CheckCompletion} {result : Bool}
    (hs : s.checkCompleted completion result random now = some s') : Foreign user s' := by
  cases completion with
  | answer number =>
      rw [← Option.some.inj hs]
      exact h.of_same rfl rfl rfl
  | checkAndSaveOrDelete number proverb =>
      cases result with
      | true => exact h.delete hs
      | false => exact h.save hs

theorem isFavorite (h : Foreign user s) {proverb : Proverb} {completion : CheckCompletion}
    (hs : s.isFavorite proverb completion random now = some s') : Foreign user s' := by
  unfold App.isFavorite at hs
  split at hs
  · exact h.checkCompleted hs
  · cases proverb with
    | rProverb proverb =>
        simp only [isFavoriteRemote] at hs
        split at hs
        · exact h.checkCompleted hs
        · rename_i manager hm
          split at hs
          · rename_i operation hsent
            rw [← Option.some.inj hs]
            exact h.request hm (collection_of_sent (fun _ => rfl) hsent) rfl
          · exact h.checkCompleted hs
    | rFavorite f => exact h.checkCompleted hs
    | fFavorite f => exact h.checkCompleted hs

/-! ### Callbacks -/

theorem saveToRemoteStorage (h : Foreign user s) {migration : Migration}
    {proverbs : List RFavoriteProverb}
    (hs : s.saveToRemoteStorage migration proverbs = some s') : Foreign user s' := by
  unfold App.saveToRemoteStorage at hs
  split at hs
  · rw [← Option.some.inj hs]
    exact h.of_same rfl rfl rfl
  · rename_i manager hm
    split at hs
    · split at hs
      · rename_i operation hsent
        rw [← Option.some.inj hs]
        exact h.request hm (collection_of_saveAll hsent) rfl
      · rw [← Option.some.inj hs]
        exact h.of_same rfl rfl rfl
    · simp at hs

theorem favoritesFetched (h : Foreign user s) {migration : Migration}
    {result : Except AppError (List FFavoriteProverb)}
    (hs : s.favoritesFetched migration result = some s') : Foreign user s' := by
  simp only [App.favoritesFetched] at hs
  split at hs
  · split at hs
    · split at hs
      · split at hs
        · exact h.saveToRemoteStorage hs
        · rw [← Option.some.inj hs]
          exact h.of_same rfl rfl rfl
      · simp at hs
    · exact h.saveToRemoteStorage hs
  · exact h.saveToRemoteStorage hs

theorem checkAndMigrate (h : Foreign user s) {other : UserIdentifier}
    (hs : s.checkAndMigrateLocalFavoriteProverbs other = some s') : Foreign user s' := by
  unfold checkAndMigrateLocalFavoriteProverbs at hs
  split at hs
  · rw [← Option.some.inj hs]
    exact h.of_same rfl rfl rfl
  · split at hs
    · split at hs
      · rw [← Option.some.inj hs]
        exact h.of_same rfl rfl rfl
      · rename_i manager hm
        split at hs
        · rename_i operation hsent
          rw [← Option.some.inj hs]
          exact h.request hm (collection_of_sent (fun _ => rfl) hsent) rfl
        · exact h.favoritesFetched hs
    · rw [← Option.some.inj hs]
      exact h.of_same rfl rfl rfl

/-- Giving up a user document leaves the instance with the user it was created for. -/
theorem dropUserDocument (h : Foreign user s) (manager : FirestoreManager) :
    Foreign user (s.dropUserDocument manager) := by
  refine ⟨h.currentUser, ?_, h.operations, h.managers⟩
  intro dropped hdropped
  obtain ⟨remoteStorage, hm, rfl⟩ := Option.map_eq_some_iff.mp hdropped
  have helsewhere := h.remoteStorage remoteStorage hm
  split
  · exact ⟨helsewhere.1, by simp [FirestoreManager.favoritesCollection]⟩
  · exact helsewhere

theorem userDocumentReady (h : Foreign user s) {result : Bool}
    (hs : s.userDocumentReady manager result = some s') : Foreign user s' := by
  unfold App.userDocumentReady at hs
  split at hs
  · exact h.checkAndMigrate hs
  · rw [← Option.some.inj hs]
    exact h.dropUserDocument manager

theorem userDocumentLoaded (h : Foreign user s) (helsewhere : Elsewhere user manager)
    {response : Response} (hs : s.userDocumentLoaded manager response = some s') :
    Foreign user s' := by
  unfold App.userDocumentLoaded at hs
  split at hs
  · exact h.userDocumentReady hs
  · rw [← Option.some.inj hs]
    refine h.call (show (Operation.setUserDocument _).user ≠ user from helsewhere.1) ?_
    intro created hcreated
    obtain rfl := Option.some.inj hcreated
    exact helsewhere
  · exact h.userDocumentReady hs

theorem called (h : Foreign user s) {callback : Callback}
    (hmanager : ∀ manager ∈ callbackManager callback, Elsewhere user manager)
    {response : Response} (hs : s.called callback response random now = some s') :
    Foreign user s' := by
  cases callback with
  | userDocumentLoaded manager => exact h.userDocumentLoaded (hmanager manager rfl) hs
  | userCreated manager => exact h.userDocumentReady hs
  | favoritesFetched migration => exact h.favoritesFetched hs
  | favoritesUploaded migration =>
      rw [← Option.some.inj hs]
      exact h.of_same rfl rfl rfl
  | getAll number =>
      rw [← Option.some.inj hs]
      exact h.of_same rfl rfl rfl
  | isFavorite completion => exact h.checkCompleted hs
  | save number ids proverb =>
      rw [← Option.some.inj hs]
      exact h.saveCompleted number ids _
  | getFavorite number ids =>
      rw [← Option.some.inj hs]
      exact h.favoriteFound _
  | delete number ids =>
      rw [← Option.some.inj hs]
      exact h.deleteCompleted number ids _

theorem serve (h : Foreign user s) (index : Nat) (outcome : Outcome) :
    Foreign user (s.serve index outcome) := by
  unfold App.serve
  split
  · rename_i operation callback hcall
    have hoperation := h.operations _ (List.mem_of_getElem? hcall)
    have hmanager := h.managers _ (List.mem_of_getElem? hcall)
    refine ⟨h.currentUser, h.remoteStorage, fun call hmem => ?_, fun call hmem => ?_⟩
    · rcases List.mem_or_eq_of_mem_set hmem with hold | rfl
      · exact h.operations call hold
      · exact hoperation
    · rcases List.mem_or_eq_of_mem_set hmem with hold | rfl
      · exact h.managers call hold
      · exact hmanager
  · exact h

theorem deliver (h : Foreign user s) {index : Nat}
    (hs : s.deliver index random now = some s') : Foreign user s' := by
  unfold App.deliver at hs
  split at hs
  · rename_i operation callback response hcall
    have herased : Foreign user { s with calls := s.calls.eraseIdx index } :=
      ⟨h.currentUser, h.remoteStorage,
        fun call hmem => h.operations call (List.mem_of_mem_eraseIdx hmem),
        fun call hmem => h.managers call (List.mem_of_mem_eraseIdx hmem)⟩
    exact herased.called (h.managers _ (List.mem_of_getElem? hcall)) hs
  · rw [← Option.some.inj hs]
    exact h

/-! ### The account of the device -/

theorem setupFirestoreManager (h : Foreign user s) : Foreign user s.setupFirestoreManager := by
  unfold App.setupFirestoreManager
  split
  · exact h
  · rename_i other hother
    have hne : other ≠ user := fun hsame => h.currentUser (hsame ▸ hother)
    have helsewhere : Elsewhere user ⟨s.nextReference, other, some other⟩ :=
      ⟨hne, fun hsame => hne (Option.some.inj hsame)⟩
    have hcreated : Foreign user { s with
        remoteStorage := some ⟨s.nextReference, other, some other⟩
        nextReference := s.nextReference + 1 } := by
      refine ⟨h.currentUser, fun manager hm => ?_, h.operations, h.managers⟩
      obtain rfl := Option.some.inj hm
      exact helsewhere
    refine hcreated.call (show (Operation.getUserDocument other).user ≠ user from hne) ?_
    intro manager hm
    obtain rfl := Option.some.inj hm
    exact helsewhere

theorem signInCompleted (h : Foreign user s) (attempt : Nat) (result : Bool) :
    Foreign user (s.signInCompleted attempt result) := by
  have hrefreshed : Foreign user (s.updateCurrentPlan.output (.signedIn attempt result)) :=
    h.of_same rfl rfl rfl
  cases result with
  | false => exact hrefreshed
  | true => exact hrefreshed.setupFirestoreManager

theorem signOut (h : Foreign user s) (throws : Bool) : Foreign user (s.signOut throws).1 := by
  cases throws with
  | true => exact ⟨h.currentUser, by simp [App.signOut, deleteFirestoreManager], h.operations,
      h.managers⟩
  | false => exact ⟨by simp [App.signOut, updateCurrentPlan],
      by simp [App.signOut, deleteFirestoreManager, updateCurrentPlan], h.operations, h.managers⟩

theorem userManagerStart (h : Foreign user s) (throws : Bool) :
    Foreign user (s.userManagerStart throws) := by
  simp only [App.userManagerStart, logoutAtFirstLaunch]
  split
  · exact h.of_same rfl rfl rfl
  · exact (h.signOut throws).of_same rfl rfl rfl

theorem launch (h : s.currentUser ≠ some user) (throws : Bool) :
    Foreign user (s.launch throws) := by
  have hempty : Foreign user s.restarted :=
    ⟨h, by simp [restarted], by simp [restarted], by simp [restarted]⟩
  exact (hempty.userManagerStart throws).setupFirestoreManager

theorem setPurchased (h : Foreign user s) (newValue : Bool) :
    Foreign user (s.setPurchased newValue) := by
  cases newValue <;> exact h.of_same rfl rfl rfl

theorem completeTransactions (h : Foreign user s) (purchases : List TransactionState) :
    Foreign user (s.completeTransactions purchases) := by
  induction purchases generalizing s with
  | nil => exact h
  | cons transaction purchases ih =>
      have hone : Foreign user (s.completeTransaction transaction) := by
        cases transaction with
        | purchased => exact h.setPurchased true
        | restored => exact h.setPurchased true
        | unknown => exact h
        | _ => exact h.setPurchased false
      exact ih hone

end Foreign

/-! ## Every step -/

section Steps

variable {user : UserIdentifier} {s s' : App} {input : Input}

def signsIn (user : UserIdentifier) (event : Event) : Prop :=
  ∃ attempt, event = .firebaseAuthenticated attempt (.user user)

theorem foreign_firebaseAuthenticated (h : Foreign user s) {attempt : Nat} {result : AuthResult}
    (hnever : result ≠ .user user) : Foreign user (s.firebaseAuthenticated attempt result) := by
  have hended : Foreign user { s with
      signIns := s.signIns.erase ⟨attempt, .firebaseAuth⟩ } := h.of_same rfl rfl rfl
  unfold firebaseAuthenticated
  split
  · cases result with
    | user other =>
        have hne : other ≠ user := fun hsame => hnever (hsame ▸ rfl)
        have hsigned : Foreign user { s with
            signIns := s.signIns.erase ⟨attempt, .firebaseAuth⟩, currentUser := some other } :=
          ⟨fun hsame => hne (Option.some.inj hsame), h.remoteStorage, h.operations, h.managers⟩
        exact hsigned.signInCompleted attempt true
    | error => exact hended.signInCompleted attempt false
    | nothing => exact hended.signInCompleted attempt false
  · exact h

theorem foreign_step (h : Foreign user s) (hnever : ¬ signsIn user input.event)
    (hs : step s input = some s') : Foreign user s' := by
  have htake : Foreign user s.takeRequest := h.of_same rfl rfl rfl
  obtain ⟨event, random, now⟩ := input
  cases event with
  | launch throws =>
      rw [← Option.some.inj hs]
      exact Foreign.launch h.currentUser throws
  | userManagerStart throws =>
      rw [← Option.some.inj hs]
      exact h.userManagerStart throws
  | signIn option =>
      rw [← Option.some.inj hs]
      unfold signIn
      split
      · exact htake.of_same rfl rfl rfl
      · cases option <;> exact htake.of_same rfl rfl rfl
  | providerCompleted attempt option credential =>
      have hended : Foreign user { s with
          signIns := s.signIns.erase ⟨attempt, .provider option⟩ } := h.of_same rfl rfl rfl
      rw [← Option.some.inj hs]
      unfold providerCompleted
      split
      · split
        · exact hended.of_same rfl rfl rfl
        · exact hended.signInCompleted attempt false
      · exact h
  | didSignInFor result =>
      simp only [step, didSignInFor] at hs
      split at hs
      · simp at hs
      · rw [← Option.some.inj hs]
        exact h.of_same rfl rfl rfl
      · rw [← Option.some.inj hs]
        exact h
      · rename_i attempt _ _
        rw [← Option.some.inj hs]
        exact (h.signInCompleted attempt false).of_same rfl rfl rfl
  | firebaseAuthenticated attempt result =>
      rw [← Option.some.inj hs]
      exact foreign_firebaseAuthenticated h fun hsame => hnever ⟨attempt, hsame ▸ rfl⟩
  | signOut throws =>
      rw [← Option.some.inj hs]
      exact (h.signOut throws).of_same rfl rfl rfl
  | purchaseCompleted success =>
      rw [← Option.some.inj hs]
      cases success <;> exact (h.setPurchased _).of_same rfl rfl rfl
  | restoreCompleted results =>
      rw [← Option.some.inj hs]
      unfold restoreCompleted
      split <;> exact (h.setPurchased _).of_same rfl rfl rfl
  | completeTransactions purchases =>
      rw [← Option.some.inj hs]
      exact h.completeTransactions purchases
  | getAll =>
      rw [← Option.some.inj hs]
      exact htake.getAll
  | isFavorite proverb => exact htake.isFavorite hs
  | save proverb => exact htake.save hs
  | delete proverb => exact htake.delete hs
  | checkAndSaveOrDeleteFavorite proverb => exact htake.isFavorite hs
  | serve index outcome =>
      rw [← Option.some.inj hs]
      exact h.serve index outcome
  | deliver index => exact h.deliver hs
  | realmWrites throw =>
      rw [← Option.some.inj hs]
      exact h.of_same rfl rfl rfl

def withUserData (user : UserIdentifier) (data : UserData) (s : App) : App :=
  s.withFirestore (s.firestore.withUserData user data)

theorem storedCount_withUserData (h : Foreign user s) (data : UserData) :
    (withUserData user data s).storedCount = s.storedCount := by
  have hremote : (withUserData user data s).remoteCount = s.remoteCount := by
    simp only [remoteCount, show (withUserData user data s).remoteCollection =
      s.remoteCollection from rfl]
    cases hcollection : s.remoteCollection with
    | none => rfl
    | some other =>
        obtain ⟨manager, hm, hother⟩ := Option.bind_eq_some_iff.mp hcollection
        have hne : other ≠ user := fun hsame => (h.remoteStorage manager hm).2 (hsame ▸ hother)
        exact congrArg (fun collection : Collection => collection.entries.length)
          (Firestore.favorites_withUserData s.firestore data hne)
  unfold storedCount
  rw [hremote]
  rfl

theorem serve_withUserData (h : Foreign user s) (data : UserData) (index : Nat)
    (outcome : Outcome) :
    (withUserData user data s).serve index outcome =
      withUserData user data (s.serve index outcome) := by
  simp only [serve, show (withUserData user data s).calls = s.calls from rfl]
  split
  · rename_i operation callback hcall
    have hserve := Firestore.serve_withUserData s.firestore data
      (h.operations _ (List.mem_of_getElem? hcall)) outcome
    simp only [show (withUserData user data s).firestore =
      s.firestore.withUserData user data from rfl, hserve]
    rfl
  · rfl

/-- One turn does the same whatever is stored for the user, and leaves that alone. -/
theorem step_withUserData (h : Foreign user s) (data : UserData) (input : Input) :
    step (withUserData user data s) input = (step s input).map (withUserData user data) := by
  by_cases hserve : ∃ index outcome, input.event = .serve index outcome
  · obtain ⟨event, random, now⟩ := input
    obtain ⟨index, outcome, rfl⟩ := hserve
    exact congrArg some (serve_withUserData h data index outcome)
  · have hother : ∀ index outcome, input.event ≠ .serve index outcome := by
      intro index outcome hsame
      exact hserve ⟨index, outcome, hsame⟩
    have hstep : step (withUserData user data s) input = _ :=
      step_withFirestore (storedCount_withUserData h data) hother
    rw [hstep]
    cases hs : step s input with
    | none => rfl
    | some s' =>
        simp only [Option.map_some, withUserData, firestore_step hother hs]

theorem run_withUserData (h : Foreign user s) (data : UserData) {inputs : List Input}
    (hnever : ∀ input ∈ inputs, ¬ signsIn user input.event) :
    Transition.run step (withUserData user data s) inputs =
      (Transition.run step s inputs).map (withUserData user data) := by
  induction inputs generalizing s with
  | nil => rfl
  | cons input inputs ih =>
      rw [Transition.run_cons, Transition.run_cons, step_withUserData h data input]
      cases hs : step s input with
      | none => rfl
      | some s' =>
          have hforeign := foreign_step h (hnever input List.mem_cons_self) hs
          exact ih hforeign fun other hother => hnever other (List.mem_cons_of_mem input hother)

end Steps

/-- In a run from a launch in which a user is not signed in, the app does and hands out
the same whatever Firestore stores for that user, and what it stores is there at the end. -/
theorem other_account_untouched {device : App} {user : UserIdentifier} (throws : Bool)
    {inputs : List Input} (hsignedOut : device.currentUser ≠ some user)
    (hnever : ∀ input ∈ inputs, ∀ attempt,
      input.event ≠ .firebaseAuthenticated attempt (.user user)) :
    (∀ data, Transition.run step ((withUserData user data device).launch throws) inputs =
      (Transition.run step (device.launch throws) inputs).map (withUserData user data)) ∧
    ∀ t, Transition.run step (device.launch throws) inputs = some t →
      t.firestore.userData user = device.firestore.userData user := by
  have hforeign : Foreign user (device.launch throws) := Foreign.launch hsignedOut throws
  have hnever' : ∀ input ∈ inputs, ¬ signsIn user input.event :=
    fun input hinput ⟨attempt, hsame⟩ => hnever input hinput attempt hsame
  have hstored : (device.launch throws).firestore = device.firestore := by
    have heffect : Extends IsLoad (fun _ => True) _ (device.launch throws) :=
      effect_launch device throws
    exact heffect.firestore
  have hrun : ∀ data, Transition.run step ((withUserData user data device).launch throws) inputs =
      (Transition.run step (device.launch throws) inputs).map (withUserData user data) := by
    intro data
    have hlaunch : (withUserData user data device).launch throws =
        withUserData user data (device.launch throws) := by
      rw [withUserData, launch_withFirestore, withUserData, hstored]
    rw [hlaunch]
    exact run_withUserData hforeign data hnever'
  refine ⟨hrun, fun t ht => ?_⟩
  have hown := hrun (device.firestore.userData user)
  have hsame : withUserData user (device.firestore.userData user) device = device := by
    rw [withUserData, Firestore.withUserData_userData]
    rfl
  rw [hsame, ht, Option.map_some, Option.some.injEq] at hown
  rw [hown]
  exact Firestore.userData_withUserData _ _

/-- "first" signs in and toggles a proverb; "second" does not. -/
theorem other_account_untouched_toggle :
    let inputs : List Input :=
      [.purchaseCompleted true, .signIn .google, .didSignInFor .authentication,
        .firebaseAuthenticated 0 (.user "first"), .serve 0 .success, .deliver 0,
        .checkAndSaveOrDeleteFavorite (.rProverb ⟨"proverb", 0, "", "", "", false⟩)].map
        fun event => ⟨event, "favorite", 0⟩
    (∀ data,
      Transition.run step ((withUserData "second" data installed).launch false) inputs =
        (Transition.run step (installed.launch false) inputs).map
          (withUserData "second" data)) ∧
    ∀ t, Transition.run step (installed.launch false) inputs = some t →
      t.firestore.userData "second" = installed.firestore.userData "second" :=
  other_account_untouched false (by decide) (by simp)

end Proverbs.App
