import Proverbs.Managers.Effects

/-! # What Firestore keeps for a user

An operation works on the data of the user it names, and nothing but carrying an operation
out reads Firestore or changes it: the methods and closures of the app work with the
responses they are given.
-/

namespace Proverbs

/-- What Firestore keeps for one user. -/
structure UserData where
  userExists : Bool
  favorites : Collection

def Firestore.userData (firestore : Firestore) (user : UserIdentifier) : UserData :=
  ⟨firestore.userExists user, firestore.favorites user⟩

def Firestore.withUserData (firestore : Firestore) (user : UserIdentifier) (data : UserData) :
    Firestore where
  userExists := Function.update firestore.userExists user data.userExists
  favorites := Function.update firestore.favorites user data.favorites

def Operation.user : Operation → UserIdentifier
  | .getUserDocument user => user
  | .setUserDocument user => user
  | .getDocuments user => user
  | .whereOriginIdentifier user _ => user
  | .commit user _ => user
  | .setData user _ => user
  | .deleteDocument user _ => user

namespace Firestore

variable (firestore : Firestore) {user other : UserIdentifier} (data : UserData)

theorem withUserData_userData :
    firestore.withUserData user (firestore.userData user) = firestore := by
  simp [withUserData, Firestore.userData]

theorem userData_withUserData : (firestore.withUserData user data).userData user = data := by
  simp [withUserData, Firestore.userData]

theorem userExists_withUserData (h : other ≠ user) :
    (firestore.withUserData user data).userExists other = firestore.userExists other := by
  simp [withUserData, h]

theorem favorites_withUserData (h : other ≠ user) :
    (firestore.withUserData user data).favorites other = firestore.favorites other := by
  simp [withUserData, h]

theorem setUser_withUserData (h : other ≠ user) :
    (firestore.withUserData user data).setUser other =
      (firestore.setUser other).withUserData user data := by
  simp only [setUser, withUserData, Function.update_comm h]

theorem updateFavorites_withUserData (h : other ≠ user) (change : Collection → Collection) :
    (firestore.withUserData user data).updateFavorites other change =
      (firestore.updateFavorites other change).withUserData user data := by
  simp only [updateFavorites, favorites_withUserData firestore data h]
  simp only [withUserData, Function.update_comm h]

theorem query_withUserData (outcome : Outcome) (found : Response) :
    (firestore.withUserData user data).query outcome found =
      Prod.map (·.withUserData user data) id (firestore.query outcome found) := by
  cases outcome <;> rfl

theorem write_withUserData (outcome : Outcome) (written : Firestore) :
    (firestore.withUserData user data).write outcome (written.withUserData user data) =
      Prod.map (·.withUserData user data) id (firestore.write outcome written) := by
  cases outcome <;> rfl

/-- An operation on another account gets the same response and makes the same change. -/
theorem serve_withUserData {operation : Operation} (h : operation.user ≠ user)
    (outcome : Outcome) :
    (firestore.withUserData user data).serve operation outcome =
      Prod.map (·.withUserData user data) id (firestore.serve operation outcome) := by
  cases operation with
  | getUserDocument other =>
      have hother : other ≠ user := h
      simp only [serve, userExists_withUserData firestore data hother]
      exact query_withUserData firestore data outcome _
  | setUserDocument other =>
      have hother : other ≠ user := h
      simp only [serve, setUser_withUserData firestore data hother]
      exact write_withUserData firestore data outcome _
  | getDocuments other =>
      have hother : other ≠ user := h
      simp only [serve, favorites_withUserData firestore data hother]
      exact query_withUserData firestore data outcome _
  | whereOriginIdentifier other identifier =>
      have hother : other ≠ user := h
      simp only [serve, favorites_withUserData firestore data hother]
      exact query_withUserData firestore data outcome _
  | commit other batch =>
      have hother : other ≠ user := h
      simp only [serve, updateFavorites_withUserData firestore data hother]
      exact write_withUserData firestore data outcome _
  | setData other proverb =>
      have hother : other ≠ user := h
      simp only [serve, updateFavorites_withUserData firestore data hother]
      exact write_withUserData firestore data outcome _
  | deleteDocument other documentID =>
      have hother : other ≠ user := h
      simp only [serve, updateFavorites_withUserData firestore data hother]
      exact write_withUserData firestore data outcome _

end Firestore

namespace App

/-! ## The device does not look into Firestore -/

def withFirestore (s : App) (firestore : Firestore) : App := { s with firestore := firestore }

section Device

variable (s : App) (firestore : Firestore) (request : Nat) (ids : ProverbIdentifiers)

@[simp] theorem localStorage_withFirestore :
    (s.withFirestore firestore).localStorage = s.localStorage := rfl

@[simp] theorem remoteStorage_withFirestore :
    (s.withFirestore firestore).remoteStorage = s.remoteStorage := rfl

@[simp] theorem isLocalStorage_withFirestore :
    (s.withFirestore firestore).isLocalStorage = s.isLocalStorage := rfl

@[simp] theorem readable_withFirestore (proverb : Proverb) :
    (s.withFirestore firestore).readable proverb = s.readable proverb := by
  cases proverb <;> rfl

theorem saveCompleted_withFirestore (result : Except AppError Proverb) :
    (s.withFirestore firestore).saveCompleted request ids result =
      (s.saveCompleted request ids result).withFirestore firestore := by
  cases result <;> rfl

theorem deleteCompleted_withFirestore (error : Option AppError) :
    (s.withFirestore firestore).deleteCompleted request ids error =
      (s.deleteCompleted request ids error).withFirestore firestore := by
  cases error <;> rfl

theorem checkAndSaveLocal_withFirestore (proverb : Proverb) (random : Identifier) (now : Date) :
    (s.withFirestore firestore).checkAndSaveLocal proverb random now =
      Prod.map (·.withFirestore firestore) id (s.checkAndSaveLocal proverb random now) := by
  cases proverb with
  | rProverb proverb =>
      have hlimit : ((s.withFirestore firestore).hasRestriction &&
            decide (freeMaxCount ≤ (s.withFirestore firestore).getLocalCount)) =
          (s.hasRestriction && decide (freeMaxCount ≤ s.getLocalCount)) := rfl
      simp only [checkAndSaveLocal, hlimit]
      split
      · rfl
      · rw [localStorage_withFirestore]
        by_cases hdone :
            (s.localStorage.saveUpdate (RFavoriteProverb.ofRProverb random now proverb)).2 = true
        · simp only [hdone, if_true]
          rfl
        · simp only [hdone]
          rfl
  | rFavorite f => rfl
  | fFavorite f => rfl

theorem deleteLocal_withFirestore (f : RFavoriteProverb) :
    (s.withFirestore firestore).deleteLocal f =
      (s.deleteLocal f).map (Prod.map (·.withFirestore firestore) id) := by
  simp only [deleteLocal, Option.map_map]
  rfl

theorem checkAndDeleteLocal_withFirestore (proverb : Proverb) :
    (s.withFirestore firestore).checkAndDeleteLocal proverb =
      (s.checkAndDeleteLocal proverb).map (Prod.map (·.withFirestore firestore) id) := by
  cases proverb with
  | rProverb proverb =>
      simp only [checkAndDeleteLocal]
      simp only [localStorage_withFirestore]
      cases s.localStorage.get RFavoriteProverb.originIdentifier proverb.identifier with
      | some f => exact deleteLocal_withFirestore s firestore f
      | none => rfl
  | rFavorite f => exact deleteLocal_withFirestore s firestore f
  | fFavorite f => rfl

theorem chackAndSaveRemote_withFirestore (proverb : Proverb) (random : Identifier) (now : Date) :
    (s.withFirestore firestore).chackAndSaveRemote proverb request ids random now =
      (s.chackAndSaveRemote proverb request ids random now).withFirestore firestore := by
  cases proverb with
  | rProverb proverb =>
      simp only [chackAndSaveRemote]
      simp only [remoteStorage_withFirestore]
      cases s.remoteStorage with
      | none => exact saveCompleted_withFirestore s firestore request ids _
      | some manager =>
          simp only
          cases manager.save (FFavoriteProverb.ofRProverb random now proverb) with
          | sent operation => rfl
          | answered result => exact saveCompleted_withFirestore s firestore request ids _
  | rFavorite f => rfl
  | fFavorite f => rfl

theorem deleteRemote_withFirestore (proverb : FFavoriteProverb) :
    (s.withFirestore firestore).deleteRemote request ids proverb =
      (s.deleteRemote request ids proverb).withFirestore firestore := by
  simp only [deleteRemote]
  simp only [remoteStorage_withFirestore]
  cases s.remoteStorage with
  | none => rfl
  | some manager =>
      simp only
      cases manager.delete proverb with
      | none => rfl
      | some sent =>
          cases sent with
          | sent operation => rfl
          | answered error => exact deleteCompleted_withFirestore s firestore request ids error

theorem favoriteFound_withFirestore (result : Except AppError FFavoriteProverb) :
    (s.withFirestore firestore).favoriteFound request ids result =
      (s.favoriteFound request ids result).withFirestore firestore := by
  cases result with
  | ok proverb => exact deleteRemote_withFirestore s firestore request ids proverb
  | error error => rfl

theorem checkAndDeleteRemote_withFirestore (proverb : Proverb) :
    (s.withFirestore firestore).checkAndDeleteRemote proverb request ids =
      (s.checkAndDeleteRemote proverb request ids).withFirestore firestore := by
  cases proverb with
  | rProverb proverb =>
      simp only [checkAndDeleteRemote]
      simp only [remoteStorage_withFirestore]
      cases s.remoteStorage with
      | none => rfl
      | some manager =>
          simp only
          cases manager.getFavorite proverb.identifier with
          | sent operation => rfl
          | answered result => exact favoriteFound_withFirestore s firestore request ids result
  | rFavorite f => rfl
  | fFavorite f => exact deleteRemote_withFirestore s firestore request ids f

theorem getAll_withFirestore :
    (s.withFirestore firestore).getAll request = (s.getAll request).withFirestore firestore := by
  unfold getAll
  by_cases hlocal : s.isLocalStorage = true
  · rw [if_pos hlocal, if_pos ((isLocalStorage_withFirestore s firestore).trans hlocal),
      localStorage_withFirestore]
    cases s.localStorage.getAll <;> rfl
  · rw [if_neg hlocal, if_neg (isLocalStorage_withFirestore s firestore ▸ hlocal),
      remoteStorage_withFirestore]
    cases s.remoteStorage with
    | none => rfl
    | some manager =>
        simp only
        cases manager.getAllFavoriteProverbs <;> rfl

/-- A call of `save` records how much its storage holds, and reads nothing else. -/
theorem save_withFirestore (hcount : (s.withFirestore firestore).storedCount = s.storedCount)
    (proverb : Proverb) (random : Identifier) (now : Date) :
    (s.withFirestore firestore).save proverb request random now =
      (s.save proverb request random now).map (·.withFirestore firestore) := by
  have hcalled : (s.withFirestore firestore).output
        (.saveCalled request (s.withFirestore firestore).isPurchased
          (s.withFirestore firestore).storedCount) =
      (s.output (.saveCalled request s.isPurchased s.storedCount)).withFirestore firestore := by
    rw [hcount]
    rfl
  simp only [save, hcalled]
  generalize s.output (.saveCalled request s.isPurchased s.storedCount) = t
  by_cases hreadable : s.readable proverb = true
  · rw [if_pos hreadable, if_pos ((readable_withFirestore s firestore proverb).trans hreadable)]
    by_cases hlocal : t.isLocalStorage = true
    · rw [if_pos hlocal, if_pos ((isLocalStorage_withFirestore t firestore).trans hlocal),
        checkAndSaveLocal_withFirestore]
      exact congrArg some (saveCompleted_withFirestore _ firestore request _ _)
    · rw [if_neg hlocal, if_neg (isLocalStorage_withFirestore t firestore ▸ hlocal),
        chackAndSaveRemote_withFirestore]
      rfl
  · rw [if_neg hreadable, if_neg (readable_withFirestore s firestore proverb ▸ hreadable)]
    rfl

theorem delete_withFirestore (proverb : Proverb) :
    (s.withFirestore firestore).delete proverb request =
      (s.delete proverb request).map (·.withFirestore firestore) := by
  unfold delete
  by_cases hreadable : s.readable proverb = true
  · rw [if_pos hreadable, if_pos ((readable_withFirestore s firestore proverb).trans hreadable)]
    by_cases hlocal : s.isLocalStorage = true
    · rw [if_pos hlocal, if_pos ((isLocalStorage_withFirestore s firestore).trans hlocal),
        checkAndDeleteLocal_withFirestore, Option.map_map, Option.map_map]
      congr 1
      funext result
      exact deleteCompleted_withFirestore result.1 firestore request _ result.2
    · rw [if_neg hlocal, if_neg (isLocalStorage_withFirestore s firestore ▸ hlocal),
        checkAndDeleteRemote_withFirestore]
      rfl
  · rw [if_neg hreadable, if_neg (readable_withFirestore s firestore proverb ▸ hreadable)]
    rfl

theorem checkCompleted_withFirestore
    (hcount : (s.withFirestore firestore).storedCount = s.storedCount)
    (completion : CheckCompletion) (result : Bool) (random : Identifier) (now : Date) :
    (s.withFirestore firestore).checkCompleted completion result random now =
      (s.checkCompleted completion result random now).map (·.withFirestore firestore) := by
  cases completion with
  | answer request => rfl
  | checkAndSaveOrDelete request proverb =>
      cases result with
      | true => exact delete_withFirestore s firestore request proverb
      | false => exact save_withFirestore s firestore request hcount proverb random now

theorem isFavorite_withFirestore
    (hcount : (s.withFirestore firestore).storedCount = s.storedCount)
    (proverb : Proverb) (completion : CheckCompletion) (random : Identifier) (now : Date) :
    (s.withFirestore firestore).isFavorite proverb completion random now =
      (s.isFavorite proverb completion random now).map (·.withFirestore firestore) := by
  have hchecked := fun result =>
    checkCompleted_withFirestore s firestore hcount completion result random now
  unfold isFavorite
  by_cases hlocal : s.isLocalStorage = true
  · rw [if_pos hlocal, if_pos ((isLocalStorage_withFirestore s firestore).trans hlocal)]
    exact hchecked (s.isFavoriteLocal proverb)
  · rw [if_neg hlocal, if_neg (isLocalStorage_withFirestore s firestore ▸ hlocal)]
    cases proverb with
    | rProverb proverb =>
        simp only [isFavoriteRemote, remoteStorage_withFirestore]
        cases s.remoteStorage with
        | none => exact hchecked false
        | some manager =>
            simp only
            cases manager.isFavorite proverb.identifier with
            | sent operation => rfl
            | answered result => exact hchecked result
    | rFavorite f => exact hchecked true
    | fFavorite f => exact hchecked true

/-! ### The migration and the account -/

theorem saveToRemoteStorage_withFirestore (migration : Migration)
    (proverbs : List RFavoriteProverb) :
    (s.withFirestore firestore).saveToRemoteStorage migration proverbs =
      (s.saveToRemoteStorage migration proverbs).map (·.withFirestore firestore) := by
  have hsame : proverbs.all (s.withFirestore firestore).localStorage.isValid =
      proverbs.all s.localStorage.isValid := rfl
  simp only [saveToRemoteStorage, remoteStorage_withFirestore]
  cases s.remoteStorage with
  | none => rfl
  | some manager =>
      simp only
      by_cases hvalid : proverbs.all s.localStorage.isValid = true
      · rw [if_pos hvalid, if_pos (hsame.trans hvalid)]
        cases manager.saveAll (proverbs.map FFavoriteProverb.ofRFavoriteProverb) <;> rfl
      · rw [if_neg hvalid, if_neg (hsame ▸ hvalid)]
        rfl

theorem favoritesFetched_withFirestore (migration : Migration)
    (result : Except AppError (List FFavoriteProverb)) :
    (s.withFirestore firestore).favoritesFetched migration result =
      (s.favoritesFetched migration result).map (·.withFirestore firestore) := by
  cases result with
  | error error => exact saveToRemoteStorage_withFirestore s firestore migration _
  | ok favorites =>
      simp only [favoritesFetched, localStorage_withFirestore, saveToRemoteStorage_withFirestore]
      split
      · split
        · split <;> rfl
        · rfl
      · rfl

theorem checkAndMigrate_withFirestore (user : UserIdentifier) :
    (s.withFirestore firestore).checkAndMigrateLocalFavoriteProverbs user =
      (s.checkAndMigrateLocalFavoriteProverbs user).map (·.withFirestore firestore) := by
  simp only [checkAndMigrateLocalFavoriteProverbs, remoteStorage_withFirestore,
    localStorage_withFirestore]
  cases s.localStorage.getAll with
  | none => rfl
  | some localProverbs =>
      simp only
      split
      · cases s.remoteStorage with
        | none => rfl
        | some manager =>
            simp only
            cases manager.getAllFavoriteProverbs with
            | sent operation => rfl
            | answered result => exact favoritesFetched_withFirestore s firestore _ result
      · rfl

theorem userDocumentReady_withFirestore (manager : FirestoreManager) (result : Bool) :
    (s.withFirestore firestore).userDocumentReady manager result =
      (s.userDocumentReady manager result).map (·.withFirestore firestore) := by
  cases result with
  | true => exact checkAndMigrate_withFirestore s firestore _
  | false => rfl

theorem userDocumentLoaded_withFirestore (manager : FirestoreManager) (response : Response) :
    (s.withFirestore firestore).userDocumentLoaded manager response =
      (s.userDocumentLoaded manager response).map (·.withFirestore firestore) := by
  unfold userDocumentLoaded
  split
  · exact userDocumentReady_withFirestore s firestore manager true
  · rfl
  · exact userDocumentReady_withFirestore s firestore manager false

theorem called_withFirestore (hcount : (s.withFirestore firestore).storedCount = s.storedCount)
    (callback : Callback) (response : Response) (random : Identifier) (now : Date) :
    (s.withFirestore firestore).called callback response random now =
      (s.called callback response random now).map (·.withFirestore firestore) := by
  cases callback with
  | userDocumentLoaded manager => exact userDocumentLoaded_withFirestore s firestore manager _
  | userCreated manager => exact userDocumentReady_withFirestore s firestore manager _
  | favoritesFetched migration => exact favoritesFetched_withFirestore s firestore migration _
  | favoritesUploaded migration => rfl
  | getAll request => rfl
  | isFavorite completion => exact checkCompleted_withFirestore s firestore hcount completion _ _ _
  | save request ids proverb =>
      exact congrArg some (saveCompleted_withFirestore s firestore request ids _)
  | getFavorite request ids =>
      exact congrArg some (favoriteFound_withFirestore s firestore request ids _)
  | delete request ids =>
      exact congrArg some (deleteCompleted_withFirestore s firestore request ids _)

theorem deliver_withFirestore (hcount : (s.withFirestore firestore).storedCount = s.storedCount)
    (index : Nat) (random : Identifier) (now : Date) :
    (s.withFirestore firestore).deliver index random now =
      (s.deliver index random now).map (·.withFirestore firestore) := by
  simp only [deliver, show (s.withFirestore firestore).calls = s.calls from rfl]
  split
  · exact called_withFirestore { s with calls := s.calls.eraseIdx index } firestore hcount _ _ _ _
  · rfl

theorem setupFirestoreManager_withFirestore :
    (s.withFirestore firestore).setupFirestoreManager =
      s.setupFirestoreManager.withFirestore firestore := by
  simp only [setupFirestoreManager, show (s.withFirestore firestore).currentUser = s.currentUser
    from rfl]
  cases s.currentUser <;> rfl

theorem signInCompleted_withFirestore (attempt : Nat) (result : Bool) :
    (s.withFirestore firestore).signInCompleted attempt result =
      (s.signInCompleted attempt result).withFirestore firestore := by
  cases result with
  | false => rfl
  | true =>
      exact setupFirestoreManager_withFirestore
        (s.updateCurrentPlan.output (.signedIn attempt true)) firestore

theorem signIn_withFirestore (option : Login) (attempt : Nat) :
    (s.withFirestore firestore).signIn option attempt =
      (s.signIn option attempt).withFirestore firestore := by
  unfold signIn
  by_cases hallowed : (!s.canSignIn) = true
  · rw [if_pos hallowed, if_pos (show (!(s.withFirestore firestore).canSignIn) = true
      from hallowed)]
    rfl
  · rw [if_neg hallowed, if_neg (show ¬ (!(s.withFirestore firestore).canSignIn) = true
      from hallowed)]
    cases option <;> rfl

theorem providerCompleted_withFirestore (attempt : Nat) (option : Login) (credential : Bool) :
    (s.withFirestore firestore).providerCompleted attempt option credential =
      (s.providerCompleted attempt option credential).withFirestore firestore := by
  unfold providerCompleted
  by_cases hpending : (⟨attempt, .provider option⟩ : SignIn) ∈ s.signIns
  · rw [if_pos hpending, if_pos (show _ ∈ (s.withFirestore firestore).signIns from hpending)]
    cases credential with
    | true => rfl
    | false =>
        exact signInCompleted_withFirestore
          { s with signIns := s.signIns.erase ⟨attempt, .provider option⟩ } firestore
          attempt false
  · rw [if_neg hpending, if_neg (show _ ∉ (s.withFirestore firestore).signIns from hpending)]

theorem didSignInFor_withFirestore (result : GoogleResult) :
    (s.withFirestore firestore).didSignInFor result =
      (s.didSignInFor result).map (·.withFirestore firestore) := by
  simp only [didSignInFor, show (s.withFirestore firestore).googleCompletion =
    s.googleCompletion from rfl]
  cases result <;> cases s.googleCompletion <;> rfl

theorem firebaseAuthenticated_withFirestore (attempt : Nat) (result : AuthResult) :
    (s.withFirestore firestore).firebaseAuthenticated attempt result =
      (s.firebaseAuthenticated attempt result).withFirestore firestore := by
  unfold firebaseAuthenticated
  by_cases hpending : (⟨attempt, .firebaseAuth⟩ : SignIn) ∈ s.signIns
  · rw [if_pos hpending, if_pos (show _ ∈ (s.withFirestore firestore).signIns from hpending)]
    cases result with
    | user other =>
        exact signInCompleted_withFirestore
          { s with
            signIns := s.signIns.erase ⟨attempt, .firebaseAuth⟩, currentUser := some other }
          firestore attempt true
    | error =>
        exact signInCompleted_withFirestore
          { s with signIns := s.signIns.erase ⟨attempt, .firebaseAuth⟩ } firestore attempt false
    | nothing =>
        exact signInCompleted_withFirestore
          { s with signIns := s.signIns.erase ⟨attempt, .firebaseAuth⟩ } firestore attempt false
  · rw [if_neg hpending, if_neg (show _ ∉ (s.withFirestore firestore).signIns from hpending)]

theorem signOut_withFirestore (throws : Bool) :
    (s.withFirestore firestore).signOut throws =
      Prod.map (·.withFirestore firestore) id (s.signOut throws) := by
  cases throws <;> rfl

theorem userManagerStart_withFirestore (throws : Bool) :
    (s.withFirestore firestore).userManagerStart throws =
      (s.userManagerStart throws).withFirestore firestore := by
  simp only [userManagerStart, logoutAtFirstLaunch, signOut_withFirestore,
    show (s.withFirestore firestore).firstLaunchFlag = s.firstLaunchFlag from rfl]
  cases s.firstLaunchFlag <;> rfl

theorem launch_withFirestore (throws : Bool) :
    (s.withFirestore firestore).launch throws = (s.launch throws).withFirestore firestore := by
  unfold launch
  rw [← setupFirestoreManager_withFirestore, ← userManagerStart_withFirestore]
  rfl

theorem restoreCompleted_withFirestore (results : RestoreResults) :
    (s.withFirestore firestore).restoreCompleted results =
      (s.restoreCompleted results).withFirestore firestore := by
  unfold restoreCompleted
  split <;> rfl

theorem completeTransactions_withFirestore (purchases : List TransactionState) :
    (s.withFirestore firestore).completeTransactions purchases =
      (s.completeTransactions purchases).withFirestore firestore := by
  induction purchases generalizing s with
  | nil => rfl
  | cons transaction purchases ih =>
      have hone : (s.withFirestore firestore).completeTransaction transaction =
          (s.completeTransaction transaction).withFirestore firestore := by
        cases transaction <;> rfl
      simp only [completeTransactions, List.foldl_cons, hone]
      exact ih _

end Device

/-! ### Every turn -/

section Steps

variable {s s' : App} {input : Input}

/-- Every turn but Firestore's own is the same whatever Firestore holds. -/
theorem step_withFirestore {firestore : Firestore}
    (hcount : (s.withFirestore firestore).storedCount = s.storedCount)
    (hserve : ∀ index outcome, input.event ≠ .serve index outcome) :
    step (s.withFirestore firestore) input =
      (step s input).map (·.withFirestore firestore) := by
  obtain ⟨event, random, now⟩ := input
  cases event with
  | launch throws => exact congrArg some (launch_withFirestore s firestore throws)
  | userManagerStart throws =>
      exact congrArg some (userManagerStart_withFirestore s firestore throws)
  | signIn option => exact congrArg some (signIn_withFirestore s.takeRequest firestore _ _)
  | providerCompleted attempt option credential =>
      exact congrArg some (providerCompleted_withFirestore s firestore _ _ _)
  | didSignInFor result => exact didSignInFor_withFirestore s firestore result
  | firebaseAuthenticated attempt result =>
      exact congrArg some (firebaseAuthenticated_withFirestore s firestore attempt result)
  | signOut throws => cases throws <;> rfl
  | purchaseCompleted success => cases success <;> rfl
  | restoreCompleted results =>
      exact congrArg some (restoreCompleted_withFirestore s firestore results)
  | completeTransactions purchases =>
      exact congrArg some (completeTransactions_withFirestore s firestore purchases)
  | getAll => exact congrArg some (getAll_withFirestore s.takeRequest firestore _)
  | isFavorite proverb => exact isFavorite_withFirestore s.takeRequest firestore hcount _ _ _ _
  | save proverb => exact save_withFirestore s.takeRequest firestore _ hcount _ _ _
  | delete proverb => exact delete_withFirestore s.takeRequest firestore _ _
  | checkAndSaveOrDeleteFavorite proverb =>
      exact isFavorite_withFirestore s.takeRequest firestore hcount _ _ _ _
  | serve index outcome => exact absurd rfl (hserve index outcome)
  | deliver index => exact deliver_withFirestore s firestore hcount index random now
  | realmWrites throw => rfl

theorem firestore_step (hserve : ∀ index outcome, input.event ≠ .serve index outcome)
    (hs : step s input = some s') : s'.firestore = s.firestore := by
  cases step_effect hs with
  | launched throws random now hlaunch =>
      rw [hlaunch]
      have heffect : Extends IsLoad (fun _ => True) _ (s.launch throws) := effect_launch s throws
      exact heffect.firestore
  | requested _ heffect => exact heffect.firestore
  | account _ heffect => rcases heffect with heffect | heffect <;> exact heffect.firestore
  | served index outcome _ _ _ => exact absurd rfl (hserve index outcome)
  | delivered index random now hdeliver =>
      unfold deliver at hdeliver
      split at hdeliver
      · rcases called_effect hdeliver with ⟨_, _, heffect⟩ | ⟨_, heffect⟩ <;>
          exact heffect.firestore
      · rw [← Option.some.inj hdeliver]
  | realmWrites _ _ _ hwrites => rw [hwrites]

end Steps

end App

end Proverbs
