import Proverbs.Managers.Effects

/-! # What comes before a migration

`setupFirestoreManager` loads the user's document, creates it where there is none, and
only then migrates. However its callbacks interleave with everything else, no migration
is under way, and none ends in the deletion of the local favourites, for a user without a
document; and there are no more of them than launches and sign-ins.
-/

namespace Proverbs.App

/-- A step of a setup, by its callback. -/
def isSetup (call : Call) : Bool := (Callback.request call.callback).isNone

def isMigratedOutput : Output → Bool
  | .migrated .. => true
  | _ => false

def signsInOutput : Output → Bool
  | .signedIn _ true => true
  | _ => false

/-- The setups that have not ended. -/
def setups (s : App) : Nat := s.calls.countP isSetup

def ended (s : App) : Nat := s.outputs.countP isMigratedOutput

/-- The sign-ins with a user since the launch. -/
def signedIns (s : App) : Nat := s.outputs.countP signsInOutput

/-- What a callback of a setup stands for: the document is asked for or created, or
it is there. -/
def Documented (firestore : Firestore) (call : Call) : Prop :=
  match call.callback with
  | .userDocumentLoaded manager =>
      call.operation = .getUserDocument manager.currentUserIdentifier ∧
        (call.response = some (.userDocument true) →
          firestore.userExists manager.currentUserIdentifier = true)
  | .userCreated manager =>
      call.operation = .setUserDocument manager.currentUserIdentifier ∧
        ∀ response, call.response = some response →
          FirestoreManager.writeResult response = true →
            firestore.userExists manager.currentUserIdentifier = true
  | .favoritesFetched migration | .favoritesUploaded migration =>
      firestore.userExists migration.user = true
  | _ => True

structure InOrder (s : App) : Prop where
  documented : ∀ call ∈ s.calls, Documented s.firestore call
  migrated : ∀ user erased, Output.migrated user erased ∈ s.outputs →
    s.firestore.userExists user = true
  counted : s.setups + s.ended ≤ s.signedIns + 1

/-- Setups that are begun, and migrations that end without one, are paid for by sign-ins. -/
def Pays (s t : App) : Prop :=
  t.setups + t.ended + s.signedIns ≤ s.setups + s.ended + t.signedIns

section Pays

variable {s t u : App}

theorem Pays.trans (h : Pays s t) (h' : Pays t u) : Pays s u := by
  unfold Pays at *
  omega

theorem pays_of_same (hcalls : t.calls = s.calls) (houtputs : t.outputs = s.outputs) :
    Pays s t := by
  unfold Pays setups ended signedIns
  rw [hcalls, houtputs]

theorem Extends.pays {newCall : Call → Prop} {newOutput : Output → Prop}
    (h : Extends newCall newOutput s t) (hcall : ∀ call, newCall call → isSetup call = false)
    (houtput : ∀ o, newOutput o → isMigratedOutput o = false) : Pays s t := by
  obtain ⟨calls, hcalls, hnewCalls⟩ := h.calls
  obtain ⟨outputs, houtputs, hnewOutputs⟩ := h.outputs
  have hsetups : calls.countP isSetup = 0 := by
    rw [List.countP_eq_zero]
    intro call hmem
    simp [hcall call (hnewCalls call hmem)]
  have hended : outputs.countP isMigratedOutput = 0 := by
    rw [List.countP_eq_zero]
    intro o hmem
    simp [houtput o (hnewOutputs o hmem)]
  unfold Pays setups ended signedIns
  rw [hcalls, houtputs, List.countP_append, List.countP_append, List.countP_append, hsetups,
    hended]
  omega

end Pays

/-! ## Requests -/

/-- Callbacks of requests are added, and no end of a migration. -/
abbrev RequestsOnly : App → App → Prop :=
  Extends (fun call => isSetup call = false) (fun o => isMigratedOutput o = false)

section Requests

variable {s s' : App} {random : Identifier} {now : Date}

theorem requests_saveCompleted (request : Nat) (ids : ProverbIdentifiers)
    (result : Except AppError Proverb) : RequestsOnly s (s.saveCompleted request ids result) := by
  apply Extends.saveCompleted
  · rfl
  · exact fun _ => rfl

theorem requests_deleteCompleted (request : Nat) (ids : ProverbIdentifiers)
    (error : Option AppError) : RequestsOnly s (s.deleteCompleted request ids error) := by
  apply Extends.deleteCompleted
  · rfl
  · exact fun _ => rfl

theorem requests_deleteRemote (request : Nat) (ids : ProverbIdentifiers)
    (proverb : FFavoriteProverb) : RequestsOnly s (s.deleteRemote request ids proverb) := by
  unfold deleteRemote
  split
  · exact requests_deleteCompleted request ids _
  · split
    · exact Extends.of_same rfl rfl rfl rfl
    · exact Extends.call rfl
    · exact requests_deleteCompleted request ids _

theorem requests_favoriteFound (request : Nat) (ids : ProverbIdentifiers)
    (result : Except AppError FFavoriteProverb) :
    RequestsOnly s (s.favoriteFound request ids result) := by
  cases result with
  | ok proverb => exact requests_deleteRemote request ids proverb
  | error error => exact requests_deleteCompleted request ids (some error)

theorem requests_checkAndDeleteRemote (proverb : Proverb) (request : Nat)
    (ids : ProverbIdentifiers) : RequestsOnly s (s.checkAndDeleteRemote proverb request ids) := by
  cases proverb with
  | rProverb proverb =>
      simp only [checkAndDeleteRemote]
      split
      · exact .refl s
      · split
        · exact Extends.call rfl
        · exact requests_favoriteFound request ids _
  | rFavorite proverb =>
      exact requests_deleteCompleted request ids (some (.manager .isNotFavorite))
  | fFavorite proverb => exact requests_deleteRemote request ids proverb

theorem requests_chackAndSaveRemote (proverb : Proverb) (request : Nat)
    (ids : ProverbIdentifiers) :
    RequestsOnly s (s.chackAndSaveRemote proverb request ids random now) := by
  cases proverb with
  | rProverb proverb =>
      simp only [chackAndSaveRemote]
      split
      · exact requests_saveCompleted request ids _
      · split
        · exact Extends.call rfl
        · exact requests_saveCompleted request ids _
  | rFavorite | fFavorite =>
      exact requests_saveCompleted request ids (.error (.manager .isFavorite))

theorem requests_getAll (request : Nat) : RequestsOnly s (s.getAll request) := by
  unfold getAll
  split
  · split <;> exact Extends.output rfl
  · split
    · exact Extends.output rfl
    · split
      · exact Extends.call rfl
      · exact Extends.output rfl

theorem requests_save {proverb : Proverb} {request : Nat}
    (h : s.save proverb request random now = some s') : RequestsOnly s s' := by
  unfold save at h
  split at h
  · have hcalled : RequestsOnly s
        (s.output (.saveCalled request s.isPurchased s.storedCount)) := Extends.output rfl
    dsimp only at h
    split at h
    · rw [← Option.some.inj h]
      exact (hcalled.trans (.checkAndSaveLocal proverb random now)).trans
        (requests_saveCompleted request _ _)
    · rw [← Option.some.inj h]
      exact hcalled.trans (requests_chackAndSaveRemote proverb request _)
  · cases h

theorem requests_delete {proverb : Proverb} {request : Nat}
    (h : s.delete proverb request = some s') : RequestsOnly s s' := by
  unfold delete at h
  split at h
  · dsimp only at h
    split at h
    · obtain ⟨⟨t, error⟩, hdelete, ht⟩ := Option.map_eq_some_iff.mp h
      rw [← ht]
      exact (Extends.checkAndDeleteLocal hdelete).trans (requests_deleteCompleted request _ error)
    · rw [← Option.some.inj h]
      exact requests_checkAndDeleteRemote proverb request _
  · cases h

theorem requests_checkCompleted {completion : CheckCompletion} {result : Bool}
    (h : s.checkCompleted completion result random now = some s') : RequestsOnly s s' := by
  unfold checkCompleted at h
  split at h
  · rw [← Option.some.inj h]
    exact Extends.output rfl
  · split at h
    · exact requests_delete h
    · exact requests_save h

theorem requests_isFavorite {proverb : Proverb} {completion : CheckCompletion}
    (h : s.isFavorite proverb completion random now = some s') : RequestsOnly s s' := by
  unfold isFavorite isFavoriteRemote at h
  split at h
  · exact requests_checkCompleted h
  · split at h
    · exact requests_checkCompleted h
    · exact requests_checkCompleted h
    · split at h
      · exact requests_checkCompleted h
      · split at h
        · rw [← Option.some.inj h]
          refine Extends.call ?_
          cases completion <;> rfl
        · exact requests_checkCompleted h

end Requests

/-! ## Documents -/

section Documents

variable {firestore firestore' : Firestore} {call : Call} {s t : App}

theorem documented_of_request (h : isSetup call = false) : Documented firestore call := by
  obtain ⟨operation, callback, response⟩ := call
  cases callback with
  | userDocumentLoaded | userCreated | favoritesFetched | favoritesUploaded =>
      simp [isSetup, Callback.request] at h
  | _ => trivial

theorem documented_of_load (h : IsLoad call) : Documented firestore call := by
  obtain ⟨manager⟩ := h
  exact ⟨rfl, fun hresponse => by cases hresponse⟩

theorem Documented.mono (husers : ∀ user, firestore.userExists user = true →
      firestore'.userExists user = true) (h : Documented firestore call) :
    Documented firestore' call := by
  obtain ⟨operation, callback, response⟩ := call
  cases callback with
  | userDocumentLoaded manager => exact ⟨h.1, fun hresponse => husers _ (h.2 hresponse)⟩
  | userCreated manager =>
      exact ⟨h.1, fun response hresponse hdone => husers _ (h.2 response hresponse hdone)⟩
  | favoritesFetched migration | favoritesUploaded migration => exact husers _ h
  | _ => trivial

theorem userExists_query {user : UserIdentifier} (outcome : Outcome) (found : Response) :
    (firestore.query outcome found).1.userExists user = firestore.userExists user := by
  cases outcome <;> rfl

theorem userExists_write {user : UserIdentifier} {outcome : Outcome} {written : Firestore}
    (h : firestore.userExists user = true) (hwritten : written.userExists user = true) :
    (firestore.write outcome written).1.userExists user = true := by
  cases outcome with
  | error => exact h
  | success | nothing => exact hwritten

theorem userExists_serve {user : UserIdentifier} (h : firestore.userExists user = true)
    (operation : Operation) (outcome : Outcome) :
    (firestore.serve operation outcome).1.userExists user = true := by
  cases operation with
  | getUserDocument | getDocuments | whereOriginIdentifier =>
      simp only [Firestore.serve, userExists_query]
      exact h
  | setUserDocument other =>
      apply userExists_write h
      by_cases hsame : user = other
      · simp [Firestore.setUser, hsame]
      · simp [Firestore.setUser, hsame, h]
  | commit | setData | deleteDocument => exact userExists_write h h

theorem Documented.served (h : Documented firestore call) (outcome : Outcome) :
    Documented (firestore.serve call.operation outcome).1
      ⟨call.operation, call.callback, some (firestore.serve call.operation outcome).2⟩ := by
  obtain ⟨operation, callback, response⟩ := call
  cases callback with
  | userDocumentLoaded manager =>
      obtain ⟨rfl, -⟩ := h
      refine ⟨rfl, fun hresponse => ?_⟩
      cases outcome with
      | success =>
          have hdata := Option.some.inj hresponse
          exact Response.userDocument.inj hdata
      | error | nothing => cases hresponse
  | userCreated manager =>
      obtain ⟨rfl, -⟩ := h
      refine ⟨rfl, fun response hresponse hdone => ?_⟩
      obtain rfl := Option.some.inj hresponse
      cases outcome with
      | error => cases hdone
      | success | nothing =>
          simp [Firestore.serve, Firestore.write, Firestore.setUser]
  | favoritesFetched migration | favoritesUploaded migration =>
      exact userExists_serve h operation outcome
  | _ => trivial

theorem InOrder.of_extends {newCall : Call → Prop} {newOutput : Output → Prop} (h : InOrder s)
    (heffect : Extends newCall newOutput s t)
    (hcall : ∀ call, newCall call → Documented s.firestore call)
    (houtput : ∀ o, newOutput o → ∀ user erased, o = .migrated user erased →
      s.firestore.userExists user = true) (hpays : Pays s t) : InOrder t := by
  obtain ⟨calls, hcalls, hnewCalls⟩ := heffect.calls
  obtain ⟨outputs, houtputs, hnewOutputs⟩ := heffect.outputs
  constructor
  · rw [hcalls, heffect.firestore]
    intro call hmem
    rcases List.mem_append.mp hmem with hmem | hmem
    · exact h.documented call hmem
    · exact hcall call (hnewCalls call hmem)
  · rw [houtputs, heffect.firestore]
    intro user erased hmem
    rcases List.mem_append.mp hmem with hmem | hmem
    · exact h.migrated user erased hmem
    · exact houtput _ (hnewOutputs _ hmem) user erased rfl
  · have hcounted := h.counted
    unfold Pays at hpays
    omega

theorem InOrder.requests (h : InOrder s) (heffect : RequestsOnly s t) : InOrder t := by
  apply h.of_extends heffect
  · exact fun call hcall => documented_of_request hcall
  · rintro o ho user erased rfl
    cases ho
  · exact heffect.pays (fun _ hcall => hcall) fun _ ho => ho

end Documents

/-! ## The account -/

section Account

variable {s s' : App}

theorem InOrder.account (h : InOrder s) (heffect : AccountEffect s s') (hpays : Pays s s') :
    InOrder s' := by
  apply h.of_extends heffect
  · exact fun call hcall => documented_of_load hcall
  · rintro o ho user erased rfl
    cases ho
  · exact hpays

theorem pays_takeRequest : Pays s s.takeRequest := pays_of_same rfl rfl

theorem pays_output {o : Output} (ho : isMigratedOutput o = false) : Pays s (s.output o) := by
  have heffect : Extends (fun _ => False) (fun o => isMigratedOutput o = false) s (s.output o) :=
    Extends.output ho
  exact heffect.pays (fun _ hcall => hcall.elim) fun _ ho => ho

theorem pays_signInCompleted (attempt : Nat) (result : Bool) :
    Pays s (s.signInCompleted attempt result) := by
  cases result with
  | false =>
      have hrefreshed : Pays s s.updateCurrentPlan := pays_of_same rfl rfl
      exact hrefreshed.trans (pays_output rfl)
  | true =>
      unfold signInCompleted
      rw [if_pos rfl]
      unfold setupFirestoreManager
      split
      · have hrefreshed : Pays s s.updateCurrentPlan := pays_of_same rfl rfl
        exact hrefreshed.trans (pays_output rfl)
      · unfold Pays setups ended signedIns
        simp [output, call, updateCurrentPlan, isSetup, Callback.request, isMigratedOutput,
          signsInOutput, List.countP_append]
        omega

theorem pays_account {input : Input} (hevent : isAccountEvent input.event = true)
    (hs : step s input = some s') : Pays s s' := by
  have hnone : ∀ {t u : App}, Extends (fun _ => False) (fun o => isMigratedOutput o = false) t u →
      Pays t u := fun heffect => heffect.pays (fun _ hcall => hcall.elim) fun _ ho => ho
  obtain ⟨event, random, now⟩ := input
  cases event with
  | userManagerStart throws =>
      rw [← Option.some.inj hs]
      exact hnone (effect_userManagerStart throws)
  | signIn option =>
      rw [← Option.some.inj hs]
      unfold signIn
      split
      · exact pays_takeRequest.trans (pays_output rfl)
      · cases option <;> exact pays_of_same rfl rfl
  | providerCompleted attempt option credential =>
      rw [← Option.some.inj hs]
      unfold providerCompleted
      split
      · cases credential with
        | true => exact pays_of_same rfl rfl
        | false =>
            refine Pays.trans ?_ (pays_signInCompleted attempt false)
            exact pays_of_same rfl rfl
      · exact pays_of_same rfl rfl
  | didSignInFor result =>
      simp only [step, didSignInFor] at hs
      split at hs
      · cases hs
      · rw [← Option.some.inj hs]
        exact pays_of_same rfl rfl
      · rw [← Option.some.inj hs]
        exact pays_of_same rfl rfl
      · rw [← Option.some.inj hs]
        exact (pays_signInCompleted _ false).trans (pays_of_same rfl rfl)
  | firebaseAuthenticated attempt result =>
      rw [← Option.some.inj hs]
      unfold firebaseAuthenticated
      split
      · cases result with
        | user identifier =>
            refine Pays.trans ?_ (pays_signInCompleted attempt true)
            exact pays_of_same rfl rfl
        | error | nothing =>
            refine Pays.trans ?_ (pays_signInCompleted attempt false)
            exact pays_of_same rfl rfl
      · exact pays_of_same rfl rfl
  | signOut throws =>
      rw [← Option.some.inj hs]
      exact (hnone (effect_signOut throws)).trans (pays_output rfl)
  | purchaseCompleted success =>
      rw [← Option.some.inj hs]
      cases success <;> exact (hnone (effect_setPurchased _)).trans (pays_output rfl)
  | restoreCompleted results =>
      rw [← Option.some.inj hs]
      unfold restoreCompleted
      split <;> exact (hnone (effect_setPurchased _)).trans (pays_output rfl)
  | completeTransactions purchases =>
      rw [← Option.some.inj hs]
      exact hnone (effect_completeTransactions purchases)
  | _ => simp [isAccountEvent] at hevent

theorem inOrder_launch (s : App) (throws : Bool) : InOrder (s.launch throws) := by
  have heffect : Extends IsLoad (fun _ => False) _ (s.launch throws) := effect_launch s throws
  obtain ⟨calls, hcalls, hloads⟩ := heffect.calls
  obtain ⟨outputs, houtputs, hnothing⟩ := heffect.outputs
  rw [calls_restarted, List.nil_append] at hcalls
  rw [outputs_restarted, List.nil_append] at houtputs
  rw [List.eq_nil_iff_forall_not_mem.mpr hnothing] at houtputs
  constructor
  · rw [hcalls]
    exact fun call hmem => documented_of_load (hloads call hmem)
  · rw [houtputs]
    exact fun _ _ hmem => absurd hmem List.not_mem_nil
  · have hlength : (s.launch throws).calls.length ≤ 1 := by
      have hstarted : ∀ t : App, t.calls = [] → t.setupFirestoreManager.calls.length ≤ 1 := by
        intro t ht
        unfold setupFirestoreManager
        split
        · rw [ht]
          exact Nat.zero_le _
        · simp [call, ht]
      apply hstarted
      have hstart : Extends (fun _ => False) (fun _ => True) _
          (s.restarted.userManagerStart throws) := effect_userManagerStart throws
      obtain ⟨calls, hcalls, hnew⟩ := hstart.calls
      rw [hcalls, List.eq_nil_iff_forall_not_mem.mpr hnew]
      rfl
    unfold setups ended signedIns
    rw [houtputs]
    exact (List.countP_le_length).trans hlength

end Account

/-! ## Callbacks -/

section Callbacks

variable {s s' : App}

/-- What a callback of the setup for `user` does once the document is there: a call of the
migration is sent, or the migration ends. -/
inductive MigratesFor (user : UserIdentifier) (s : App) : App → Prop where
  | called (operation : Operation) (callback : Callback)
      (hcallback : ∀ firestore, firestore.userExists user = true →
        Documented firestore ⟨operation, callback, none⟩) :
      MigratesFor user s (s.call operation callback)
  | completed (result : Bool) : MigratesFor user s (s.migrationCompleted user result)

theorem migratesFor_saved {migration : Migration} {proverbs : List RFavoriteProverb}
    (hs : s.saveToRemoteStorage migration proverbs = some s') :
    MigratesFor migration.user s s' := by
  unfold saveToRemoteStorage at hs
  split at hs
  · rw [← Option.some.inj hs]
    exact .completed false
  · split at hs
    · split at hs
      · rw [← Option.some.inj hs]
        exact .called _ _ fun _ hexists => hexists
      · rw [← Option.some.inj hs]
        exact .completed _
    · cases hs

theorem migratesFor_fetched {migration : Migration}
    {result : Except AppError (List FFavoriteProverb)}
    (hs : s.favoritesFetched migration result = some s') : MigratesFor migration.user s s' := by
  cases result with
  | error => exact migratesFor_saved hs
  | ok favorites =>
      simp only [favoritesFetched] at hs
      split at hs
      · split at hs
        · split at hs
          · exact migratesFor_saved hs
          · rw [← Option.some.inj hs]
            exact .completed true
        · cases hs
      · exact migratesFor_saved hs

theorem migratesFor_checked {user : UserIdentifier}
    (hs : s.checkAndMigrateLocalFavoriteProverbs user = some s') : MigratesFor user s s' := by
  unfold checkAndMigrateLocalFavoriteProverbs at hs
  split at hs
  · rw [← Option.some.inj hs]
    exact .completed true
  · split at hs
    · split at hs
      · rw [← Option.some.inj hs]
        exact .completed false
      · split at hs
        · rw [← Option.some.inj hs]
          exact .called _ _ fun _ hexists => hexists
        · exact migratesFor_fetched hs
    · rw [← Option.some.inj hs]
      exact .completed true

/-- A migration for a user with a document, after a callback that was a setup's. -/
theorem InOrder.migrates {user : UserIdentifier} (hdocumented : ∀ call ∈ s.calls,
      Documented s.firestore call)
    (hmigrated : ∀ user erased, Output.migrated user erased ∈ s.outputs →
      s.firestore.userExists user = true)
    (hcounted : s.setups + s.ended + 1 ≤ s.signedIns + 1)
    (hexists : s.firestore.userExists user = true) (hs : MigratesFor user s s') : InOrder s' := by
  cases hs with
  | called operation callback hcallback =>
      constructor
      · intro call hmem
        rcases List.mem_append.mp hmem with hmem | hmem
        · exact hdocumented call hmem
        · rw [List.mem_singleton.mp hmem]
          exact hcallback s.firestore hexists
      · exact hmigrated
      · have hsetups : (s.call operation callback).setups ≤ s.setups + 1 := by
          unfold setups call
          rw [List.countP_append]
          exact Nat.add_le_add_left List.countP_le_length _
        have hended : (s.call operation callback).ended = s.ended := rfl
        have hsigned : (s.call operation callback).signedIns = s.signedIns := rfl
        omega
  | completed result =>
      constructor
      · exact hdocumented
      · intro other erased hmem
        rcases List.mem_append.mp hmem with hmem | hmem
        · exact hmigrated other erased hmem
        · obtain ⟨rfl, -⟩ := Output.migrated.inj (List.mem_singleton.mp hmem)
          exact hexists
      · have hended : (s.migrationCompleted user result).ended = s.ended + 1 := by
          simp [ended, migrationCompleted, output, isMigratedOutput, List.countP_append]
        have hsigned : (s.migrationCompleted user result).signedIns = s.signedIns := by
          simp [signedIns, migrationCompleted, output, signsInOutput, List.countP_append]
        have hsetups : (s.migrationCompleted user result).setups = s.setups := rfl
        omega

/-- The user's document is missing from the instance; nothing else has changed. -/
theorem InOrder.dropUserDocument (h : InOrder s) (manager : FirestoreManager) :
    InOrder (s.dropUserDocument manager) :=
  ⟨h.documented, h.migrated, h.counted⟩

/-- The callback of a setup runs, which is no longer among those under way. -/
theorem InOrder.setupCalled {call : Call} {response : Response} {random : Identifier} {now : Date}
    (h : InOrder s) (hsetup : isSetup call = true) (hresponse : call.response = some response)
    (hdocumented : Documented s.firestore call)
    (hcounted : s.setups + s.ended + 1 ≤ s.signedIns + 1)
    (hs : s.called call.callback response random now = some s') : InOrder s' := by
  have hready : ∀ {manager : FirestoreManager} {result : Bool},
      (result = true → s.firestore.userExists manager.currentUserIdentifier = true) →
        s.userDocumentReady manager result = some s' → InOrder s' := by
    intro manager result hexists hs
    unfold userDocumentReady at hs
    cases result with
    | true =>
        exact .migrates h.documented h.migrated hcounted (hexists rfl) (migratesFor_checked hs)
    | false =>
        rw [← Option.some.inj hs]
        exact h.dropUserDocument manager
  obtain ⟨operation, callback, answer⟩ := call
  obtain rfl : answer = some response := hresponse
  cases callback with
  | userDocumentLoaded manager =>
      simp only [called, userDocumentLoaded] at hs
      split at hs
      · exact hready (fun _ => hdocumented.2 rfl) hs
      · rw [← Option.some.inj hs]
        refine ⟨?_, h.migrated, ?_⟩
        · intro call hmem
          rcases List.mem_append.mp hmem with hmem | hmem
          · exact h.documented call hmem
          · rw [List.mem_singleton.mp hmem]
            exact ⟨rfl, fun response hresponse => by cases hresponse⟩
        · have hsetups : (s.call (.setUserDocument manager.currentUserIdentifier)
              (.userCreated manager)).setups = s.setups + 1 := by
            simp [setups, App.call, isSetup, Callback.request]
          rw [hsetups]
          exact (Nat.add_right_comm _ _ _).trans_le hcounted
      · exact hready (fun htrue => by cases htrue) hs
  | userCreated manager => exact hready (hdocumented.2 response rfl) hs
  | favoritesFetched migration =>
      exact .migrates h.documented h.migrated hcounted hdocumented (migratesFor_fetched hs)
  | favoritesUploaded migration =>
      obtain rfl := Option.some.inj hs
      exact .migrates h.documented h.migrated hcounted hdocumented (.completed _)
  | getAll | save | getFavorite | delete => simp [isSetup, Callback.request] at hsetup
  | isFavorite completion => cases completion <;> simp [isSetup, Callback.request] at hsetup

theorem requests_called {callback : Callback} {response : Response} {random : Identifier}
    {now : Date} (hrequest : (Callback.request callback).isNone = false)
    (hs : s.called callback response random now = some s') : RequestsOnly s s' := by
  cases callback with
  | userDocumentLoaded | userCreated | favoritesFetched | favoritesUploaded =>
      simp [Callback.request] at hrequest
  | getAll request =>
      rw [← Option.some.inj hs]
      exact Extends.output rfl
  | isFavorite completion => exact requests_checkCompleted hs
  | save request ids proverb =>
      rw [← Option.some.inj hs]
      exact requests_saveCompleted request ids _
  | getFavorite request ids =>
      rw [← Option.some.inj hs]
      exact requests_favoriteFound request ids _
  | delete request ids =>
      rw [← Option.some.inj hs]
      exact requests_deleteCompleted request ids _

theorem InOrder.deliver {index : Nat} {random : Identifier} {now : Date} (h : InOrder s)
    (hs : s.deliver index random now = some s') : InOrder s' := by
  unfold App.deliver at hs
  split at hs
  · rename_i operation callback response hcall
    have hmem : ⟨operation, callback, some response⟩ ∈ s.calls := List.mem_of_getElem? hcall
    have hcount := InFlight.countP_eraseIdx_add isSetup hcall
    have hrest : ∀ call ∈ s.calls.eraseIdx index, Documented s.firestore call :=
      fun call hmem => h.documented call (List.mem_of_mem_eraseIdx hmem)
    have hcounted := h.counted
    unfold setups at hcounted
    have herased : InOrder { s with calls := s.calls.eraseIdx index } := by
      refine ⟨hrest, h.migrated, ?_⟩
      have hless : ({ s with calls := s.calls.eraseIdx index } : App).setups ≤ s.setups :=
        Nat.le.intro hcount
      exact (Nat.add_le_add_right hless s.ended).trans h.counted
    cases hsetup : isSetup ⟨operation, callback, some response⟩ with
    | true =>
        rw [hsetup, if_pos rfl] at hcount
        refine herased.setupCalled hsetup rfl (h.documented _ hmem) ?_ hs
        unfold setups ended signedIns
        unfold ended signedIns at hcounted
        dsimp only
        omega
    | false => exact herased.requests (requests_called hsetup hs)
  · rw [← Option.some.inj hs]
    exact h

theorem setups_serve (index : Nat) (outcome : Outcome) :
    (s.serve index outcome).setups = s.setups := by
  have hcallbacks : ∀ t : App, t.setups =
      (t.calls.map Call.callback).countP fun callback => (Callback.request callback).isNone := by
    intro t
    rw [List.countP_map]
    rfl
  rw [hcallbacks, hcallbacks, callbacks_serve]

theorem InOrder.serve (h : InOrder s) (index : Nat) (outcome : Outcome) :
    InOrder (s.serve index outcome) := by
  have hsetups := setups_serve (s := s) index outcome
  unfold App.serve at hsetups ⊢
  split
  · rename_i operation callback hcall
    have hserved : Documented (s.firestore.serve operation outcome).1
        ⟨operation, callback, some (s.firestore.serve operation outcome).2⟩ :=
      (h.documented _ (List.mem_of_getElem? hcall)).served outcome
    refine ⟨?_, ?_, ?_⟩
    · intro call hmem
      rcases List.mem_or_eq_of_mem_set hmem with hmem | rfl
      · exact (h.documented call hmem).mono fun user hexists =>
          userExists_serve hexists operation outcome
      · exact hserved
    · exact fun user erased hmem => userExists_serve (h.migrated user erased hmem) operation outcome
    · simp only [hcall] at hsetups
      rw [hsetups]
      exact h.counted
  · exact h

theorem InOrder.step {input : Input} (h : InOrder s) (hs : App.step s input = some s') :
    InOrder s' := by
  have hrequest : InOrder s.takeRequest := ⟨h.documented, h.migrated, h.counted⟩
  obtain ⟨event, random, now⟩ := input
  cases event with
  | launch throws =>
      rw [← Option.some.inj hs]
      exact inOrder_launch s throws
  | getAll =>
      rw [← Option.some.inj hs]
      exact hrequest.requests (requests_getAll _)
  | isFavorite proverb | checkAndSaveOrDeleteFavorite proverb =>
      exact hrequest.requests (requests_isFavorite hs)
  | save proverb => exact hrequest.requests (requests_save hs)
  | delete proverb => exact hrequest.requests (requests_delete hs)
  | serve index outcome =>
      rw [← Option.some.inj hs]
      exact h.serve index outcome
  | deliver index => exact h.deliver hs
  | realmWrites throw =>
      rw [← Option.some.inj hs]
      exact ⟨h.documented, h.migrated, h.counted⟩
  | _ =>
      have hpays : Pays s s' := pays_account rfl hs
      rcases effect_step rfl hs with heffect | heffect
      · exact h.account heffect hpays
      · exact hrequest.account heffect hpays

end Callbacks

end Proverbs.App
