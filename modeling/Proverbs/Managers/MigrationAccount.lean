import Proverbs.Managers.MigrationRace

/-! # Migrations and accounts

A migration is started for one user, but its callbacks look up `remoteStorage` anew,
and by then it may be another user's. What they send carries the user the migration
was started for, so that it can be compared with the collection it works on.
-/

namespace Proverbs.App

/-- The call of a migration works on the collection of the migration's user. -/
def OwnCollection (call : Call) : Prop :=
  match call.callback with
  | .favoritesFetched migration => call.operation = .getDocuments migration.user
  | .favoritesUploaded migration => ∃ batch, call.operation = .commit migration.user batch
  | _ => True

/-- Every upload under way goes to the user its migration was started for. -/
def UploadsOwn (s : App) : Prop :=
  ∀ call ∈ s.calls, ∀ migration, call.callback = .favoritesUploaded migration →
    ∃ batch, call.operation = .commit migration.user batch

/-- What a step uploads once it has been given the remote list: it goes to the
collection the list was read from, the one of the migration's user. The calls sent
stand behind those that were pending, less the one called back. -/
def UploadsWhereRead (s : App) (input : Input) : Prop :=
  match input.event with
  | .deliver index =>
      ∀ operation migration response s',
        s.calls[index]? = some ⟨operation, .favoritesFetched migration, some response⟩ →
        step s input = some s' →
        ∀ call ∈ s'.calls.drop (s.calls.length - 1),
          operation = .getDocuments migration.user ∧
            ∃ batch, call.operation = .commit migration.user batch
  | _ => True

/-! ## The condition -/

/-- `remoteStorage` is gone, has lost its user document, or is this user's. -/
def WorksFor (s : App) (user : UserIdentifier) : Prop :=
  ∀ other, s.remoteCollection = some other → other = user

/-- Where the callback of a migration looks up `remoteStorage`, it works for the user
the migration was started for. A callback with nothing to migrate does not look. -/
def LooksUpOwn (s : App) (callback : Callback) (response : Response) : Prop :=
  match callback with
  | .userDocumentLoaded manager =>
      response = .userDocument true → s.localStorage.objects ≠ [] →
        s.WorksFor manager.currentUserIdentifier
  | .userCreated manager =>
      FirestoreManager.writeResult response = true → s.localStorage.objects ≠ [] →
        s.WorksFor manager.currentUserIdentifier
  | .favoritesFetched migration =>
      match FirestoreManager.getAllFavoriteProverbsResult response with
      | .ok favorites =>
          filter migration.localProverbs favorites ≠ [] → s.WorksFor migration.user
      | .error _ => s.WorksFor migration.user
  | _ => True

def AccountKept (s : App) (input : Input) : Prop :=
  match input.event with
  | .deliver index =>
      match s.calls[index]? with
      | some ⟨_, callback, some response⟩ => s.LooksUpOwn callback response
      | _ => True
  | _ => True

/-! ## What a migration sends -/

abbrev Uploads (migration : Migration) : App → App → Prop :=
  Extends
    (fun call => call.callback = .favoritesUploaded migration ∧
      ∃ batch, call.operation = .commit migration.user batch)
    (fun _ => True)

abbrev Fetches (user : UserIdentifier) : App → App → Prop :=
  Extends
    (fun call => ∃ migration : Migration, migration.user = user ∧
      call.callback = .favoritesFetched migration ∧ call.operation = .getDocuments user)
    (fun _ => True)

section Sends

variable {s s' : App}

theorem migrationCompleted_sends {newCall : Call → Prop} (user : UserIdentifier) (result : Bool) :
    Extends newCall (fun _ => True) s (s.migrationCompleted user result) := by
  have hrecorded : Extends newCall (fun _ => True) s (s.output (.migrated user
      (s.localStorage.objects.filter (· ∉ s.localStorage.deleteAll.objects)))) :=
    Extends.output trivial
  exact hrecorded.trans (.of_same rfl rfl rfl rfl)

theorem saveToRemoteStorage_sends {migration : Migration} {proverbs : List RFavoriteProverb}
    (hworks : proverbs ≠ [] → s.WorksFor migration.user)
    (h : s.saveToRemoteStorage migration proverbs = some s') : Uploads migration s s' := by
  unfold saveToRemoteStorage at h
  split at h
  · rw [← Option.some.inj h]
    exact migrationCompleted_sends _ _
  · rename_i manager hm
    split at h
    · cases hcollection : manager.favoritesCollection with
      | none =>
          simp only [FirestoreManager.saveAll, hcollection] at h
          rw [← Option.some.inj h]
          exact migrationCompleted_sends _ _
      | some other =>
          simp only [FirestoreManager.saveAll, hcollection] at h
          split at h
          · rename_i operation hsent
            split at hsent
            · simp at hsent
            · rename_i hne
              have hother : other = migration.user := by
                apply hworks
                · rintro rfl
                  exact hne rfl
                · simp [remoteCollection, hm, hcollection]
              rw [← Option.some.inj h, ← Request.sent.inj hsent, hother]
              exact Extends.call ⟨rfl, _, rfl⟩
          · rw [← Option.some.inj h]
            exact migrationCompleted_sends _ _
    · simp at h

theorem favoritesFetched_sends {migration : Migration} {response : Response}
    (hlooks : s.LooksUpOwn (.favoritesFetched migration) response)
    (h : s.favoritesFetched migration
      (FirestoreManager.getAllFavoriteProverbsResult response) = some s') :
    Uploads migration s s' := by
  unfold LooksUpOwn at hlooks
  cases hresult : FirestoreManager.getAllFavoriteProverbsResult response with
  | error error =>
      simp only [hresult] at hlooks h
      exact saveToRemoteStorage_sends (fun _ => hlooks) h
  | ok favorites =>
      simp only [hresult] at hlooks h
      simp only [favoritesFetched] at h
      split at h
      · split at h
        · split at h
          · exact saveToRemoteStorage_sends hlooks h
          · rw [← Option.some.inj h]
            exact migrationCompleted_sends _ _
        · simp at h
      · rename_i hempty
        obtain rfl : favorites = [] := by simpa using hempty
        have hall : filter migration.localProverbs [] = migration.localProverbs := by
          simp [filter]
        rw [hall] at hlooks
        exact saveToRemoteStorage_sends hlooks h

/-- A list that could not be asked for leaves no collection to upload to. -/
theorem favoritesFetched_answered_sends {newCall : Call → Prop} {migration : Migration}
    {manager : FirestoreManager} (hm : s.remoteStorage = some manager)
    (hcollection : manager.favoritesCollection = none) {error : AppError}
    (h : s.favoritesFetched migration (.error error) = some s') :
    Extends newCall (fun _ => True) s s' := by
  simp only [favoritesFetched, saveToRemoteStorage, hm, FirestoreManager.saveAll, hcollection] at h
  split at h
  · rw [← Option.some.inj h]
    exact migrationCompleted_sends _ _
  · simp at h

theorem checkAndMigrate_sends {user : UserIdentifier}
    (hworks : s.localStorage.objects ≠ [] → s.WorksFor user)
    (h : s.checkAndMigrateLocalFavoriteProverbs user = some s') : Fetches user s s' := by
  unfold checkAndMigrateLocalFavoriteProverbs at h
  split at h
  · rw [← Option.some.inj h]
    exact migrationCompleted_sends _ _
  · rename_i localProverbs hall
    split at h
    · rename_i hsome
      split at h
      · rw [← Option.some.inj h]
        exact migrationCompleted_sends _ _
      · rename_i manager hm
        cases hcollection : manager.favoritesCollection with
        | none =>
            simp only [FirestoreManager.getAllFavoriteProverbs, hcollection] at h
            exact favoritesFetched_answered_sends hm hcollection h
        | some other =>
            have hother : other = user := by
              apply hworks
              · rw [LocalStorage.objects_of_getAll hall]
                exact List.ne_nil_of_length_pos hsome
              · simp [remoteCollection, hm, hcollection]
            simp only [FirestoreManager.getAllFavoriteProverbs, hcollection, hother] at h
            rw [← Option.some.inj h]
            exact Extends.call ⟨⟨user, localProverbs⟩, rfl, rfl, rfl⟩
    · rw [← Option.some.inj h]
      exact migrationCompleted_sends _ _

end Sends

/-! ## Every step -/

def OwnCollections (s : App) : Prop := ∀ call ∈ s.calls, OwnCollection call

section Steps

variable {s s' : App}

theorem OwnCollections.uploadsOwn (h : OwnCollections s) : UploadsOwn s := by
  intro call hmem migration hcallback
  have hown := h call hmem
  simpa only [OwnCollection, hcallback] using hown

theorem OwnCollections.extends {newCall : Call → Prop} {newOutput : Output → Prop}
    (h : OwnCollections s) (heffect : Extends newCall newOutput s s')
    (hown : ∀ call, newCall call → OwnCollection call) : OwnCollections s' := by
  obtain ⟨cs, hcalls, hcs⟩ := heffect.calls
  intro call hmem
  rw [hcalls, List.mem_append] at hmem
  rcases hmem with hmem | hmem
  · exact h call hmem
  · exact hown call (hcs call hmem)

theorem ownCollection_of_request {call : Call} {request : Nat}
    (h : Callback.request call.callback = some request) : OwnCollection call := by
  unfold OwnCollection
  split
  · rename_i hcallback
    simp [hcallback, Callback.request] at h
  · rename_i hcallback
    simp [hcallback, Callback.request] at h
  · trivial

theorem OwnCollections.request {request : Nat} (h : OwnCollections s)
    (heffect : RequestEffect request s s') : OwnCollections s' :=
  h.extends heffect fun _ hcall => ownCollection_of_request hcall

theorem OwnCollections.account (h : OwnCollections s) (heffect : AccountEffect s s') :
    OwnCollections s' := by
  apply h.extends heffect
  rintro _ ⟨manager⟩
  trivial

theorem OwnCollections.uploads {migration : Migration} (h : OwnCollections s)
    (hsends : Uploads migration s s') : OwnCollections s' := by
  apply h.extends hsends
  rintro call ⟨hcallback, hbatch⟩
  simpa only [OwnCollection, hcallback] using hbatch

theorem OwnCollections.fetches {user : UserIdentifier} (h : OwnCollections s)
    (hsends : Fetches user s s') : OwnCollections s' := by
  apply h.extends hsends
  rintro call ⟨migration, rfl, hcallback, hoperation⟩
  simpa only [OwnCollection, hcallback] using hoperation

theorem OwnCollections.userDocumentReady {manager : FirestoreManager} {result : Bool}
    (h : OwnCollections s)
    (hworks : result = true → s.localStorage.objects ≠ [] →
      s.WorksFor manager.currentUserIdentifier)
    (hs : s.userDocumentReady manager result = some s') : OwnCollections s' := by
  unfold App.userDocumentReady at hs
  split at hs
  · rename_i hready
    exact h.fetches (checkAndMigrate_sends (hworks hready) hs)
  · rw [← Option.some.inj hs]
    exact h

theorem OwnCollections.called {callback : Callback} {response : Response}
    {random : Identifier} {now : Date} (h : OwnCollections s)
    (hlooks : s.LooksUpOwn callback response)
    (hs : s.called callback response random now = some s') : OwnCollections s' := by
  rcases called_effect hs with ⟨request, _, heffect⟩ | ⟨hnone, _⟩
  · exact h.request heffect
  · cases callback with
    | userDocumentLoaded manager =>
        simp only [App.called, userDocumentLoaded] at hs
        split at hs
        · exact h.userDocumentReady (fun _ => hlooks rfl) hs
        · rw [← Option.some.inj hs]
          have hcreate : Extends (fun call => call.callback = .userCreated manager)
              (fun _ => True) s
              (s.call (.setUserDocument manager.currentUserIdentifier) (.userCreated manager)) :=
            Extends.call rfl
          apply h.extends hcreate
          intro call hcallback
          simp only [OwnCollection, hcallback]
        · exact h.userDocumentReady (by simp) hs
    | userCreated manager => exact h.userDocumentReady hlooks hs
    | favoritesFetched migration => exact h.uploads (favoritesFetched_sends hlooks hs)
    | favoritesUploaded migration =>
        have hsends : Uploads migration s s' := by
          rw [← Option.some.inj hs]
          exact migrationCompleted_sends _ _
        exact h.uploads hsends
    | isFavorite completion => cases completion <;> simp [Callback.request] at hnone
    | _ => simp [Callback.request] at hnone

theorem OwnCollections.eraseIdx (h : OwnCollections s) (index : Nat) :
    OwnCollections { s with calls := s.calls.eraseIdx index } :=
  fun call hmem => h call (List.mem_of_mem_eraseIdx hmem)

theorem OwnCollections.serve (h : OwnCollections s) (index : Nat) (outcome : Outcome) :
    OwnCollections (s.serve index outcome) := by
  unfold App.serve
  split
  · rename_i operation callback hcall
    intro call hmem
    have hown := h _ (List.mem_of_getElem? hcall)
    rcases List.mem_or_eq_of_mem_set hmem with hmem | rfl
    · exact h call hmem
    · exact hown
  · exact h

theorem OwnCollections.deliver (h : OwnCollections s) {index : Nat} {random : Identifier}
    {now : Date} (hkept : s.AccountKept ⟨.deliver index, random, now⟩)
    (hs : s.deliver index random now = some s') : OwnCollections s' := by
  unfold App.deliver at hs
  split at hs
  · rename_i operation callback response hcall
    simp only [AccountKept, hcall] at hkept
    exact (h.eraseIdx index).called hkept hs
  · rw [← Option.some.inj hs]
    exact h

theorem ownCollections_launch (s : App) (throws : Bool) : OwnCollections (s.launch throws) := by
  refine OwnCollections.account ?_ (effect_launch s throws)
  exact fun call hmem => absurd hmem List.not_mem_nil

theorem ownCollections_step {input : Input} (h : OwnCollections s) (hkept : s.AccountKept input)
    (hs : step s input = some s') : OwnCollections s' := by
  have htake : OwnCollections s.takeRequest := h
  cases step_effect hs with
  | launched throws _ _ hlaunch =>
      rw [hlaunch]
      exact ownCollections_launch s throws
  | requested _ heffect => exact htake.request heffect
  | account _ heffect =>
      rcases heffect with heffect | heffect
      · exact h.account heffect
      · exact htake.account heffect
  | served index outcome _ _ hserve =>
      rw [hserve]
      exact h.serve index outcome
  | delivered index _ _ hdeliver => exact h.deliver hkept hdeliver
  | realmWrites _ _ _ hwrites =>
      rw [hwrites]
      exact h

/-- The list was read from the user's collection, and the batch goes back to it. -/
theorem OwnCollections.uploadsWhereRead {input : Input} (h : OwnCollections s)
    (hkept : s.AccountKept input) : UploadsWhereRead s input := by
  obtain ⟨event, random, now⟩ := input
  cases event with
  | deliver index =>
      intro operation migration response s' hcall hs call hsent
      have hread : operation = .getDocuments migration.user := h _ (List.mem_of_getElem? hcall)
      refine ⟨hread, ?_⟩
      simp only [AccountKept, hcall] at hkept
      simp only [step, App.deliver, hcall] at hs
      have hsends : Uploads migration { s with calls := s.calls.eraseIdx index } s' :=
        favoritesFetched_sends hkept hs
      obtain ⟨cs, hcalls, hcs⟩ := hsends.calls
      obtain ⟨hindex, _⟩ := List.getElem?_eq_some_iff.mp hcall
      have hlength : (s.calls.eraseIdx index).length = s.calls.length - 1 :=
        List.length_eraseIdx_of_lt hindex
      have hnew : s'.calls.drop (s.calls.length - 1) = cs := by
        rw [hcalls, ← hlength]
        exact List.drop_left
      rw [hnew] at hsent
      exact (hcs call hsent).2
  | _ => trivial

end Steps

/-- In every run from a launch in which the callbacks of a migration that look up
`remoteStorage` find none, or that of the user the migration was started for: every
upload goes to that user, and to the collection its remote list was read from. -/
theorem one_account_along (device : App) (throws : Bool) (inputs : List Input)
    (hkept : Transition.Along step AccountKept (device.launch throws) inputs) :
    Transition.Along step (fun s input => UploadsOwn s ∧ UploadsWhereRead s input)
        (device.launch throws) inputs ∧
      ∀ t, Transition.run step (device.launch throws) inputs = some t → UploadsOwn t := by
  have hkeep : ∀ s input s', OwnCollections s → s.AccountKept input → step s input = some s' →
      OwnCollections s' := fun _ _ _ hs hguard h => ownCollections_step hs hguard h
  have hlaunch := ownCollections_launch device throws
  constructor
  · exact Transition.along_of_invariant hkeep
      (fun _ _ hs hguard => ⟨hs.uploadsOwn, hs.uploadsWhereRead hguard⟩) hlaunch hkept
  · intro t ht
    exact (Transition.run_invariant hkeep hlaunch hkept ht).uploadsOwn

theorem one_account_along_oneMigration :
    ∃ t, Transition.run step (knownUser.launch false) oneMigration = some t ∧ UploadsOwn t := by
  refine ⟨_, rfl, (one_account_along knownUser false oneMigration ?_).2 _ rfl⟩
  refine ⟨trivial, fun s₁ h₁ => ?_⟩
  obtain rfl := Option.some.inj h₁
  refine ⟨fun _ _ other hother => (Option.some.inj hother).symm, fun s₂ h₂ => ?_⟩
  obtain rfl := Option.some.inj h₂
  refine ⟨trivial, fun s₃ h₃ => ?_⟩
  obtain rfl := Option.some.inj h₃
  refine ⟨fun _ other hother => (Option.some.inj hother).symm, fun s₄ h₄ => ?_⟩
  obtain rfl := Option.some.inj h₄
  refine ⟨trivial, fun s₅ h₅ => ?_⟩
  obtain rfl := Option.some.inj h₅
  exact ⟨trivial, fun _ _ => trivial⟩

/-- Another user signs in between the answer to the query and its callback. -/
def accountSwitch : List Input :=
  [⟨.purchaseCompleted true, "", 0⟩,
    ⟨.save (.rProverb ⟨"proverb", 0, "", "", "", false⟩), "favorite", 0⟩] ++
  ([.signIn .google, .didSignInFor .authentication, .firebaseAuthenticated 1 (.user "first"),
    .serve 0 .success, .deliver 0, .serve 0 .success, .deliver 0, .serve 0 .success,
    .signOut false, .signIn .google, .didSignInFor .authentication,
    .firebaseAuthenticated 2 (.user "second"), .deliver 0].map fun event => ⟨event, "", 0⟩)

/-- The migration of the first user uploads to the second one's collection. -/
theorem migration_crosses_accounts :
    ¬ ∀ t, Transition.run step (installed.launch false) accountSwitch = some t → UploadsOwn t := by
  intro h
  have hown := h _ rfl
    ⟨.commit "second" [⟨"favorite", "proverb", 0, ""⟩],
      .favoritesUploaded ⟨"first", [⟨"favorite", "proverb", 0, "", "", ""⟩]⟩, none⟩
    (by decide) _ rfl
  obtain ⟨batch, hbatch⟩ := hown
  exact absurd (Operation.commit.inj hbatch).1 (by decide)

end Proverbs.App
