import Proverbs.Managers.MigrationRace

/-! # Favourites a migration has captured

Between its two round trips a migration holds the favourites it read, as live objects of
Realm. They may be deleted there in the meantime, by a delete from a screen or by the
`deleteAll` at the end of another migration, and reading a deleted object traps. Below,
each step names the favourites it erases; as long as none of them is captured by a call
that stays pending, every captured favourite stays managed and no callback traps.
-/

namespace Proverbs

/-- The live objects a pending closure has captured and reads when it runs. -/
def Callback.captured : Callback → List RFavoriteProverb
  | .favoritesFetched migration => migration.localProverbs
  | _ => []

def Callback.isMigration : Callback → Bool
  | .userDocumentLoaded _ | .userCreated _ | .favoritesFetched _ | .favoritesUploaded _ => true
  | _ => false

namespace App

/-- The callbacks of a migration run to their end: nothing they read has been deleted. -/
def MigrationReads (s : App) (input : Input) : Prop :=
  match input.event with
  | .deliver index =>
      match s.calls[index]? with
      | some ⟨_, callback, some _⟩ => callback.isMigration = true → (step s input).isSome
      | _ => True
  | _ => True

/-! ## The condition -/

/-- The local favourite that a delete of this proverb erases. -/
def deleteTarget (s : App) (proverb : Proverb) : List RFavoriteProverb :=
  if s.isLocalStorage then
    match proverb with
    | .rProverb proverb =>
        (s.localStorage.get RFavoriteProverb.originIdentifier proverb.identifier).toList
    | .rFavorite proverb => [proverb]
    | .fFavorite _ => []
  else []

def checkTarget (s : App) (completion : CheckCompletion) (result : Bool) :
    List RFavoriteProverb :=
  match completion with
  | .answer _ => []
  | .checkAndSaveOrDelete _ proverb => if result then s.deleteTarget proverb else []

/-- A migration with these favourites left to upload is over at once when there are none,
or no collection to upload them to; its `deleteAll` then erases what is stored. -/
def uploadTarget (s : App) (proverbs : List RFavoriteProverb) : List RFavoriteProverb :=
  if s.remoteCollection = none ∨ proverbs = [] then s.localStorage.objects else []

/-- The favourites the migration uploads, given the answer of `getAllFavoriteProverbs`. -/
def toSave (localProverbs : List RFavoriteProverb)
    (result : Except AppError (List FFavoriteProverb)) : List RFavoriteProverb :=
  match result with
  | .ok favorites => filter localProverbs favorites
  | .error _ => localProverbs

/-- The favourites a callback erases when it runs. -/
def callbackTarget (s : App) (callback : Callback) (response : Response) :
    List RFavoriteProverb :=
  match callback with
  | .userDocumentLoaded _ =>
      if response = .userDocument true then s.uploadTarget s.localStorage.objects else []
  | .userCreated _ =>
      if FirestoreManager.writeResult response then s.uploadTarget s.localStorage.objects
      else []
  | .favoritesFetched migration =>
      s.uploadTarget
        (toSave migration.localProverbs (FirestoreManager.getAllFavoriteProverbsResult response))
  | .favoritesUploaded _ => s.localStorage.objects
  | .isFavorite completion =>
      s.checkTarget completion (FirestoreManager.isFavoriteResult response)
  | _ => []

/-- The favourites a step erases from a storage that is available. -/
def erased (s : App) (input : Input) : List RFavoriteProverb :=
  match input.event with
  | .delete proverb => s.deleteTarget proverb
  | .checkAndSaveOrDeleteFavorite proverb => s.deleteTarget proverb
  | .deliver index =>
      match s.calls[index]? with
      | some ⟨_, callback, some response⟩ => s.callbackTarget callback response
      | _ => []
  | _ => []

def stillPending (s : App) (input : Input) : List Call :=
  match input.event with
  | .deliver index => s.calls.eraseIdx index
  | _ => s.calls

/-- No pending call has captured one of the favourites. -/
def Uncaptured (calls : List Call) (favorites : List RFavoriteProverb) : Prop :=
  ∀ call ∈ calls, ∀ f ∈ call.callback.captured, ∀ g ∈ favorites, g.identifier ≠ f.identifier

/-- The step erases no favourite that a call that stays pending has captured. -/
def ErasesUncaptured (s : App) (input : Input) : Prop :=
  s.localStorage.Available → Uncaptured (s.stillPending input) (s.erased input)

instance (calls : List Call) (favorites : List RFavoriteProverb) :
    Decidable (Uncaptured calls favorites) :=
  inferInstanceAs (Decidable (∀ call ∈ calls, ∀ f ∈ call.callback.captured,
    ∀ g ∈ favorites, g.identifier ≠ f.identifier))

instance (s : App) (input : Input) : Decidable (s.ErasesUncaptured input) :=
  inferInstanceAs (Decidable (s.localStorage.realm.isSome ∧ s.localStorage.writes = .commit →
    Uncaptured (s.stillPending input) (s.erased input)))

/-! ## What a step keeps -/

/-- A managed favourite stays managed, unless it is one of the erased. -/
def Keeps (s t : App) (erased : List RFavoriteProverb) : Prop :=
  ∀ f, s.localStorage.isValid f = true →
    (s.localStorage.Available → ∀ g ∈ erased, g.identifier ≠ f.identifier) →
    t.localStorage.isValid f = true

section Keeps

variable {s t u : App} {erased erased' : List RFavoriteProverb}

theorem Keeps.of_same (h : t.localStorage = s.localStorage) : Keeps s t erased := by
  intro f hf _
  rw [h]
  exact hf

theorem Keeps.mono (h : Keeps s t erased) (hsub : erased ⊆ erased') : Keeps s t erased' :=
  fun f hf hother => h f hf fun havailable g hg => hother havailable g (hsub hg)

theorem Keeps.congr (h : Keeps s t erased) (hu : u.localStorage = t.localStorage) :
    Keeps s u erased := by
  intro f hf hother
  rw [hu]
  exact h f hf hother

/-! ### Requests -/

variable {request : Nat} {random : Identifier} {now : Date}

theorem keeps_deleteLocal {f : RFavoriteProverb} {error : Option AppError}
    (h : s.deleteLocal f = some (t, error)) : Keeps s t [f] := by
  obtain ⟨⟨storage, done⟩, hdelete, hp⟩ := Option.map_eq_some_iff.mp h
  rw [Prod.mk.injEq] at hp
  intro g hg hother
  rw [← hp.1]
  apply LocalStorage.isValid_delete hdelete hg
  exact fun havailable => hother havailable f List.mem_cons_self

theorem keeps_checkAndDeleteLocal (hlocal : s.isLocalStorage = true) {proverb : Proverb}
    {error : Option AppError} (h : s.checkAndDeleteLocal proverb = some (t, error)) :
    Keeps s t (s.deleteTarget proverb) := by
  cases proverb with
  | rProverb proverb =>
      simp only [checkAndDeleteLocal] at h
      simp only [deleteTarget, hlocal, if_true]
      split at h
      · rename_i rFavoriteProverb hget
        rw [hget]
        exact keeps_deleteLocal h
      · rw [Option.some.injEq, Prod.mk.injEq] at h
        exact Keeps.of_same (by rw [h.1])
  | rFavorite f =>
      simp only [deleteTarget, hlocal, if_true]
      exact keeps_deleteLocal h
  | fFavorite f =>
      simp only [checkAndDeleteLocal, Option.some.injEq, Prod.mk.injEq] at h
      exact Keeps.of_same (by rw [h.1])

theorem keeps_delete {proverb : Proverb} (h : s.delete proverb request = some t) :
    Keeps s t (s.deleteTarget proverb) := by
  unfold delete at h
  split at h
  · split at h
    · rename_i hlocal
      obtain ⟨⟨u, error⟩, hu, rfl⟩ := Option.map_eq_some_iff.mp h
      have hkeeps := keeps_checkAndDeleteLocal hlocal hu
      exact hkeeps.congr (localStorage_deleteCompleted u request _ error)
    · rw [← Option.some.inj h]
      exact Keeps.of_same (localStorage_checkAndDeleteRemote s proverb request _)
  · simp at h

theorem keeps_checkAndSaveLocal (s : App) (proverb : Proverb) (random : Identifier)
    (now : Date) : Keeps s (s.checkAndSaveLocal proverb random now).1 [] := by
  cases proverb with
  | rProverb proverb =>
      simp only [checkAndSaveLocal]
      split
      · exact Keeps.of_same rfl
      · intro f hf _
        split <;> exact LocalStorage.isValid_saveUpdate hf _
  | rFavorite => exact Keeps.of_same rfl
  | fFavorite => exact Keeps.of_same rfl

theorem keeps_save {proverb : Proverb} (h : s.save proverb request random now = some t) :
    Keeps s t [] := by
  simp only [save] at h
  split at h
  · split at h
    · rw [← Option.some.inj h]
      have hsaved := keeps_checkAndSaveLocal
        (s.output (.saveCalled request s.isPurchased s.storedCount)) proverb random now
      exact Keeps.congr hsaved (localStorage_saveCompleted _ request _ _)
    · rw [← Option.some.inj h]
      exact Keeps.of_same (localStorage_chackAndSaveRemote _ proverb request _ random now)
  · simp at h

theorem keeps_checkCompleted {completion : CheckCompletion} {result : Bool}
    (h : s.checkCompleted completion result random now = some t) :
    Keeps s t (s.checkTarget completion result) := by
  cases completion with
  | answer request =>
      rw [← Option.some.inj h]
      exact Keeps.of_same rfl
  | checkAndSaveOrDelete request proverb =>
      cases result with
      | true => exact keeps_delete h
      | false => exact keeps_save h

theorem keeps_isFavorite {proverb : Proverb} {completion : CheckCompletion}
    (h : s.isFavorite proverb completion random now = some t) :
    Keeps s t (s.checkTarget completion true) := by
  have hchecked : ∀ result, s.checkCompleted completion result random now = some t →
      Keeps s t (s.checkTarget completion true) := by
    intro result hresult
    apply (keeps_checkCompleted hresult).mono
    cases completion with
    | answer => exact List.Subset.refl _
    | checkAndSaveOrDelete => cases result <;> simp [checkTarget]
  unfold isFavorite at h
  split at h
  · exact hchecked _ h
  · cases proverb with
    | rProverb proverb =>
        simp only [isFavoriteRemote] at h
        split at h
        · exact hchecked _ h
        · split at h
          · rw [← Option.some.inj h]
            exact Keeps.of_same rfl
          · exact hchecked _ h
    | rFavorite f => exact hchecked _ h
    | fFavorite f => exact hchecked _ h

end Keeps

/-! ## The callbacks of a migration -/

/-- A callback of a migration ends it, sends its next call, or gives up the user document.
What a call captures has just been read. -/
inductive Migrates (s : App) (erased : List RFavoriteProverb) : App → Prop where
  | ended (user : UserIdentifier) (result : Bool) (herased : s.localStorage.objects ⊆ erased) :
      Migrates s erased (s.migrationCompleted user result)
  | called (operation : Operation) (callback : Callback)
      (hfresh : ∀ f ∈ callback.captured, f ∈ s.localStorage.objects) :
      Migrates s erased (s.call operation callback)
  | dropped (manager : FirestoreManager) : Migrates s erased (s.dropUserDocument manager)

section Migrates

variable {s t : App} {migration : Migration}

theorem objects_subset_uploadTarget {proverbs : List RFavoriteProverb}
    (h : s.remoteCollection = none ∨ proverbs = []) :
    s.localStorage.objects ⊆ s.uploadTarget proverbs := by
  rw [uploadTarget, if_pos h]
  exact List.Subset.refl _

theorem migrates_upload {proverbs : List RFavoriteProverb}
    (h : s.saveToRemoteStorage migration proverbs = some t) :
    Migrates s (s.uploadTarget proverbs) t := by
  unfold saveToRemoteStorage at h
  split at h
  · rename_i hm
    rw [← Option.some.inj h]
    apply Migrates.ended
    exact objects_subset_uploadTarget (Or.inl (by simp [remoteCollection, hm]))
  · rename_i manager hm
    split at h
    · split at h
      · rw [← Option.some.inj h]
        exact Migrates.called _ _ (by simp [Callback.captured])
      · rename_i result hanswered
        rw [← Option.some.inj h]
        apply Migrates.ended
        apply objects_subset_uploadTarget
        cases hu : manager.favoritesCollection with
        | none => exact Or.inl (by simp [remoteCollection, hm, hu])
        | some user =>
            simp only [FirestoreManager.saveAll, hu, List.length_map] at hanswered
            split at hanswered
            · rename_i hlength
              exact Or.inr (List.length_eq_zero_iff.mp hlength)
            · simp at hanswered
    · simp at h

theorem migrates_fetched {result : Except AppError (List FFavoriteProverb)}
    (h : s.favoritesFetched migration result = some t) :
    Migrates s (s.uploadTarget (toSave migration.localProverbs result)) t := by
  cases result with
  | error => exact migrates_upload h
  | ok favorites =>
      simp only [favoritesFetched] at h
      simp only [toSave]
      split at h
      · split at h
        · split at h
          · exact migrates_upload h
          · rename_i hnone
            rw [← Option.some.inj h]
            apply Migrates.ended
            apply objects_subset_uploadTarget
            exact Or.inr (List.length_eq_zero_iff.mp (Nat.eq_zero_of_not_pos hnone))
        · simp at h
      · rename_i hempty
        have hnil : favorites = [] := List.length_eq_zero_iff.mp (Nat.eq_zero_of_not_pos hempty)
        have hall : filter migration.localProverbs favorites = migration.localProverbs := by
          simp [filter, hnil]
        rw [hall]
        exact migrates_upload h

theorem migrates_check {user : UserIdentifier}
    (h : s.checkAndMigrateLocalFavoriteProverbs user = some t) :
    Migrates s (s.uploadTarget s.localStorage.objects) t := by
  have hempty : s.localStorage.objects = [] → ∀ result,
      some (s.migrationCompleted user result) = some t →
      Migrates s (s.uploadTarget s.localStorage.objects) t := by
    intro hnil result hdone
    rw [← Option.some.inj hdone]
    exact Migrates.ended user result (objects_subset_uploadTarget (Or.inr hnil))
  cases hall : s.localStorage.getAll with
  | none =>
      simp only [checkAndMigrateLocalFavoriteProverbs, hall] at h
      exact hempty (by simp [LocalStorage.objects, hall]) true h
  | some localProverbs =>
      obtain rfl := LocalStorage.objects_of_getAll hall
      simp only [checkAndMigrateLocalFavoriteProverbs, hall] at h
      split at h
      · split at h
        · rename_i hm
          rw [← Option.some.inj h]
          apply Migrates.ended
          exact objects_subset_uploadTarget (Or.inl (by simp [remoteCollection, hm]))
        · split at h
          · rw [← Option.some.inj h]
            exact Migrates.called _ _ fun f hf => hf
          · rename_i manager _ _ result hanswered
            have herror : result = .error .undefinedError := by
              unfold FirestoreManager.getAllFavoriteProverbs at hanswered
              split at hanswered
              · exact (Request.answered.inj hanswered).symm
              · simp at hanswered
            subst herror
            exact migrates_fetched h
      · rename_i hlength
        exact hempty (List.length_eq_zero_iff.mp (Nat.eq_zero_of_not_pos hlength)) true h

theorem migrates_ready {manager : FirestoreManager} {result : Bool}
    (h : s.userDocumentReady manager result = some t) :
    Migrates s (if result then s.uploadTarget s.localStorage.objects else []) t := by
  cases result with
  | true => exact migrates_check h
  | false =>
      rw [← Option.some.inj h]
      exact Migrates.dropped manager

theorem migrates_loaded {manager : FirestoreManager} {response : Response}
    (h : s.userDocumentLoaded manager response = some t) :
    Migrates s (s.callbackTarget (.userDocumentLoaded manager) response) t := by
  unfold userDocumentLoaded at h
  split at h
  · exact migrates_ready h
  · rw [← Option.some.inj h]
    exact Migrates.called _ _ (by simp [Callback.captured])
  · rename_i hloaded _
    rw [callbackTarget, if_neg hloaded]
    exact migrates_ready h

theorem migrates_called {callback : Callback} {response : Response} {random : Identifier}
    {now : Date} (hmigration : callback.isMigration = true)
    (h : s.called callback response random now = some t) :
    Migrates s (s.callbackTarget callback response) t := by
  cases callback with
  | userDocumentLoaded manager => exact migrates_loaded h
  | userCreated manager => exact migrates_ready h
  | favoritesFetched migration => exact migrates_fetched h
  | favoritesUploaded migration =>
      rw [← Option.some.inj h]
      exact Migrates.ended _ _ (List.Subset.refl _)
  | getAll | isFavorite | save | getFavorite | delete => simp [Callback.isMigration] at hmigration

end Migrates

/-! ## Captured favourites stay managed -/

/-- What a pending call has captured has not been deleted. -/
def CapturedManaged (s : App) : Prop :=
  ∀ call ∈ s.calls, ∀ f ∈ call.callback.captured, s.localStorage.isValid f = true

section Captured

variable {s t : App} {erased : List RFavoriteProverb}

theorem CapturedManaged.keep (h : CapturedManaged s)
    (hguard : s.localStorage.Available → Uncaptured s.calls erased) (hkeeps : Keeps s t erased)
    (hcalls : ∃ cs, t.calls = s.calls ++ cs ∧
      ∀ call ∈ cs, ∀ f ∈ call.callback.captured, t.localStorage.isValid f = true) :
    CapturedManaged t := by
  obtain ⟨cs, hcs, hnew⟩ := hcalls
  intro call hcall f hf
  rw [hcs] at hcall
  rcases List.mem_append.mp hcall with hpending | hadded
  · exact hkeeps f (h call hpending f hf) fun havailable => hguard havailable call hpending f hf
  · exact hnew call hadded f hf

theorem captured_of_request {callback : Callback} {request : Nat}
    (h : Callback.request callback = some request) : callback.captured = [] := by
  cases callback with
  | favoritesFetched => simp [Callback.request] at h
  | _ => rfl

theorem isMigration_of_request {callback : Callback} :
    callback.isMigration = true ↔ Callback.request callback = none := by
  cases callback with
  | isFavorite completion => cases completion <;> simp [Callback.isMigration, Callback.request]
  | _ => simp [Callback.isMigration, Callback.request]

theorem CapturedManaged.request {request : Nat} (h : CapturedManaged s)
    (hguard : s.localStorage.Available → Uncaptured s.calls erased) (hkeeps : Keeps s t erased)
    (heffect : RequestEffect request s t) : CapturedManaged t := by
  obtain ⟨cs, hcs, hrequest⟩ := heffect.calls
  refine h.keep hguard hkeeps ⟨cs, hcs, fun call hcall f hf => ?_⟩
  rw [captured_of_request (hrequest call hcall)] at hf
  exact absurd hf List.not_mem_nil

theorem CapturedManaged.account (h : CapturedManaged s) (heffect : AccountEffect s t)
    (hstorage : t.localStorage = s.localStorage) : CapturedManaged t := by
  obtain ⟨cs, hcs, hload⟩ := heffect.calls
  have hkeeps : Keeps s t [] := Keeps.of_same hstorage
  refine h.keep (fun _ _ _ _ _ g hg => absurd hg List.not_mem_nil) hkeeps
    ⟨cs, hcs, fun call hcall f hf => ?_⟩
  obtain ⟨manager⟩ := hload call hcall
  exact absurd hf List.not_mem_nil

theorem CapturedManaged.migrates (h : CapturedManaged s)
    (hguard : s.localStorage.Available → Uncaptured s.calls erased)
    (hmigrates : Migrates s erased t) : CapturedManaged t := by
  cases hmigrates with
  | ended user result herased =>
      have hkeeps : Keeps s (s.migrationCompleted user result) erased := fun f hf hother =>
        LocalStorage.isValid_deleteAll hf fun havailable g hg =>
          hother havailable g (herased hg)
      exact h.keep hguard hkeeps ⟨[], (List.append_nil s.calls).symm, by simp⟩
  | called operation callback hfresh =>
      refine h.keep hguard (Keeps.of_same rfl) ⟨[⟨operation, callback, none⟩], rfl, ?_⟩
      intro call hcall f hf
      obtain rfl := List.mem_singleton.mp hcall
      exact LocalStorage.isValid_of_mem (hfresh f hf)
  | dropped manager =>
      exact h.keep hguard (Keeps.of_same rfl) ⟨[], (List.append_nil s.calls).symm, by simp⟩

/-! ## Every step -/

theorem captured_called {callback : Callback} {response : Response} {random : Identifier}
    {now : Date} (h : CapturedManaged s)
    (hguard : s.localStorage.Available → Uncaptured s.calls (s.callbackTarget callback response))
    (hs : s.called callback response random now = some t) : CapturedManaged t := by
  rcases called_effect hs with ⟨request, hrequest, heffect⟩ | ⟨hrequest, _⟩
  · refine h.request hguard ?_ heffect
    cases callback with
    | getAll request =>
        rw [← Option.some.inj hs]
        exact Keeps.of_same rfl
    | isFavorite completion => exact keeps_checkCompleted hs
    | save request ids proverb =>
        rw [← Option.some.inj hs]
        exact Keeps.of_same (localStorage_saveCompleted s request ids _)
    | getFavorite request ids =>
        rw [← Option.some.inj hs]
        exact Keeps.of_same (localStorage_favoriteFound s request ids _)
    | delete request ids =>
        rw [← Option.some.inj hs]
        exact Keeps.of_same (localStorage_deleteCompleted s request ids _)
    | userDocumentLoaded | userCreated | favoritesFetched | favoritesUploaded =>
        simp [Callback.request] at hrequest
  · exact h.migrates hguard (migrates_called (isMigration_of_request.mpr hrequest) hs)

theorem captured_deliver {index : Nat} {random : Identifier} {now : Date}
    (h : CapturedManaged s) (hguard : s.ErasesUncaptured ⟨.deliver index, random, now⟩)
    (hs : s.deliver index random now = some t) : CapturedManaged t := by
  unfold deliver at hs
  split at hs
  · rename_i operation callback response hcall
    simp only [ErasesUncaptured, stillPending, App.erased, hcall] at hguard
    let u : App := { s with calls := s.calls.eraseIdx index }
    have hpending : CapturedManaged u := fun call hmem => h call (List.mem_of_mem_eraseIdx hmem)
    exact captured_called hpending hguard hs
  · rw [← Option.some.inj hs]
    exact h

theorem captured_serve (h : CapturedManaged s) (index : Nat) (outcome : Outcome) :
    CapturedManaged (s.serve index outcome) := by
  unfold serve
  split
  · rename_i operation callback hcall
    intro call hmem
    rcases List.mem_or_eq_of_mem_set hmem with hpending | rfl
    · exact h call hpending
    · exact h ⟨operation, callback, none⟩ (List.mem_of_getElem? hcall)
  · exact h

theorem captured_launch (s : App) (throws : Bool) : CapturedManaged (s.launch throws) := by
  have heffect : AccountEffect _ (s.launch throws) := effect_launch s throws
  obtain ⟨cs, hcs, hload⟩ := heffect.calls
  intro call hcall
  rw [hcs] at hcall
  obtain ⟨manager⟩ := hload call hcall
  exact fun f hf => absurd hf List.not_mem_nil

theorem captured_step {input : Input} (h : CapturedManaged s)
    (hguard : s.ErasesUncaptured input) (hs : step s input = some t) : CapturedManaged t := by
  have htake : CapturedManaged s.takeRequest := h
  obtain ⟨event, random, now⟩ := input
  cases event with
  | launch throws =>
      rw [← Option.some.inj hs]
      exact captured_launch s throws
  | getAll =>
      rw [← Option.some.inj hs]
      exact htake.request hguard (Keeps.of_same (localStorage_getAll _ _))
        (quiet_getAll _).quietRequest_request
  | isFavorite proverb =>
      exact htake.request hguard (keeps_isFavorite hs) (request_isFavorite rfl hs)
  | save proverb => exact htake.request hguard (keeps_save hs) (request_save hs)
  | delete proverb =>
      exact htake.request hguard (keeps_delete hs) (quiet_delete hs).quietRequest_request
  | checkAndSaveOrDeleteFavorite proverb =>
      exact htake.request hguard (keeps_isFavorite hs) (request_isFavorite rfl hs)
  | serve index outcome =>
      rw [← Option.some.inj hs]
      exact captured_serve h index outcome
  | deliver index => exact captured_deliver h hguard hs
  | realmWrites throw =>
      rw [← Option.some.inj hs]
      exact fun call hcall f hf => h call hcall f hf
  | _ =>
      have hstorage := localStorage_account rfl hs
      rcases effect_step rfl hs with heffect | heffect
      · exact h.account heffect hstorage
      · exact htake.account heffect hstorage

end Captured

/-! ## Nothing deleted is read -/

section Reads

variable {s : App} {migration : Migration}

/-- All that the upload reads is managed, or there is nobody to upload to. -/
theorem saveToRemoteStorage_isSome {proverbs : List RFavoriteProverb}
    (h : ∀ f ∈ proverbs, s.localStorage.isValid f = true) :
    (s.saveToRemoteStorage migration proverbs).isSome := by
  unfold saveToRemoteStorage
  split
  · rfl
  · rw [if_pos (List.all_eq_true.mpr h)]
    split <;> rfl

theorem favoritesFetched_isSome (h : ∀ f ∈ migration.localProverbs, s.localStorage.isValid f = true)
    (result : Except AppError (List FFavoriteProverb)) :
    (s.favoritesFetched migration result).isSome := by
  cases result with
  | error => exact saveToRemoteStorage_isSome h
  | ok favorites =>
      simp only [favoritesFetched, if_pos (List.all_eq_true.mpr h)]
      split
      · split
        · exact saveToRemoteStorage_isSome fun f hf => h f (List.mem_of_mem_filter hf)
        · rfl
      · exact saveToRemoteStorage_isSome h

/-- With a remote storage every answer of the fetch has the deleted favourite read. -/
theorem favoritesFetched_traps (hm : s.remoteStorage.isSome) {f : RFavoriteProverb}
    (hf : f ∈ migration.localProverbs) (hdeleted : s.localStorage.isValid f = false)
    (result : Except AppError (List FFavoriteProverb)) :
    s.favoritesFetched migration result = none := by
  obtain ⟨manager, hm⟩ := Option.isSome_iff_exists.mp hm
  have hall : migration.localProverbs.all s.localStorage.isValid = false := by
    rw [List.all_eq_false]
    exact ⟨f, hf, by simp [hdeleted]⟩
  cases result with
  | error => simp [favoritesFetched, saveToRemoteStorage, hm, hall]
  | ok favorites =>
      by_cases hfetched : 0 < favorites.length
      · simp only [favoritesFetched, hfetched, hall, if_true, Bool.false_eq_true, if_false]
      · simp only [favoritesFetched, hfetched, if_false, saveToRemoteStorage, hm, hall,
          Bool.false_eq_true]

theorem checkAndMigrate_isSome (s : App) (user : UserIdentifier) :
    (s.checkAndMigrateLocalFavoriteProverbs user).isSome := by
  cases hall : s.localStorage.getAll with
  | none => simp [checkAndMigrateLocalFavoriteProverbs, hall]
  | some localProverbs =>
      obtain rfl := LocalStorage.objects_of_getAll hall
      simp only [checkAndMigrateLocalFavoriteProverbs, hall]
      split
      · split
        · rfl
        · split
          · rfl
          · exact favoritesFetched_isSome (fun f hf => LocalStorage.isValid_of_mem hf) _
      · rfl

theorem userDocumentReady_isSome (s : App) (manager : FirestoreManager) (result : Bool) :
    (s.userDocumentReady manager result).isSome := by
  cases result with
  | true => exact checkAndMigrate_isSome s manager.currentUserIdentifier
  | false => rfl

theorem called_isSome {callback : Callback} (hmigration : callback.isMigration = true)
    (h : ∀ f ∈ callback.captured, s.localStorage.isValid f = true) (response : Response)
    (random : Identifier) (now : Date) : (s.called callback response random now).isSome := by
  cases callback with
  | userDocumentLoaded manager =>
      simp only [called, userDocumentLoaded]
      split
      · exact userDocumentReady_isSome s manager true
      · rfl
      · exact userDocumentReady_isSome s manager false
  | userCreated manager => exact userDocumentReady_isSome s manager _
  | favoritesFetched migration => exact favoritesFetched_isSome h _
  | favoritesUploaded migration => rfl
  | getAll | isFavorite | save | getFavorite | delete => simp [Callback.isMigration] at hmigration

theorem CapturedManaged.migrationReads (h : CapturedManaged s) (input : Input) :
    s.MigrationReads input := by
  unfold MigrationReads
  split
  · rename_i index hevent
    split
    · rename_i operation callback response hcall
      intro hmigration
      have hcaptured := h ⟨operation, callback, some response⟩ (List.mem_of_getElem? hcall)
      simp only [step, hevent, deliver, hcall]
      exact called_isSome (s := { s with calls := s.calls.eraseIdx index }) hmigration hcaptured
        response input.random input.now
    · trivial
  · trivial

/-- Once a captured favourite has been deleted, its pending call can only trap. -/
theorem not_migrationReads_of_deleted (hm : s.remoteStorage.isSome) {index : Nat}
    {operation : Operation} {response : Response}
    (hcall : s.calls[index]? = some ⟨operation, .favoritesFetched migration, some response⟩)
    {f : RFavoriteProverb} (hf : f ∈ migration.localProverbs)
    (hdeleted : s.localStorage.isValid f = false) (random : Identifier) (now : Date) :
    ¬ s.MigrationReads ⟨.deliver index, random, now⟩ := by
  intro hreads
  let t : App := { s with calls := s.calls.eraseIdx index }
  have htrap : t.favoritesFetched migration
      (FirestoreManager.getAllFavoriteProverbsResult response) = none :=
    favoritesFetched_traps (s := t) hm hf hdeleted _
  have hsome : (t.favoritesFetched migration
      (FirestoreManager.getAllFavoriteProverbsResult response)).isSome := by
    simpa only [MigrationReads, hcall, Callback.isMigration, true_implies, step, deliver, called]
      using hreads
  rw [htrap] at hsome
  exact absurd hsome Bool.false_ne_true

end Reads

/-- In every run from a launch in which no step erases a favourite that a pending call has
captured, the migrations read managed objects only. -/
theorem migrations_read_managed_along (device : App) (throws : Bool) (inputs : List Input)
    (hguard : Transition.Along step ErasesUncaptured (device.launch throws) inputs) :
    Transition.Along step MigrationReads (device.launch throws) inputs :=
  Transition.along_of_invariant
    (fun _ _ _ hs hstep h => captured_step hs hstep h)
    (fun _ input hs _ => hs.migrationReads input) (captured_launch device throws) hguard

/-- The favourite is deleted on a screen once the migration has fetched and compared. -/
def deletedAfterwards : List Input :=
  [.serve 0 .success, .deliver 0, .serve 0 .success, .deliver 0,
    .delete (.rFavorite ⟨"favorite", "proverb", 0, "", "", ""⟩), .serve 0 .success,
    .deliver 0].map fun event => ⟨event, "", 0⟩

theorem migrations_read_managed_along_uploaded :
    Transition.Along step MigrationReads (knownUser.launch false) deletedAfterwards :=
  migrations_read_managed_along knownUser false deletedAfterwards (by decide)

def deletedMeanwhile : List Input :=
  [.serve 0 .success, .deliver 0, .delete (.rFavorite ⟨"favorite", "proverb", 0, "", "", ""⟩),
    .serve 0 .success, .deliver 0].map fun event => ⟨event, "", 0⟩

theorem migration_reads_deleted :
    ¬ Transition.Along step MigrationReads (knownUser.launch false) deletedMeanwhile := by
  intro h
  obtain ⟨_, hloaded⟩ := h
  obtain ⟨_, hfetching⟩ := hloaded _ rfl
  obtain ⟨_, hdeleted⟩ := hfetching _ rfl
  obtain ⟨_, hfetched⟩ := hdeleted _ rfl
  obtain ⟨hreads, _⟩ := hfetched _ rfl
  have htrap : false = true := hreads rfl
  exact Bool.false_ne_true htrap

end App

end Proverbs
