import Proverbs.Managers.CatalogueContent
import Proverbs.Managers.Effects

/-! # What a step brings

No closure and no method of the managers makes up a favourite: the ones it stores, sends
or hands out are copied from those it was given, captured or has read.
-/

namespace Proverbs.App

/-- Everything stored, in flight or handed out comes from the catalogue. -/
structure OfCatalogue (catalogue : LocalStorage RProverb) (s : App) : Prop where
  stored : CopiesOf catalogue s.localStorage.objects
  documents : s.firestore.OfCatalogue catalogue
  calls : ∀ call ∈ s.calls, call.OfCatalogue catalogue
  outputs : ∀ o ∈ s.outputs, o.OfCatalogue catalogue

/-- New favourites, calls and outputs come from the catalogue. -/
structure Brings (catalogue : LocalStorage RProverb) (s t : App) : Prop where
  effect : Extends (Call.OfCatalogue catalogue) (Output.OfCatalogue catalogue) s t
  stored : ∀ f ∈ t.localStorage.objects,
    f ∈ s.localStorage.objects ∨ Proverb.OfCatalogue catalogue (.rFavorite f)

section Brings

variable {catalogue : LocalStorage RProverb} {s t u : App} {proverb : Proverb}
  {random : Identifier} {now : Date}

namespace Brings

theorem refl (s : App) : Brings catalogue s s := ⟨.refl s, fun _ hf => Or.inl hf⟩

theorem trans (h : Brings catalogue s t) (h' : Brings catalogue t u) : Brings catalogue s u := by
  refine ⟨h.effect.trans h'.effect, fun f hf => ?_⟩
  rcases h'.stored f hf with hold | hnew
  · exact h.stored f hold
  · exact Or.inr hnew

theorem of_subset
    (heffect : Extends (Call.OfCatalogue catalogue) (Output.OfCatalogue catalogue) s t)
    (hsubset : t.localStorage.objects ⊆ s.localStorage.objects) : Brings catalogue s t :=
  ⟨heffect, fun _ hf => Or.inl (hsubset hf)⟩

theorem of_same
    (heffect : Extends (Call.OfCatalogue catalogue) (Output.OfCatalogue catalogue) s t)
    (hsame : t.localStorage = s.localStorage) : Brings catalogue s t :=
  of_subset heffect (hsame ▸ List.Subset.refl _)

theorem output {o : Output} (h : o.OfCatalogue catalogue) : Brings catalogue s (s.output o) :=
  of_same (.output h) rfl

theorem plain {o : Output} (h : o.proverbs = []) : Brings catalogue s (s.output o) := by
  apply output
  intro proverb hproverb
  rw [h] at hproverb
  cases hproverb

theorem call {operation : Operation} {callback : Callback}
    (hwritten : ∀ f ∈ operation.written, Proverb.OfCatalogue catalogue (.fFavorite f))
    (hcaptured : ∀ proverb ∈ callback.proverbs, Proverb.OfCatalogue catalogue proverb) :
    Brings catalogue s (s.call operation callback) := by
  have hcall : Call.OfCatalogue catalogue ⟨operation, callback, none⟩ :=
    ⟨hwritten, hcaptured, fun _ hnone => by cases hnone⟩
  exact of_same (.call hcall) rfl

theorem ask {operation : Operation} {callback : Callback} (hwritten : operation.written = [])
    (hcaptured : callback.proverbs = []) : Brings catalogue s (s.call operation callback) := by
  apply call
  · rw [hwritten]
    exact fun _ hf => by cases hf
  · rw [hcaptured]
    exact fun _ hf => by cases hf

end Brings

theorem OfCatalogue.brings (h : OfCatalogue catalogue s) (hbrings : Brings catalogue s t) :
    OfCatalogue catalogue t := by
  obtain ⟨⟨⟨cs, hcalls, hcs⟩, ⟨os, houtputs, hos⟩, -, hfirestore⟩, hstored⟩ := hbrings
  refine ⟨fun f hf => (hstored f hf).elim (h.stored f) id, hfirestore ▸ h.documents, ?_, ?_⟩
  · intro call hcall
    rw [hcalls] at hcall
    rcases List.mem_append.mp hcall with hold | hnew
    · exact h.calls call hold
    · exact hcs call hnew
  · intro o ho
    rw [houtputs] at ho
    rcases List.mem_append.mp ho with hold | hnew
    · exact h.outputs o hold
    · exact hos o hnew

/-! ## Saving -/

theorem brings_saveFailed (request : Nat) (ids : ProverbIdentifiers) (error : AppError) :
    Brings catalogue s (s.saveCompleted request ids (.error error)) := Brings.plain rfl

theorem brings_saveCompleted (request : Nat) (ids : ProverbIdentifiers)
    {result : Except AppError Proverb}
    (h : ∀ proverb, result = .ok proverb → Proverb.OfCatalogue catalogue proverb) :
    Brings catalogue s (s.saveCompleted request ids result) := by
  cases result with
  | ok proverb =>
      have hsaved : Output.OfCatalogue catalogue (.saved request (.ok proverb)) := by
        intro other hother
        exact List.mem_singleton.mp hother ▸ h proverb rfl
      exact (Brings.plain rfl).trans (Brings.output hsaved)
  | error error => exact brings_saveFailed request ids error

theorem brings_checkAndSaveLocal (s : App) (h : Proverb.OfCatalogue catalogue proverb)
    (random : Identifier) (now : Date) :
    Brings catalogue s (s.checkAndSaveLocal proverb random now).1 ∧
      ∀ saved, (s.checkAndSaveLocal proverb random now).2 = .ok saved →
        Proverb.OfCatalogue catalogue saved := by
  cases proverb with
  | rProverb proverb =>
      have hnew := h.rFavorite random now
      have hstored : ∀ f ∈ (s.localStorage.saveUpdate
          (RFavoriteProverb.ofRProverb random now proverb)).1.objects,
          f ∈ s.localStorage.objects ∨ Proverb.OfCatalogue catalogue (.rFavorite f) := by
        intro f hf
        rcases LocalStorage.mem_objects_saveUpdate hf with hold | rfl
        · exact Or.inl hold
        · exact Or.inr hnew
      simp only [checkAndSaveLocal]
      split
      · exact ⟨.refl s, fun _ hsaved => by cases hsaved⟩
      · split
        · exact ⟨⟨.of_same rfl rfl rfl rfl, hstored⟩, fun _ hsaved => Except.ok.inj hsaved ▸ hnew⟩
        · exact ⟨⟨.of_same rfl rfl rfl rfl, hstored⟩, fun _ hsaved => by cases hsaved⟩
  | rFavorite f => exact ⟨.refl s, fun _ hsaved => absurd hsaved (by simp [checkAndSaveLocal])⟩
  | fFavorite f => exact ⟨.refl s, fun _ hsaved => absurd hsaved (by simp [checkAndSaveLocal])⟩

theorem brings_chackAndSaveRemote (h : Proverb.OfCatalogue catalogue proverb) (request : Nat)
    (ids : ProverbIdentifiers) :
    Brings catalogue s (s.chackAndSaveRemote proverb request ids random now) := by
  cases proverb with
  | rProverb proverb =>
      have hnew := h.fFavorite random now
      simp only [chackAndSaveRemote]
      split
      · exact brings_saveFailed request ids _
      · split
        · rename_i hsent
          apply Brings.call
          · rw [FirestoreManager.written_save hsent]
            exact fun f hf => List.mem_singleton.mp hf ▸ hnew
          · exact fun f hf => List.mem_singleton.mp hf ▸ hnew
        · rename_i result hanswered
          have hfailed : result = .error .undefinedError := by
            unfold FirestoreManager.save at hanswered
            split at hanswered
            · exact (Request.answered.inj hanswered).symm
            · cases hanswered
          rw [hfailed]
          exact brings_saveFailed request ids .undefinedError
  | rFavorite f => exact brings_saveFailed request ids (.manager .isFavorite)
  | fFavorite f => exact brings_saveFailed request ids (.manager .isFavorite)

theorem brings_save {request : Nat} (h : Proverb.OfCatalogue catalogue proverb)
    (hs : s.save proverb request random now = some t) : Brings catalogue s t := by
  simp only [save] at hs
  split at hs
  · split at hs
    · rw [← Option.some.inj hs]
      obtain ⟨hlocal, hresult⟩ := brings_checkAndSaveLocal
        (s.output (.saveCalled request s.isPurchased s.storedCount)) h random now
      exact ((Brings.plain rfl).trans hlocal).trans (brings_saveCompleted request _ hresult)
    · rw [← Option.some.inj hs]
      exact (Brings.plain rfl).trans (brings_chackAndSaveRemote h request _)
  · cases hs

/-! ## Deleting and asking -/

theorem brings_deleteCompleted (request : Nat) (ids : ProverbIdentifiers)
    (error : Option AppError) : Brings catalogue s (s.deleteCompleted request ids error) := by
  cases error with
  | none => exact (Brings.plain rfl).trans (Brings.plain rfl)
  | some error => exact Brings.plain rfl

theorem brings_deleteLocal {f : RFavoriteProverb} {error : Option AppError}
    (hs : s.deleteLocal f = some (t, error)) : Brings catalogue s t := by
  refine .of_subset (.deleteLocal hs) ?_
  obtain ⟨⟨storage, done⟩, hdelete, hpair⟩ := Option.map_eq_some_iff.mp hs
  rw [← (Prod.mk.inj hpair).1]
  exact LocalStorage.objects_delete_subset hdelete

theorem brings_checkAndDeleteLocal {error : Option AppError}
    (hs : s.checkAndDeleteLocal proverb = some (t, error)) : Brings catalogue s t := by
  have hsame : some (s, some (AppError.manager .isNotFavorite)) = some (t, error) →
      Brings catalogue s t := fun hpair => (Prod.mk.inj (Option.some.inj hpair)).1 ▸ .refl s
  cases proverb with
  | rProverb proverb =>
      simp only [checkAndDeleteLocal] at hs
      split at hs
      · exact brings_deleteLocal hs
      · exact hsame hs
  | rFavorite f => exact brings_deleteLocal hs
  | fFavorite f => exact hsame hs

theorem brings_deleteRemote (request : Nat) (ids : ProverbIdentifiers)
    (proverb : FFavoriteProverb) : Brings catalogue s (s.deleteRemote request ids proverb) := by
  unfold deleteRemote
  split
  · exact brings_deleteCompleted request ids _
  · split
    · exact Brings.of_same (.of_same rfl rfl rfl rfl) rfl
    · rename_i hsent
      exact Brings.ask (FirestoreManager.written_delete hsent) rfl
    · exact brings_deleteCompleted request ids _

theorem brings_favoriteFound (request : Nat) (ids : ProverbIdentifiers)
    (result : Except AppError FFavoriteProverb) :
    Brings catalogue s (s.favoriteFound request ids result) := by
  cases result with
  | ok proverb => exact brings_deleteRemote request ids proverb
  | error error => exact brings_deleteCompleted request ids (some error)

theorem brings_checkAndDeleteRemote (proverb : Proverb) (request : Nat)
    (ids : ProverbIdentifiers) :
    Brings catalogue s (s.checkAndDeleteRemote proverb request ids) := by
  cases proverb with
  | rProverb proverb =>
      simp only [checkAndDeleteRemote]
      split
      · exact .refl s
      · split
        · rename_i hsent
          exact Brings.ask (FirestoreManager.written_getFavorite hsent) rfl
        · exact brings_favoriteFound request ids _
  | rFavorite f => exact brings_deleteCompleted request ids (some (.manager .isNotFavorite))
  | fFavorite f => exact brings_deleteRemote request ids f

theorem brings_delete {request : Nat} (hs : s.delete proverb request = some t) :
    Brings catalogue s t := by
  unfold delete at hs
  split at hs
  · split at hs
    · obtain ⟨⟨deleted, error⟩, hlocal, rfl⟩ := Option.map_eq_some_iff.mp hs
      exact (brings_checkAndDeleteLocal hlocal).trans (brings_deleteCompleted request _ error)
    · exact Option.some.inj hs ▸ brings_checkAndDeleteRemote proverb request _
  · cases hs

theorem brings_getAllCompleted (request : Nat)
    {result : Except AppError (List FFavoriteProverb)}
    (h : ∀ favorites, result = .ok favorites →
      ∀ f ∈ favorites, Proverb.OfCatalogue catalogue (.fFavorite f)) :
    Brings catalogue s (s.getAllCompleted request result) := by
  cases result with
  | ok favorites =>
      apply Brings.output
      intro proverb hproverb
      obtain ⟨f, hf, rfl⟩ := List.mem_map.mp hproverb
      exact h favorites rfl f hf
  | error error => exact Brings.plain rfl

theorem brings_getAll (request : Nat)
    (h : CopiesOf catalogue s.localStorage.objects) :
    Brings catalogue s (s.getAll request) := by
  unfold getAll
  split
  · split
    · rename_i hall
      obtain rfl := LocalStorage.objects_of_getAll hall
      apply Brings.output
      intro proverb hproverb
      obtain ⟨f, hf, rfl⟩ := List.mem_map.mp hproverb
      exact h f hf
    · exact Brings.plain rfl
  · split
    · exact Brings.plain rfl
    · split
      · rename_i hsent
        exact Brings.ask (FirestoreManager.written_getAllFavoriteProverbs hsent) rfl
      · rename_i result hanswered
        apply brings_getAllCompleted
        intro favorites hall
        rw [hall] at hanswered
        unfold FirestoreManager.getAllFavoriteProverbs at hanswered
        split at hanswered <;> cases hanswered

theorem brings_checkCompleted {completion : CheckCompletion} {result : Bool}
    (h : ∀ proverb ∈ (Callback.isFavorite completion).proverbs,
      Proverb.OfCatalogue catalogue proverb)
    (hs : s.checkCompleted completion result random now = some t) : Brings catalogue s t := by
  cases completion with
  | answer request => exact Option.some.inj hs ▸ Brings.plain rfl
  | checkAndSaveOrDelete request proverb =>
      simp only [checkCompleted] at hs
      split at hs
      · exact brings_delete hs
      · exact brings_save (h proverb (List.mem_singleton.mpr rfl)) hs

theorem brings_isFavorite {completion : CheckCompletion}
    (h : ∀ proverb ∈ (Callback.isFavorite completion).proverbs,
      Proverb.OfCatalogue catalogue proverb)
    (hs : s.isFavorite proverb completion random now = some t) : Brings catalogue s t := by
  unfold isFavorite at hs
  split at hs
  · exact brings_checkCompleted h hs
  · cases proverb with
    | rProverb proverb =>
        simp only [isFavoriteRemote] at hs
        split at hs
        · exact brings_checkCompleted h hs
        · split at hs
          · rename_i hsent
            rw [← Option.some.inj hs]
            apply Brings.call
            · rw [FirestoreManager.written_isFavorite hsent]
              exact fun _ hf => by cases hf
            · exact h
          · exact brings_checkCompleted h hs
    | rFavorite f => exact brings_checkCompleted h hs
    | fFavorite f => exact brings_checkCompleted h hs

/-! ## Migrating -/

theorem brings_migrationCompleted (user : UserIdentifier) (result : Bool) :
    Brings catalogue s (s.migrationCompleted user result) := by
  have hrecorded : Brings catalogue s (s.output (.migrated user
      (s.localStorage.objects.filter (· ∉ s.localStorage.deleteAll.objects)))) :=
    Brings.plain rfl
  exact hrecorded.trans (.of_subset (.of_same rfl rfl rfl rfl)
    (LocalStorage.objects_deleteAll_subset s.localStorage))

theorem brings_saveToRemoteStorage {migration : Migration} {proverbs : List RFavoriteProverb}
    (hcaptured : CopiesOf catalogue migration.localProverbs)
    (hproverbs : proverbs ⊆ migration.localProverbs)
    (hs : s.saveToRemoteStorage migration proverbs = some t) : Brings catalogue s t := by
  unfold saveToRemoteStorage at hs
  split at hs
  · exact Option.some.inj hs ▸ brings_migrationCompleted migration.user false
  · split at hs
    · split at hs
      · rename_i hsent
        rw [← Option.some.inj hs]
        apply Brings.call
        · rw [FirestoreManager.written_saveAll hsent]
          intro migrated hmigrated
          obtain ⟨f, hf, rfl⟩ := List.mem_map.mp hmigrated
          exact (hcaptured f (hproverbs hf)).migrated
        · intro proverb hproverb
          obtain ⟨f, hf, rfl⟩ := List.mem_map.mp hproverb
          exact hcaptured f hf
      · exact Option.some.inj hs ▸ brings_migrationCompleted migration.user _
    · cases hs

theorem brings_favoritesFetched {migration : Migration}
    {result : Except AppError (List FFavoriteProverb)}
    (hcaptured : CopiesOf catalogue migration.localProverbs)
    (hs : s.favoritesFetched migration result = some t) : Brings catalogue s t := by
  have hall := brings_saveToRemoteStorage (s := s) (t := t) hcaptured (List.Subset.refl _)
  cases result with
  | error error => exact hall hs
  | ok favorites =>
      simp only [favoritesFetched] at hs
      split at hs
      · split at hs
        · split at hs
          · exact brings_saveToRemoteStorage hcaptured (List.filter_subset_self _) hs
          · exact Option.some.inj hs ▸ brings_migrationCompleted migration.user true
        · cases hs
      · exact hall hs

theorem brings_checkAndMigrate {user : UserIdentifier}
    (h : CopiesOf catalogue s.localStorage.objects)
    (hs : s.checkAndMigrateLocalFavoriteProverbs user = some t) : Brings catalogue s t := by
  unfold checkAndMigrateLocalFavoriteProverbs at hs
  split at hs
  · exact Option.some.inj hs ▸ brings_migrationCompleted user true
  · rename_i hall
    obtain rfl := LocalStorage.objects_of_getAll hall
    split at hs
    · split at hs
      · exact Option.some.inj hs ▸ brings_migrationCompleted user false
      · split at hs
        · rename_i hsent
          rw [← Option.some.inj hs]
          apply Brings.call
          · rw [FirestoreManager.written_getAllFavoriteProverbs hsent]
            exact fun _ hf => by cases hf
          · intro proverb hproverb
            obtain ⟨f, hf, rfl⟩ := List.mem_map.mp hproverb
            exact h f hf
        · let migration : Migration := ⟨user, s.localStorage.objects⟩
          have hcaptured : CopiesOf catalogue migration.localProverbs := h
          exact brings_favoritesFetched hcaptured hs
    · exact Option.some.inj hs ▸ brings_migrationCompleted user true

theorem brings_userDocumentReady {manager : FirestoreManager} {result : Bool}
    (h : CopiesOf catalogue s.localStorage.objects)
    (hs : s.userDocumentReady manager result = some t) : Brings catalogue s t := by
  unfold userDocumentReady at hs
  split at hs
  · exact brings_checkAndMigrate h hs
  · exact Option.some.inj hs ▸ .of_same (.of_same rfl rfl rfl rfl) rfl

theorem brings_userDocumentLoaded {manager : FirestoreManager} {response : Response}
    (h : CopiesOf catalogue s.localStorage.objects)
    (hs : s.userDocumentLoaded manager response = some t) : Brings catalogue s t := by
  unfold userDocumentLoaded at hs
  split at hs
  · exact brings_userDocumentReady h hs
  · exact Option.some.inj hs ▸ Brings.ask rfl rfl
  · exact brings_userDocumentReady h hs

/-! ## Closures -/

theorem brings_called {callback : Callback} {response : Response}
    (h : CopiesOf catalogue s.localStorage.objects)
    (hcaptured : ∀ proverb ∈ callback.proverbs, Proverb.OfCatalogue catalogue proverb)
    (hfound : ∀ f ∈ response.found, Proverb.OfCatalogue catalogue (.fFavorite f))
    (hs : s.called callback response random now = some t) : Brings catalogue s t := by
  cases callback with
  | userDocumentLoaded manager => exact brings_userDocumentLoaded h hs
  | userCreated manager => exact brings_userDocumentReady h hs
  | favoritesFetched migration =>
      exact brings_favoritesFetched
        (fun f hf => hcaptured _ (List.mem_map.mpr ⟨f, hf, rfl⟩)) hs
  | favoritesUploaded migration =>
      exact Option.some.inj hs ▸ brings_migrationCompleted migration.user _
  | getAll request =>
      rw [← Option.some.inj hs]
      apply brings_getAllCompleted
      intro favorites hall
      cases response with
      | documents snapshots => exact Except.ok.inj hall ▸ hfound
      | _ => cases hall
  | isFavorite completion => exact brings_checkCompleted hcaptured hs
  | save request ids proverb =>
      rw [← Option.some.inj hs]
      apply brings_saveCompleted
      intro saved hsaved
      have hsame : saved = .fFavorite proverb := by
        cases response with
        | error => cases hsaved
        | _ => exact (Except.ok.inj hsaved).symm
      exact hcaptured saved (List.mem_singleton.mpr hsame)
  | getFavorite request ids => exact Option.some.inj hs ▸ brings_favoriteFound request ids _
  | delete request ids => exact Option.some.inj hs ▸ brings_deleteCompleted request ids _

end Brings

/-! ## Every step -/

section Steps

variable {catalogue : LocalStorage RProverb} {s t : App} {random : Identifier} {now : Date}

theorem OfCatalogue.serve (h : OfCatalogue catalogue s) (index : Nat) (outcome : Outcome) :
    OfCatalogue catalogue (s.serve index outcome) := by
  unfold App.serve
  split
  · rename_i operation callback hcall
    obtain ⟨hwritten, hcaptured, -⟩ := h.calls _ (List.mem_of_getElem? hcall)
    refine ⟨h.stored, h.documents.written hwritten outcome, fun call hmem => ?_, h.outputs⟩
    rcases List.mem_or_eq_of_mem_set hmem with hold | rfl
    · exact h.calls call hold
    · refine ⟨hwritten, hcaptured, fun response hresponse => ?_⟩
      exact Option.some.inj hresponse ▸ h.documents.found operation outcome
  · exact h

theorem OfCatalogue.deliver (h : OfCatalogue catalogue s) {index : Nat}
    (hs : s.deliver index random now = some t) : OfCatalogue catalogue t := by
  unfold App.deliver at hs
  split at hs
  · rename_i operation callback response hcall
    have hserved := h.calls _ (List.mem_of_getElem? hcall)
    have herased : OfCatalogue catalogue { s with calls := s.calls.eraseIdx index } :=
      ⟨h.stored, h.documents, fun call hmem => h.calls call (List.mem_of_mem_eraseIdx hmem),
        h.outputs⟩
    exact herased.brings
      (brings_called h.stored hserved.captured (hserved.found response rfl) hs)
  · exact Option.some.inj hs ▸ h

/-- Loading a user document and answering for the account bring no favourites. -/
theorem brings_account (h : AccountEffect s t) (hstorage : t.localStorage = s.localStorage) :
    Brings catalogue s t := by
  refine .of_same (h.mono ?_ ?_) hstorage
  · rintro _ ⟨manager⟩
    exact ⟨fun _ hf => (by cases hf), fun _ hf => (by cases hf), fun _ hnone => (by cases hnone)⟩
  · intro o ho
    cases o with
    | signedIn | signedOut | purchased | restored => exact fun _ hproverb => by cases hproverb
    | _ => cases ho

theorem ofCatalogue_launch (hstored : CopiesOf catalogue s.localStorage.objects)
    (hdocuments : s.firestore.OfCatalogue catalogue) (throws : Bool) :
    OfCatalogue catalogue (s.launch throws) := by
  have hended : OfCatalogue catalogue s.restarted :=
    ⟨hstored, hdocuments, fun _ hcall => (by cases hcall), fun _ ho => (by cases ho)⟩
  have hstorage : (s.launch throws).localStorage = s.restarted.localStorage := by
    have hstart : (s.restarted.userManagerStart throws).localStorage = s.restarted.localStorage :=
      have hevent : isAccountEvent (Input.mk (.userManagerStart throws) "" 0).event = true := rfl
      localStorage_account hevent rfl
    exact (localStorage_setupFirestoreManager _).trans hstart
  exact hended.brings (brings_account (effect_launch s throws) hstorage)

end Steps

end Proverbs.App
