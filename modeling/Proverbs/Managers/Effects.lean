import Proverbs.Managers.Calculus

/-! # What a step adds

The closures only add to the pending calls and to what has been handed out, and
never touch Firestore themselves. `Extends` bounds what is added; it is composed
from the few primitive effects the closures have. The bounds that matter below: no
save is started or answered, only one request is touched or none, and only a user
document is loaded.
-/

namespace Proverbs.App

/-- `t` comes from `s` with new calls and new outputs of the given kinds. -/
structure Extends (newCall : Call → Prop) (newOutput : Output → Prop) (s t : App) : Prop where
  calls : ∃ cs, t.calls = s.calls ++ cs ∧ ∀ call ∈ cs, newCall call
  outputs : ∃ os, t.outputs = s.outputs ++ os ∧ ∀ o ∈ os, newOutput o
  request : t.nextRequest = s.nextRequest
  firestore : t.firestore = s.firestore

namespace Extends

variable {newCall newCall' : Call → Prop} {newOutput newOutput' : Output → Prop} {s t u : App}

theorem of_same (hc : t.calls = s.calls) (ho : t.outputs = s.outputs)
    (hr : t.nextRequest = s.nextRequest) (hf : t.firestore = s.firestore) :
    Extends newCall newOutput s t :=
  ⟨⟨[], by simp [hc], by simp⟩, ⟨[], by simp [ho], by simp⟩, hr, hf⟩

theorem refl (s : App) : Extends newCall newOutput s s := of_same rfl rfl rfl rfl

theorem trans (h : Extends newCall newOutput s t) (h' : Extends newCall newOutput t u) :
    Extends newCall newOutput s u := by
  obtain ⟨⟨cs, hc, hcs⟩, ⟨os, ho, hos⟩, hr, hf⟩ := h
  obtain ⟨⟨cs', hc', hcs'⟩, ⟨os', ho', hos'⟩, hr', hf'⟩ := h'
  refine ⟨⟨cs ++ cs', by rw [hc', hc, List.append_assoc], ?_⟩,
    ⟨os ++ os', by rw [ho', ho, List.append_assoc], ?_⟩, hr'.trans hr, hf'.trans hf⟩
  · intro call hcall
    rcases List.mem_append.mp hcall with hcall | hcall
    · exact hcs call hcall
    · exact hcs' call hcall
  · intro o ho
    rcases List.mem_append.mp ho with ho | ho
    · exact hos o ho
    · exact hos' o ho

theorem mono (hcall : ∀ call, newCall call → newCall' call)
    (houtput : ∀ o, newOutput o → newOutput' o) (h : Extends newCall newOutput s t) :
    Extends newCall' newOutput' s t := by
  obtain ⟨⟨cs, hc, hcs⟩, ⟨os, ho, hos⟩, hr, hf⟩ := h
  exact ⟨⟨cs, hc, fun call hmem => hcall call (hcs call hmem)⟩,
    ⟨os, ho, fun o hmem => houtput o (hos o hmem)⟩, hr, hf⟩

theorem after_same (h : Extends newCall newOutput t u) (hc : t.calls = s.calls)
    (ho : t.outputs = s.outputs) (hr : t.nextRequest = s.nextRequest)
    (hf : t.firestore = s.firestore) : Extends newCall newOutput s u :=
  (of_same hc ho hr hf).trans h

theorem output {o : Output} (h : newOutput o) : Extends newCall newOutput s (s.output o) :=
  ⟨⟨[], by simp [App.output], by simp⟩, ⟨[o], rfl, by simpa using h⟩, rfl, rfl⟩

theorem call {operation : Operation} {callback : Callback}
    (h : newCall ⟨operation, callback, none⟩) :
    Extends newCall newOutput s (s.call operation callback) :=
  ⟨⟨[⟨operation, callback, none⟩], rfl, by simpa using h⟩, ⟨[], by simp [App.call], by simp⟩,
    rfl, rfl⟩

/-! ## The local paths -/

section Local

variable {request : Nat}

theorem saveCompleted {ids : ProverbIdentifiers} (hposted : newOutput (.didSave ids))
    (hanswered : ∀ result, newOutput (.saved request result))
    (result : Except AppError Proverb) :
    Extends newCall newOutput s (s.saveCompleted request ids result) := by
  cases result with
  | ok proverb => exact (output hposted).trans (output (hanswered _))
  | error error => exact output (hanswered _)

theorem deleteCompleted {ids : ProverbIdentifiers} (hposted : newOutput (.didDelete ids))
    (hanswered : ∀ error, newOutput (.deleted request error)) (error : Option AppError) :
    Extends newCall newOutput s (s.deleteCompleted request ids error) := by
  cases error with
  | none => exact (output hposted).trans (output (hanswered _))
  | some error => exact output (hanswered _)

theorem checkAndSaveLocal (proverb : Proverb) (random : Identifier) (now : Date) :
    Extends newCall newOutput s (s.checkAndSaveLocal proverb random now).1 := by
  cases proverb with
  | rProverb proverb =>
      simp only [App.checkAndSaveLocal]
      split
      · exact refl s
      · split <;> exact of_same rfl rfl rfl rfl
  | rFavorite f => exact refl s
  | fFavorite f => exact refl s

theorem deleteLocal {f : RFavoriteProverb} {error : Option AppError}
    (h : s.deleteLocal f = some (t, error)) : Extends newCall newOutput s t := by
  obtain ⟨⟨storage, done⟩, _, hp⟩ := Option.map_eq_some_iff.mp h
  rw [Prod.mk.injEq] at hp
  rw [← hp.1]
  exact of_same rfl rfl rfl rfl

theorem checkAndDeleteLocal {proverb : Proverb} {error : Option AppError}
    (h : s.checkAndDeleteLocal proverb = some (t, error)) : Extends newCall newOutput s t := by
  have hsame : some (s, some (AppError.manager .isNotFavorite)) = some (t, error) →
      Extends newCall newOutput s t := by
    intro hs
    rw [← (Prod.mk.inj (Option.some.inj hs)).1]
    exact refl s
  cases proverb with
  | rProverb proverb =>
      simp only [App.checkAndDeleteLocal] at h
      split at h
      · exact deleteLocal h
      · exact hsame h
  | rFavorite f => exact deleteLocal h
  | fFavorite f => exact hsame h

end Local

end Extends

/-! ## Steps that do not save -/

/-- The request a pending callback may still answer with a save. -/
def Callback.saveRequest : Callback → Option Nat
  | .isFavorite (.checkAndSaveOrDelete request _) => some request
  | .save request _ _ => some request
  | _ => none

def isSaveOutput : Output → Bool
  | .saveCalled .. | .saved .. => true
  | _ => false

/-- No save is started or answered between the two states. -/
abbrev Quiet : App → App → Prop :=
  Extends (fun call => Callback.saveRequest call.callback = none)
    (fun o => isSaveOutput o = false)

/-! ## Requests -/

/-- The request whose answer a pending callback still owes. -/
def Callback.request : Callback → Option Nat
  | .getAll request => some request
  | .isFavorite (.answer request) => some request
  | .isFavorite (.checkAndSaveOrDelete request _) => some request
  | .save request _ _ => some request
  | .getFavorite request _ => some request
  | .delete request _ => some request
  | _ => none

def Output.request : Output → Option Nat
  | .checked request _ => some request
  | .saved request _ => some request
  | .deleted request _ => some request
  | .gotAll request _ => some request
  | _ => none

def Output.attempt : Output → Option Nat
  | .signedIn attempt _ => some attempt
  | _ => none

theorem Callback.saveRequest_of_request {callback : Callback}
    (h : Callback.request callback = none) : Callback.saveRequest callback = none := by
  cases callback with
  | isFavorite completion => cases completion <;> simp [request] at h
  | save => simp [request] at h
  | _ => rfl

/-- No callback of any request is left, none is answered, and nothing is saved. -/
abbrev Silent : App → App → Prop :=
  Extends (fun call => Callback.request call.callback = none)
    (fun o => Output.request o = none ∧ isSaveOutput o = false)

def Output.Answers (request : Nat) (o : Output) : Prop :=
  (∀ r, Output.request o = some r → r = request) ∧ Output.attempt o = none

abbrev RequestEffect (request : Nat) : App → App → Prop :=
  Extends (fun call => Callback.request call.callback = some request) (Output.Answers request)

/-- As `RequestEffect`, and nothing is saved. -/
abbrev QuietRequest (request : Nat) : App → App → Prop :=
  Extends
    (fun call => Callback.request call.callback = some request ∧
      Callback.saveRequest call.callback = none)
    (fun o => Output.Answers request o ∧ isSaveOutput o = false)

abbrev MigrationEffect : App → App → Prop :=
  Extends (fun call => Callback.request call.callback = none)
    (fun o => ∃ user erased, o = .migrated user erased)

theorem Extends.migration_silent {s t : App} (h : MigrationEffect s t) : Silent s t := by
  apply h.mono
  · exact fun _ hcall => hcall
  · rintro _ ⟨user, erased, rfl⟩
    exact ⟨rfl, rfl⟩

theorem Output.answers_of_request {o : Output} {request : Nat}
    (h : Output.request o = some request) : Output.Answers request o := by
  refine ⟨fun r hr => Option.some.inj (hr.symm.trans h), ?_⟩
  cases o with
  | signedIn => simp [Output.request] at h
  | _ => rfl

theorem Output.answers_of_none {o : Output} {request : Nat} (h : Output.request o = none)
    (hattempt : Output.attempt o = none) : Output.Answers request o :=
  ⟨fun r hr => absurd (hr.symm.trans h) (Option.some_ne_none r), hattempt⟩

theorem Extends.silent_quiet {s t : App} (h : Silent s t) : Quiet s t := by
  apply h.mono
  · exact fun _ hcall => Callback.saveRequest_of_request hcall
  · exact fun _ ho => ho.2

theorem Extends.quietRequest_quiet {s t : App} {request : Nat} (h : QuietRequest request s t) :
    Quiet s t := by
  apply h.mono
  · exact fun _ hcall => hcall.2
  · exact fun _ ho => ho.2

theorem Extends.quietRequest_request {s t : App} {request : Nat}
    (h : QuietRequest request s t) : RequestEffect request s t := by
  apply h.mono
  · exact fun _ hcall => hcall.1
  · exact fun _ ho => ho.1

/-! ## Favourites -/

section Favorites

variable {s s' : App} (request : Nat) (ids : ProverbIdentifiers)

theorem quiet_deleteCompleted (error : Option AppError) :
    QuietRequest request s (s.deleteCompleted request ids error) := by
  apply Extends.deleteCompleted
  · exact ⟨Output.answers_of_none rfl rfl, rfl⟩
  · exact fun _ => ⟨Output.answers_of_request rfl, rfl⟩

theorem quiet_getAllCompleted (result : Except AppError (List FFavoriteProverb)) :
    QuietRequest request s (s.getAllCompleted request result) :=
  Extends.output ⟨Output.answers_of_request rfl, rfl⟩

theorem quiet_deleteRemote (proverb : FFavoriteProverb) :
    QuietRequest request s (s.deleteRemote request ids proverb) := by
  unfold deleteRemote
  split
  · exact quiet_deleteCompleted request ids _
  · split
    · exact Extends.of_same rfl rfl rfl rfl
    · exact Extends.call ⟨rfl, rfl⟩
    · exact quiet_deleteCompleted request ids _

theorem quiet_favoriteFound (result : Except AppError FFavoriteProverb) :
    QuietRequest request s (s.favoriteFound request ids result) := by
  cases result with
  | ok proverb => exact quiet_deleteRemote request ids proverb
  | error error => exact quiet_deleteCompleted request ids (some error)

theorem quiet_checkAndDeleteRemote (proverb : Proverb) :
    QuietRequest request s (s.checkAndDeleteRemote proverb request ids) := by
  cases proverb with
  | rProverb proverb =>
      simp only [checkAndDeleteRemote]
      split
      · exact .refl s
      · split
        · exact Extends.call ⟨rfl, rfl⟩
        · exact quiet_favoriteFound request ids _
  | rFavorite f => exact quiet_deleteCompleted request ids (some (.manager .isNotFavorite))
  | fFavorite f => exact quiet_deleteRemote request ids f

theorem quiet_delete {proverb : Proverb} {request : Nat}
    (h : s.delete proverb request = some s') : QuietRequest request s s' := by
  unfold delete at h
  split at h
  · split at h
    · obtain ⟨⟨t, error⟩, ht, rfl⟩ := Option.map_eq_some_iff.mp h
      exact (Extends.checkAndDeleteLocal ht).trans (quiet_deleteCompleted request _ error)
    · rw [← Option.some.inj h]
      exact quiet_checkAndDeleteRemote request _ proverb
  · simp at h

theorem quiet_getAll : QuietRequest request s (s.getAll request) := by
  unfold getAll
  split
  · split <;> exact Extends.output ⟨Output.answers_of_request rfl, rfl⟩
  · split
    · exact Extends.output ⟨Output.answers_of_request rfl, rfl⟩
    · split
      · exact Extends.call ⟨rfl, rfl⟩
      · exact quiet_getAllCompleted request _

theorem request_saveCompleted (result : Except AppError Proverb) :
    RequestEffect request s (s.saveCompleted request ids result) := by
  apply Extends.saveCompleted
  · exact Output.answers_of_none rfl rfl
  · exact fun _ => Output.answers_of_request rfl

theorem request_chackAndSaveRemote (proverb : Proverb) (random : Identifier) (now : Date) :
    RequestEffect request s (s.chackAndSaveRemote proverb request ids random now) := by
  cases proverb with
  | rProverb proverb =>
      simp only [chackAndSaveRemote]
      split
      · exact request_saveCompleted request ids _
      · split
        · exact Extends.call rfl
        · exact request_saveCompleted request ids _
  | rFavorite f => exact request_saveCompleted request ids (.error (.manager .isFavorite))
  | fFavorite f => exact request_saveCompleted request ids (.error (.manager .isFavorite))

theorem request_save {proverb : Proverb} {request : Nat} {random : Identifier} {now : Date}
    (h : s.save proverb request random now = some s') : RequestEffect request s s' := by
  have hcalled : RequestEffect request s
      (s.output (.saveCalled request s.isPurchased s.storedCount)) :=
    Extends.output (Output.answers_of_none rfl rfl)
  simp only [save] at h
  split at h
  · split at h
    · rw [← Option.some.inj h]
      refine (hcalled.trans (Extends.checkAndSaveLocal proverb random now)).trans ?_
      exact request_saveCompleted request _ _
    · rw [← Option.some.inj h]
      exact hcalled.trans (request_chackAndSaveRemote request _ proverb random now)
  · simp at h

theorem request_checkCompleted {completion : CheckCompletion} {result : Bool} {request : Nat}
    {random : Identifier} {now : Date}
    (hrequest : Callback.request (.isFavorite completion) = some request)
    (h : s.checkCompleted completion result random now = some s') :
    RequestEffect request s s' := by
  cases completion with
  | answer other =>
      rw [← Option.some.inj h, ← Option.some.inj hrequest]
      exact Extends.output (Output.answers_of_request rfl)
  | checkAndSaveOrDelete other proverb =>
      rw [← Option.some.inj hrequest]
      simp only [checkCompleted] at h
      split at h
      · exact (quiet_delete h).quietRequest_request
      · exact request_save h

theorem request_isFavorite {proverb : Proverb} {completion : CheckCompletion} {request : Nat}
    {random : Identifier} {now : Date}
    (hrequest : Callback.request (.isFavorite completion) = some request)
    (h : s.isFavorite proverb completion random now = some s') : RequestEffect request s s' := by
  unfold isFavorite at h
  split at h
  · exact request_checkCompleted hrequest h
  · cases proverb with
    | rProverb proverb =>
        simp only [isFavoriteRemote] at h
        split at h
        · exact request_checkCompleted hrequest h
        · split at h
          · rw [← Option.some.inj h]
            exact Extends.call hrequest
          · exact request_checkCompleted hrequest h
    | rFavorite f => exact request_checkCompleted hrequest h
    | fFavorite f => exact request_checkCompleted hrequest h

end Favorites

/-! ## Migration and setup -/

section Migration

variable {s s' : App}

theorem migrates_migrationCompleted (user : UserIdentifier) (result : Bool) :
    MigrationEffect s (s.migrationCompleted user result) := by
  have hrecorded : MigrationEffect s (s.output (.migrated user
      (s.localStorage.objects.filter (· ∉ s.localStorage.deleteAll.objects)))) :=
    Extends.output ⟨_, _, rfl⟩
  exact hrecorded.trans (.of_same rfl rfl rfl rfl)

theorem migrates_saveToRemoteStorage {migration : Migration} {proverbs : List RFavoriteProverb}
    (h : s.saveToRemoteStorage migration proverbs = some s') : MigrationEffect s s' := by
  unfold saveToRemoteStorage at h
  split at h
  · rw [← Option.some.inj h]
    exact migrates_migrationCompleted _ _
  · split at h
    · split at h
      · rw [← Option.some.inj h]
        exact Extends.call rfl
      · rw [← Option.some.inj h]
        exact migrates_migrationCompleted _ _
    · simp at h

theorem migrates_favoritesFetched {migration : Migration}
    {result : Except AppError (List FFavoriteProverb)}
    (h : s.favoritesFetched migration result = some s') : MigrationEffect s s' := by
  cases result with
  | error => exact migrates_saveToRemoteStorage h
  | ok favorites =>
      simp only [favoritesFetched] at h
      split at h
      · split at h
        · split at h
          · exact migrates_saveToRemoteStorage h
          · rw [← Option.some.inj h]
            exact migrates_migrationCompleted _ _
        · simp at h
      · exact migrates_saveToRemoteStorage h

theorem migrates_checkAndMigrate {user : UserIdentifier}
    (h : s.checkAndMigrateLocalFavoriteProverbs user = some s') : MigrationEffect s s' := by
  unfold checkAndMigrateLocalFavoriteProverbs at h
  split at h
  · rw [← Option.some.inj h]
    exact migrates_migrationCompleted _ _
  · split at h
    · split at h
      · rw [← Option.some.inj h]
        exact migrates_migrationCompleted _ _
      · split at h
        · rw [← Option.some.inj h]
          exact Extends.call rfl
        · exact migrates_favoritesFetched h
    · rw [← Option.some.inj h]
      exact migrates_migrationCompleted _ _

theorem migrates_userDocumentReady {manager : FirestoreManager} {result : Bool}
    (h : s.userDocumentReady manager result = some s') : MigrationEffect s s' := by
  unfold userDocumentReady at h
  split at h
  · exact migrates_checkAndMigrate h
  · rw [← Option.some.inj h]
    exact .of_same rfl rfl rfl rfl

theorem migrates_userDocumentLoaded {manager : FirestoreManager} {response : Response}
    (h : s.userDocumentLoaded manager response = some s') : MigrationEffect s s' := by
  unfold userDocumentLoaded at h
  split at h
  · exact migrates_userDocumentReady h
  · rw [← Option.some.inj h]
    exact Extends.call rfl
  · exact migrates_userDocumentReady h

theorem called_effect {callback : Callback} {response : Response} {random : Identifier}
    {now : Date} (h : s.called callback response random now = some s') :
    (∃ request, Callback.request callback = some request ∧ RequestEffect request s s') ∨
      Callback.request callback = none ∧ MigrationEffect s s' := by
  cases callback with
  | userDocumentLoaded manager => exact Or.inr ⟨rfl, migrates_userDocumentLoaded h⟩
  | userCreated manager => exact Or.inr ⟨rfl, migrates_userDocumentReady h⟩
  | favoritesFetched migration => exact Or.inr ⟨rfl, migrates_favoritesFetched h⟩
  | favoritesUploaded migration =>
      rw [← Option.some.inj h]
      exact Or.inr ⟨rfl, migrates_migrationCompleted _ _⟩
  | getAll request =>
      rw [← Option.some.inj h]
      exact Or.inl ⟨request, rfl, (quiet_getAllCompleted request _).quietRequest_request⟩
  | isFavorite completion =>
      unfold called at h
      have heffect : ∀ request, Callback.request (.isFavorite completion) = some request →
          RequestEffect request s s' := fun _ hrequest => request_checkCompleted hrequest h
      cases completion with
      | answer request => exact Or.inl ⟨request, rfl, heffect request rfl⟩
      | checkAndSaveOrDelete request proverb => exact Or.inl ⟨request, rfl, heffect request rfl⟩
  | save request ids proverb =>
      rw [← Option.some.inj h]
      exact Or.inl ⟨request, rfl, request_saveCompleted request ids _⟩
  | getFavorite request ids =>
      rw [← Option.some.inj h]
      exact Or.inl ⟨request, rfl, (quiet_favoriteFound request ids _).quietRequest_request⟩
  | delete request ids =>
      rw [← Option.some.inj h]
      exact Or.inl ⟨request, rfl, (quiet_deleteCompleted request ids _).quietRequest_request⟩

theorem quiet_called {callback : Callback} {response : Response} {random : Identifier}
    {now : Date} (hsave : Callback.saveRequest callback = none)
    (h : s.called callback response random now = some s') : Quiet s s' := by
  rcases called_effect h with ⟨request, hrequest, _⟩ | ⟨_, hmigrates⟩
  · cases callback with
    | getAll request =>
        rw [← Option.some.inj h]
        exact (quiet_getAllCompleted request _).quietRequest_quiet
    | isFavorite completion =>
        cases completion with
        | answer request =>
            rw [← Option.some.inj h]
            exact Extends.output rfl
        | checkAndSaveOrDelete => simp [Callback.saveRequest] at hsave
    | save => simp [Callback.saveRequest] at hsave
    | getFavorite request ids =>
        rw [← Option.some.inj h]
        exact (quiet_favoriteFound request ids _).quietRequest_quiet
    | delete request ids =>
        rw [← Option.some.inj h]
        exact (quiet_deleteCompleted request ids _).quietRequest_quiet
    | userDocumentLoaded | userCreated | favoritesFetched | favoritesUploaded =>
        simp [Callback.request] at hrequest
  · exact hmigrates.migration_silent.silent_quiet

end Migration

/-! ## UserManager and IAPController -/

/-- The call that loads the document of the manager's user. -/
inductive IsLoad : Call → Prop where
  | mk (manager : FirestoreManager) :
      IsLoad ⟨.getUserDocument manager.currentUserIdentifier, .userDocumentLoaded manager, none⟩

def isAccountOutput : Output → Bool
  | .signedIn .. | .signedOut _ | .purchased _ | .restored _ => true
  | _ => false

abbrev AccountEffect : App → App → Prop := Extends IsLoad (fun o => isAccountOutput o = true)

theorem Extends.account_silent {s t : App} (h : AccountEffect s t) : Silent s t := by
  refine h.mono ?_ ?_
  · rintro _ ⟨manager⟩
    rfl
  · intro o ho
    cases o with
    | signedIn | signedOut | purchased | restored => exact ⟨rfl, rfl⟩
    | _ => exact absurd ho (by simp [isAccountOutput])

section Account

variable {s s' : App} {newCall : Call → Prop} {newOutput : Output → Prop}

theorem effect_setupFirestoreManager (s : App) :
    Extends IsLoad newOutput s s.setupFirestoreManager := by
  unfold setupFirestoreManager
  split
  · exact .refl s
  · rename_i user _
    exact (Extends.call (.mk ⟨s.nextReference, user, some user⟩)).after_same rfl rfl rfl rfl

theorem effect_signInCompleted (attempt : Nat) (result : Bool) :
    AccountEffect s (s.signInCompleted attempt result) := by
  have hrefreshed : AccountEffect s (s.updateCurrentPlan.output (.signedIn attempt result)) :=
    Extends.trans (t := s.updateCurrentPlan) (.of_same rfl rfl rfl rfl) (Extends.output rfl)
  cases result with
  | false => exact hrefreshed
  | true => exact hrefreshed.trans (effect_setupFirestoreManager _)

theorem effect_signIn (option : Login) (attempt : Nat) :
    AccountEffect s (s.signIn option attempt) := by
  unfold signIn
  split
  · exact Extends.output rfl
  · cases option <;> exact .of_same rfl rfl rfl rfl

theorem effect_providerCompleted (attempt : Nat) (option : Login) (credential : Bool) :
    AccountEffect s (s.providerCompleted attempt option credential) := by
  unfold providerCompleted
  split
  · split
    · exact .of_same rfl rfl rfl rfl
    · exact (effect_signInCompleted attempt false).after_same rfl rfl rfl rfl
  · exact .refl s

theorem effect_didSignInFor {result : GoogleResult} (h : s.didSignInFor result = some s') :
    AccountEffect s s' := by
  unfold didSignInFor at h
  split at h
  · simp at h
  · rw [← Option.some.inj h]
    exact .of_same rfl rfl rfl rfl
  · rw [← Option.some.inj h]
    exact .refl s
  · rw [← Option.some.inj h]
    exact Extends.trans (effect_signInCompleted _ false) (.of_same rfl rfl rfl rfl)

theorem effect_firebaseAuthenticated (attempt : Nat) (result : AuthResult) :
    AccountEffect s (s.firebaseAuthenticated attempt result) := by
  unfold firebaseAuthenticated
  split
  · split
    · exact (effect_signInCompleted attempt true).after_same rfl rfl rfl rfl
    · exact (effect_signInCompleted attempt false).after_same rfl rfl rfl rfl
  · exact .refl s

/-- Signing out, starting the manager and setting the purchase flag add nothing. -/
theorem effect_signOut (throws : Bool) : Extends newCall newOutput s (s.signOut throws).1 := by
  cases throws <;> exact .of_same rfl rfl rfl rfl

theorem effect_userManagerStart (throws : Bool) :
    Extends newCall newOutput s (s.userManagerStart throws) := by
  simp only [userManagerStart, logoutAtFirstLaunch]
  split
  · exact .of_same rfl rfl rfl rfl
  · exact (effect_signOut throws).trans (.of_same rfl rfl rfl rfl)

theorem effect_setPurchased (newValue : Bool) :
    Extends newCall newOutput s (s.setPurchased newValue) := by
  cases newValue <;> exact .of_same rfl rfl rfl rfl

theorem effect_completeTransactions (purchases : List TransactionState) :
    Extends newCall newOutput s (s.completeTransactions purchases) := by
  induction purchases generalizing s with
  | nil => exact .refl s
  | cons transaction purchases ih =>
      have hone : Extends newCall newOutput s (s.completeTransaction transaction) := by
        cases transaction with
        | purchased => exact effect_setPurchased true
        | restored => exact effect_setPurchased true
        | unknown => exact .refl s
        | _ => exact effect_setPurchased false
      exact hone.trans ih

/-- The events of `UserManager` and of the store. -/
def isAccountEvent : Event → Bool
  | .userManagerStart _ | .signIn _ | .providerCompleted .. | .didSignInFor _ => true
  | .firebaseAuthenticated .. | .signOut _ => true
  | .purchaseCompleted _ | .restoreCompleted _ | .completeTransactions _ => true
  | _ => false

theorem effect_step {input : Input} (hevent : isAccountEvent input.event = true)
    (h : step s input = some s') : AccountEffect s s' ∨ AccountEffect s.takeRequest s' := by
  obtain ⟨event, random, now⟩ := input
  cases event with
  | userManagerStart throws =>
      rw [← Option.some.inj h]
      exact Or.inl (effect_userManagerStart throws)
  | signIn option =>
      rw [← Option.some.inj h]
      exact Or.inr (effect_signIn option _)
  | providerCompleted attempt option credential =>
      rw [← Option.some.inj h]
      exact Or.inl (effect_providerCompleted attempt option credential)
  | didSignInFor result => exact Or.inl (effect_didSignInFor h)
  | firebaseAuthenticated attempt result =>
      rw [← Option.some.inj h]
      exact Or.inl (effect_firebaseAuthenticated attempt result)
  | signOut throws =>
      rw [← Option.some.inj h]
      exact Or.inl ((effect_signOut throws).trans (Extends.output rfl))
  | purchaseCompleted success =>
      rw [← Option.some.inj h]
      cases success <;> exact Or.inl ((effect_setPurchased _).trans (Extends.output rfl))
  | restoreCompleted results =>
      rw [← Option.some.inj h]
      unfold restoreCompleted
      split <;> exact Or.inl ((effect_setPurchased _).trans (Extends.output rfl))
  | completeTransactions purchases =>
      rw [← Option.some.inj h]
      exact Or.inl (effect_completeTransactions purchases)
  | _ => simp [isAccountEvent] at hevent

/-- Signing in and out and the store leave the favourites alone. -/
theorem device_account {input : Input} (hevent : isAccountEvent input.event = true)
    (h : step s input = some s') : s'.device = s.device := by
  obtain ⟨event, random, now⟩ := input
  cases event with
  | userManagerStart throws =>
      rw [← Option.some.inj h]
      simp only [userManagerStart, logoutAtFirstLaunch]
      split
      · rfl
      · cases throws <;> rfl
  | signIn option =>
      rw [← Option.some.inj h]
      unfold signIn
      split
      · rfl
      · cases option <;> rfl
  | providerCompleted attempt option credential =>
      rw [← Option.some.inj h]
      unfold providerCompleted
      split
      · split
        · rfl
        · exact device_signInCompleted _ attempt false
      · rfl
  | didSignInFor result =>
      simp only [step, didSignInFor] at h
      split at h
      · simp at h
      · rw [← Option.some.inj h]
        rfl
      · rw [← Option.some.inj h]
      · rw [← Option.some.inj h]
        rfl
  | firebaseAuthenticated attempt result =>
      rw [← Option.some.inj h]
      unfold firebaseAuthenticated
      split
      · split <;> exact device_signInCompleted _ attempt _
      · rfl
  | signOut throws =>
      rw [← Option.some.inj h]
      cases throws <;> rfl
  | purchaseCompleted success =>
      rw [← Option.some.inj h]
      cases success <;> rfl
  | restoreCompleted results =>
      rw [← Option.some.inj h]
      exact device_restoreCompleted s results
  | completeTransactions purchases =>
      rw [← Option.some.inj h]
      exact device_completeTransactions s purchases
  | _ => simp [isAccountEvent] at hevent

theorem localStorage_account {input : Input} (hevent : isAccountEvent input.event = true)
    (h : step s input = some s') : s'.localStorage = s.localStorage :=
  congrArg Prod.fst (device_account hevent h)

/-- A launch starts from nothing pending and nothing handed out. -/
theorem effect_launch (s : App) (throws : Bool) :
    Extends IsLoad newOutput s.restarted (s.launch throws) :=
  (effect_userManagerStart throws).trans (effect_setupFirestoreManager _)

end Account

/-! ## Every step -/

/-- What a step can do. The public methods of the favourites draw a number, and what
they do is done for it. -/
inductive StepEffect (s t : App) : Input → Prop where
  | launched (throws : Bool) (random : Identifier) (now : Date) (hlaunch : t = s.launch throws) :
      StepEffect s t ⟨.launch throws, random, now⟩
  | requested {input : Input} (haccount : t.account = s.takeRequest.account)
      (heffect : RequestEffect s.nextRequest s.takeRequest t) : StepEffect s t input
  | account {input : Input} (hevent : isAccountEvent input.event = true)
      (heffect : AccountEffect s t ∨ AccountEffect s.takeRequest t) : StepEffect s t input
  | served (index : Nat) (outcome : Outcome) (random : Identifier) (now : Date)
      (hserve : t = s.serve index outcome) : StepEffect s t ⟨.serve index outcome, random, now⟩
  | delivered (index : Nat) (random : Identifier) (now : Date)
      (hdeliver : s.deliver index random now = some t) :
      StepEffect s t ⟨.deliver index, random, now⟩
  | realmWrites (throw : Bool) (random : Identifier) (now : Date)
      (hwrites : t = { s with localStorage := s.localStorage.setThrows throw }) :
      StepEffect s t ⟨.realmWrites throw, random, now⟩

theorem step_effect {s s' : App} {input : Input} (h : step s input = some s') :
    StepEffect s s' input := by
  obtain ⟨event, random, now⟩ := input
  cases event with
  | launch throws => exact .launched throws random now (Option.some.inj h).symm
  | getAll =>
      rw [← Option.some.inj h]
      exact .requested (account_getAll _) (quiet_getAll _).quietRequest_request
  | isFavorite proverb => exact .requested (account_isFavorite h) (request_isFavorite rfl h)
  | save proverb => exact .requested (account_save h) (request_save h)
  | delete proverb => exact .requested (account_delete h) (quiet_delete h).quietRequest_request
  | checkAndSaveOrDeleteFavorite proverb =>
      exact .requested (account_isFavorite h) (request_isFavorite rfl h)
  | serve index outcome => exact .served index outcome random now (Option.some.inj h).symm
  | deliver index => exact .delivered index random now h
  | realmWrites throw => exact .realmWrites throw random now (Option.some.inj h).symm
  | _ => exact .account rfl (effect_step rfl h)

end Proverbs.App
