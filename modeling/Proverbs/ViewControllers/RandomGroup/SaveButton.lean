import Proverbs.Managers.Machine
import Proverbs.ViewControllers.RandomGroup.RandomProverbViewController

/-! # The save button of the random screen

The button shows whether the displayed proverb is a favourite. With the remote storage the
answer comes later, and its closure applies it to whatever is displayed by then; of several
answers the one that arrives last stays.
-/

namespace Proverbs

structure RandomScreen where
  controller : RandomProverbViewController
  app : App
  saveButton : Bool

inductive RandomScreenEvent where
  | showNextProverb (choice : Nat)
  | checkAndUpdateAddToFavoritesButton
  /-- Firestore carries out a query, and its answer arrives. -/
  | serve (index : Nat) (outcome : Outcome)
  | deliver (index : Nat)
deriving DecidableEq, Repr

namespace RandomScreen

def updateSaveButton (s : RandomScreen) (toFavorite : Bool) : RandomScreen :=
  { s with saveButton := toFavorite }

/-- The closures of `checkAndUpdateAddToFavoritesButton`, run with the answers given. -/
def runClosures (s : RandomScreen) (outputs : List Output) : RandomScreen :=
  outputs.foldl
    (fun s output =>
      match output with
      | .checked _ favorite => s.updateSaveButton favorite
      | _ => s)
    s

/-- A turn of the favourites manager; it draws nothing for a check. -/
def managerStep (s : RandomScreen) (event : Event) : Option RandomScreen :=
  (App.step s.app ⟨event, "", Date.zero⟩).map fun app =>
    { s with app := app }.runClosures (app.outputs.drop s.app.outputs.length)

def checkAndUpdateAddToFavoritesButton (s : RandomScreen) : Option RandomScreen :=
  match s.controller.currentProverb with
  | none => some (s.updateSaveButton false)
  | some proverb => s.managerStep (.isFavorite (.rProverb proverb))

def showNextProverb (s : RandomScreen) (choice : Nat) : Option RandomScreen :=
  (s.controller.showNextProverb choice).bind fun controller =>
    { s with controller := controller }.checkAndUpdateAddToFavoritesButton

def step (s : RandomScreen) : RandomScreenEvent → Option RandomScreen
  | .showNextProverb choice => s.showNextProverb choice
  | .checkAndUpdateAddToFavoritesButton => s.checkAndUpdateAddToFavoritesButton
  | .serve index outcome => s.managerStep (.serve index outcome)
  | .deliver index => s.managerStep (.deliver index)

/-! ## The favourite state -/

def isStored (collection : Collection) (identifier : Identifier) : Bool :=
  0 < (collection.whereOriginIdentifier identifier).length

def favoriteState (app : App) (proverb : RProverb) : Bool :=
  if app.isLocalStorage then app.isFavoriteLocal (.rProverb proverb)
  else
    match app.remoteCollection with
    | none => false
    | some user => isStored (app.firestore.favorites user) proverb.identifier

/-- Once no answer is outstanding, the button shows the state of the displayed proverb. -/
def ShowsState (s : RandomScreen) : Prop :=
  s.app.calls = [] → ∀ proverb, s.controller.currentProverb = some proverb →
    s.saveButton = favoriteState s.app proverb

def answerState (app : App) (user : UserIdentifier) (identifier : Identifier) :
    Response → Bool
  | .documents _ => isStored (app.firestore.favorites user) identifier
  | _ => false

/-- When the last outstanding answer arrives, the proverb it was asked for has the state of
the displayed one; or its query has failed, and the displayed one is no favourite. -/
def LastAnswerFits (s : RandomScreen) (event : RandomScreenEvent) : Prop :=
  match event with
  | .deliver 0 =>
      ∀ user identifier callback response,
        s.app.calls = [⟨.whereOriginIdentifier user identifier, callback, some response⟩] →
          ∀ proverb, s.controller.currentProverb = some proverb →
            answerState s.app user identifier response = favoriteState s.app proverb
  | _ => True

/-- The condition on the last delivery, computed. -/
def lastAnswerFits (s : RandomScreen) : Bool :=
  match s.app.calls with
  | [⟨.whereOriginIdentifier user identifier, _, some response⟩] =>
      s.controller.currentProverb.all fun proverb =>
        answerState s.app user identifier response = favoriteState s.app proverb
  | _ => true

theorem lastAnswerFits_iff (s : RandomScreen) :
    s.lastAnswerFits = true ↔ s.LastAnswerFits (.deliver 0) := by
  unfold lastAnswerFits LastAnswerFits
  split
  · rename_i hcalls
    simp only [hcalls, Option.all_eq_true, decide_eq_true_eq, List.cons.injEq, Call.mk.injEq,
      Operation.whereOriginIdentifier.injEq, Option.some.injEq, and_true, and_imp]
    constructor
    · rintro hfits _ _ _ _ rfl rfl rfl rfl
      exact hfits
    · intro hfits
      exact hfits _ _ _ _ rfl rfl rfl rfl
  · rename_i hother
    exact iff_of_true rfl fun user identifier callback response hcalls =>
      (hother user identifier callback response hcalls).elim

instance (s : RandomScreen) (event : RandomScreenEvent) : Decidable (s.LastAnswerFits event) :=
  match event with
  | .deliver 0 => decidable_of_iff _ s.lastAnswerFits_iff
  | .deliver (_ + 1) => isTrue trivial
  | .showNextProverb _ | .checkAndUpdateAddToFavoritesButton | .serve _ _ => isTrue trivial

/-- A call of the screen: the query for one proverb, answered as the storage is. -/
inductive ScreenCall (firestore : Firestore) : Call → Prop where
  | mk (user : UserIdentifier) (identifier : Identifier) (request : Nat)
      (response : Option Response)
      (hfound : ∀ documents, response = some (.documents documents) →
        documents = (firestore.favorites user).whereOriginIdentifier identifier) :
      ScreenCall firestore
        ⟨.whereOriginIdentifier user identifier, .isFavorite (.answer request), response⟩

structure Checking (s : RandomScreen) : Prop where
  calls : ∀ call ∈ s.app.calls, ScreenCall s.app.firestore call
  shows : s.ShowsState

/-! ## A turn of the manager -/

theorem serve_query (firestore : Firestore) (user : UserIdentifier) (identifier : Identifier)
    (outcome : Outcome) :
    ∃ response, firestore.serve (.whereOriginIdentifier user identifier) outcome =
        (firestore, response) ∧
      ∀ documents, response = .documents documents →
        documents = (firestore.favorites user).whereOriginIdentifier identifier := by
  cases outcome with
  | success => exact ⟨_, rfl, fun _ hdocuments => (Response.documents.inj hdocuments).symm⟩
  | error => exact ⟨.error, rfl, by simp⟩
  | nothing => exact ⟨.nothing, rfl, by simp⟩

section Steps

variable {s s' : RandomScreen}

theorem managerStep_of_silent {event : Event} {app : App}
    (h : App.step s.app ⟨event, "", Date.zero⟩ = some app)
    (houtputs : app.outputs = s.app.outputs) :
    s.managerStep event = some { s with app := app } := by
  simp [managerStep, h, houtputs, runClosures]

theorem managerStep_of_checked {event : Event} {app : App} {request : Nat} {favorite : Bool}
    (h : App.step s.app ⟨event, "", Date.zero⟩ = some app)
    (houtputs : app.outputs = s.app.outputs ++ [.checked request favorite]) :
    s.managerStep event = some { s with app := app, saveButton := favorite } := by
  simp [managerStep, h, houtputs, runClosures, updateSaveButton]

/-- A check of a proverb is answered at once with its state, or its query is sent. -/
theorem isFavorite_cases (app : App) (proverb : RProverb) (request : Nat)
    (random : Identifier) (now : Date) :
    app.isFavorite (.rProverb proverb) (.answer request) random now =
        some (app.output (.checked request (favoriteState app proverb))) ∨
      ∃ user, app.isFavorite (.rProverb proverb) (.answer request) random now =
        some (app.call (.whereOriginIdentifier user proverb.identifier)
          (.isFavorite (.answer request))) := by
  unfold App.isFavorite favoriteState
  by_cases hlocal : app.isLocalStorage = true
  · rw [if_pos hlocal, if_pos hlocal]
    exact .inl rfl
  · rw [if_neg hlocal, if_neg hlocal]
    unfold App.isFavoriteRemote App.remoteCollection
    cases hstorage : app.remoteStorage with
    | none => exact .inl rfl
    | some remoteStorage =>
        cases hcollection : remoteStorage.favoritesCollection with
        | none =>
            left
            simp [FirestoreManager.isFavorite, hcollection, App.checkCompleted]
        | some user =>
            right
            exact ⟨user, by simp [FirestoreManager.isFavorite, hcollection]⟩

theorem checking_checkAndUpdate (hcalls : ∀ call ∈ s.app.calls, ScreenCall s.app.firestore call)
    (h : s.checkAndUpdateAddToFavoritesButton = some s') : s'.Checking := by
  unfold checkAndUpdateAddToFavoritesButton at h
  cases hproverb : s.controller.currentProverb with
  | none =>
      simp only [hproverb, Option.some.injEq] at h
      subst h
      exact ⟨hcalls, fun _ proverb hsome => by simp [updateSaveButton, hproverb] at hsome⟩
  | some proverb =>
      simp only [hproverb] at h
      obtain hanswered | ⟨user, hsent⟩ := isFavorite_cases s.app.takeRequest proverb
        s.app.nextRequest "" Date.zero
      · have hturn : App.step s.app ⟨.isFavorite (.rProverb proverb), "", Date.zero⟩ = some
            (s.app.takeRequest.output (.checked s.app.nextRequest
              (favoriteState s.app.takeRequest proverb))) := hanswered
        rw [managerStep_of_checked hturn rfl, Option.some.injEq] at h
        subst h
        refine ⟨hcalls, fun _ displayed hdisplayed => ?_⟩
        obtain rfl := Option.some.inj (hproverb.symm.trans hdisplayed)
        rfl
      · have hturn : App.step s.app ⟨.isFavorite (.rProverb proverb), "", Date.zero⟩ = some
            (s.app.takeRequest.call (.whereOriginIdentifier user proverb.identifier)
              (.isFavorite (.answer s.app.nextRequest))) := hsent
        rw [managerStep_of_silent hturn rfl, Option.some.injEq] at h
        subst h
        refine ⟨fun call hcall => ?_, fun hnone => by simp [App.call] at hnone⟩
        rcases List.mem_append.mp hcall with hold | hnew
        · exact hcalls call hold
        · obtain rfl := List.mem_singleton.mp hnew
          exact .mk user proverb.identifier s.app.nextRequest none (by simp)

theorem checking_serve (hs : s.Checking) {index : Nat} {outcome : Outcome}
    (h : s.managerStep (.serve index outcome) = some s') : s'.Checking := by
  have hturn : App.step s.app ⟨.serve index outcome, "", Date.zero⟩ =
      some (s.app.serve index outcome) := rfl
  by_cases hpending : ∃ operation callback, s.app.calls[index]? = some ⟨operation, callback, none⟩
  · obtain ⟨operation, callback, hcall⟩ := hpending
    cases hs.calls _ (List.mem_of_getElem? hcall) with
    | mk user identifier request _ _ =>
        obtain ⟨response, hserve, hfound⟩ :=
          serve_query s.app.firestore user identifier outcome
        have happ : s.app.serve index outcome = { s.app with
            calls := s.app.calls.set index
              ⟨.whereOriginIdentifier user identifier, .isFavorite (.answer request),
                some response⟩ } := by
          simp [App.serve, hcall, hserve]
        rw [happ] at hturn
        rw [managerStep_of_silent hturn rfl, Option.some.injEq] at h
        subst h
        refine ⟨fun call hmem => ?_, fun hnone => ?_⟩
        · rcases List.mem_or_eq_of_mem_set hmem with hold | rfl
          · exact hs.calls call hold
          · exact .mk user identifier request (some response)
              fun documents hdocuments => hfound documents (Option.some.inj hdocuments)
        · have hempty : s.app.calls = [] := (List.set_eq_nil_iff _ _).mp hnone
          simp [hempty] at hcall
  · have happ : s.app.serve index outcome = s.app := by
      unfold App.serve
      split
      · rename_i operation callback hcall
        exact absurd ⟨operation, callback, hcall⟩ hpending
      · rfl
    rw [happ] at hturn
    rw [managerStep_of_silent hturn rfl, Option.some.injEq] at h
    exact h ▸ hs

/-- An answer counts as its proverb's state, unless the query has failed. -/
theorem isFavoriteResult_eq {app : App} {user : UserIdentifier} {identifier : Identifier}
    {response : Response}
    (hfound : ∀ documents, response = .documents documents →
      documents = (app.firestore.favorites user).whereOriginIdentifier identifier) :
    FirestoreManager.isFavoriteResult response = answerState app user identifier response := by
  cases response with
  | documents documents =>
      rw [hfound documents rfl]
      rfl
  | _ => rfl

/-- A delivery sets the button to the answer, whatever is displayed. -/
theorem deliver_cases (hs : s.Checking) (index : Nat) :
    (s.managerStep (.deliver index) = some s ∧
      ∀ call, s.app.calls[index]? = some call → call.response = none) ∨
    ∃ user identifier request response,
      s.app.calls[index]? = some ⟨.whereOriginIdentifier user identifier,
          .isFavorite (.answer request), some response⟩ ∧
        s.managerStep (.deliver index) = some { s with
          app := { s.app with calls := s.app.calls.eraseIdx index }.output
            (.checked request (answerState s.app user identifier response))
          saveButton := answerState s.app user identifier response } := by
  by_cases hanswered : ∃ operation callback response,
      s.app.calls[index]? = some ⟨operation, callback, some response⟩
  · right
    obtain ⟨operation, callback, response, hcall⟩ := hanswered
    cases hs.calls _ (List.mem_of_getElem? hcall) with
    | mk user identifier request _ hfound =>
        refine ⟨user, identifier, request, response, hcall, ?_⟩
        have hresult : FirestoreManager.isFavoriteResult response =
            answerState s.app user identifier response :=
          isFavoriteResult_eq fun documents hdocuments =>
            hfound documents (congrArg some hdocuments)
        have hturn : App.step s.app ⟨.deliver index, "", Date.zero⟩ =
            some ({ s.app with calls := s.app.calls.eraseIdx index }.output
              (.checked request (answerState s.app user identifier response))) := by
          rw [← hresult]
          simp [App.step, App.deliver, hcall, App.called, App.checkCompleted]
        exact managerStep_of_checked hturn rfl
  · left
    have hturn : App.step s.app ⟨.deliver index, "", Date.zero⟩ = some s.app := by
      simp only [App.step]
      unfold App.deliver
      split
      · rename_i operation callback response hcall
        exact absurd ⟨operation, callback, response, hcall⟩ hanswered
      · rfl
    refine ⟨managerStep_of_silent hturn rfl, fun call hcall => ?_⟩
    obtain ⟨operation, callback, response⟩ := call
    cases response with
    | none => rfl
    | some response => exact absurd ⟨operation, callback, response, hcall⟩ hanswered

theorem screenCalls_deliver (hs : s.Checking) {index : Nat}
    (h : s.managerStep (.deliver index) = some s') :
    ∀ call ∈ s'.app.calls, ScreenCall s'.app.firestore call := by
  obtain ⟨hstep, _⟩ | ⟨user, identifier, request, response, _, hstep⟩ := deliver_cases hs index
  · obtain rfl := Option.some.inj (hstep.symm.trans h)
    exact hs.calls
  · obtain rfl := Option.some.inj (hstep.symm.trans h)
    exact fun call hmem => hs.calls call (List.mem_of_mem_eraseIdx hmem)

/-- After a delivery the button is right exactly if the last answer fits. -/
theorem showsState_deliver_iff (hs : s.Checking) (index : Nat) :
    (∀ s', s.managerStep (.deliver index) = some s' → s'.ShowsState) ↔
      s.LastAnswerFits (.deliver index) := by
  obtain ⟨hstep, hwaiting⟩ | ⟨user, identifier, request, response, hcall, hstep⟩ :=
    deliver_cases hs index
  · refine iff_of_true (fun s' h => Option.some.inj (hstep.symm.trans h) ▸ hs.shows) ?_
    cases index with
    | zero =>
        intro user identifier callback response hlast
        have hnone := hwaiting _ (hlast ▸ List.getElem?_cons_zero)
        simp at hnone
    | succ index => trivial
  · obtain ⟨hindex, _⟩ := List.getElem?_eq_some_iff.mp hcall
    have hlength := List.length_eraseIdx_of_lt hindex
    rw [hstep]
    cases index with
    | zero =>
        constructor
        · intro hshows other otherIdentifier callback otherResponse hlast proverb hproverb
          rw [hlast] at hcall
          simp only [List.getElem?_cons_zero, Option.some.injEq, Call.mk.injEq,
            Operation.whereOriginIdentifier.injEq] at hcall
          obtain ⟨⟨rfl, rfl⟩, _, rfl⟩ := hcall
          exact hshows _ rfl (by simp [App.output, hlast]) proverb hproverb
        · intro hfits s' h hnone proverb hproverb
          obtain rfl := Option.some.inj h
          have hempty : s.app.calls.eraseIdx 0 = [] := hnone
          rw [hempty, List.length_nil] at hlength
          obtain ⟨call, hlast⟩ := List.length_eq_one_iff.mp
            (show s.app.calls.length = 1 by omega)
          simp only [hlast, List.getElem?_cons_zero, Option.some.injEq] at hcall
          subst hcall
          exact hfits user identifier _ response hlast proverb hproverb
    | succ index =>
        refine iff_of_true (fun s' h hnone => ?_) trivial
        obtain rfl := Option.some.inj h
        have hempty : s.app.calls.eraseIdx (index + 1) = [] := hnone
        rw [hempty, List.length_nil] at hlength
        omega

end Steps

section Run

variable {s s' : RandomScreen} {event : RandomScreenEvent}

theorem checking_showNextProverb (hs : s.Checking) {choice : Nat}
    (h : s.showNextProverb choice = some s') : s'.Checking := by
  obtain ⟨controller, _, hnext⟩ := Option.bind_eq_some_iff.mp h
  exact checking_checkAndUpdate (s := { s with controller := controller }) hs.calls hnext

theorem checking_step (hs : s.Checking) (hfits : s.LastAnswerFits event)
    (h : s.step event = some s') : s'.Checking := by
  cases event with
  | showNextProverb choice => exact checking_showNextProverb hs h
  | checkAndUpdateAddToFavoritesButton => exact checking_checkAndUpdate hs.calls h
  | serve index outcome => exact checking_serve hs h
  | deliver index =>
      exact ⟨screenCalls_deliver hs h, (showsState_deliver_iff hs index).mpr hfits s' h⟩

theorem showsState_step_iff (hs : s.Checking) :
    (∀ s', s.step event = some s' → s'.ShowsState) ↔ s.LastAnswerFits event := by
  cases event with
  | showNextProverb choice =>
      exact iff_of_true (fun s' h => (checking_showNextProverb hs h).shows) trivial
  | checkAndUpdateAddToFavoritesButton =>
      exact iff_of_true (fun s' h => (checking_checkAndUpdate hs.calls h).shows) trivial
  | serve index outcome =>
      exact iff_of_true (fun s' h => (checking_serve hs h).shows) trivial
  | deliver index => exact showsState_deliver_iff hs index

end Run

/-- From a new screen on, with any catalogue and any stored favourites: the button is right
whenever no answer is outstanding, exactly when every answer that arrives last fits. -/
theorem button_shows_state_iff {app : App} (hcalls : app.calls = []) (catalogue : Catalogue)
    (saveButton : Bool) (events : List RandomScreenEvent) :
    Transition.Along step (fun s event => ∀ s', s.step event = some s' → s'.ShowsState)
        ⟨⟨catalogue, none⟩, app, saveButton⟩ events ↔
      Transition.Along step LastAnswerFits ⟨⟨catalogue, none⟩, app, saveButton⟩ events := by
  apply Transition.along_congr (I := Checking)
  · intro s event _ s' hs hfits h
    exact checking_step hs hfits h
  · intro s event _ hs
    exact showsState_step_iff hs
  · exact ⟨by simp [hcalls], fun _ proverb hproverb => by simp at hproverb⟩

/-- A signed-in user with a favourite of proverb "1", remote storage in use. -/
def oneFavorite : App :=
  { App.installed with
    currentUser := some "u"
    currentPlan := .paidRegistered
    remoteStorage := some ⟨0, "u", some "u"⟩
    firestore := ⟨fun _ => true, fun _ => KeyedStore.put
      (Document.ofFavorite ⟨"favorite", "1", Date.zero, "A"⟩) KeyedStore.empty⟩ }

/-- The favourite is shown, the other proverb, and the favourite again. -/
def shownAgain : List RandomScreenEvent :=
  [.showNextProverb 0, .showNextProverb 1, .showNextProverb 0, .serve 0 .success,
    .serve 1 .success, .serve 2 .success, .deliver 2, .deliver 1, .deliver 0]

/-- The oldest answer comes last, for the proverb that is displayed again. -/
theorem button_shows_state_answered :
    Transition.Along step (fun s event => ∀ s', s.step event = some s' → s'.ShowsState)
        ⟨⟨RandomProverbViewController.twoProverbs, none⟩, oneFavorite, false⟩ shownAgain ∧
      ∃ s, Transition.run step
          ⟨⟨RandomProverbViewController.twoProverbs, none⟩, oneFavorite, false⟩ shownAgain =
            some s ∧ s.app.calls = [] ∧ s.saveButton = true := by
  constructor
  · exact (button_shows_state_iff rfl _ _ _).mpr (by decide +kernel)
  · have hends : (Transition.run step
        ⟨⟨RandomProverbViewController.twoProverbs, none⟩, oneFavorite, false⟩ shownAgain).map
          (fun s => (s.app.calls, s.saveButton)) = some ([], true) := by
      decide +kernel
    obtain ⟨s, hs, hshown⟩ := Option.map_eq_some_iff.mp hends
    exact ⟨s, hs, Prod.mk.inj hshown⟩

/-- The answer for the first proverb, a favourite, is the last to arrive; the second one is
displayed. -/
theorem late_answer_shows_first_proverb :
    ¬ ∀ s, Transition.run step
        ⟨⟨RandomProverbViewController.twoProverbs, none⟩, oneFavorite, false⟩
        [.showNextProverb 0, .showNextProverb 1, .serve 0 .success, .serve 1 .success,
          .deliver 1, .deliver 0] = some s → s.ShowsState := by
  intro h
  have hshows := h _ rfl rfl _ rfl
  exact absurd hshows (by decide)

end RandomScreen

end Proverbs
