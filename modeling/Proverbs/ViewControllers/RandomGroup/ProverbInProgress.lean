import Proverbs.Managers.ToggleAnswers
import Proverbs.ViewControllers.RandomGroup.RandomProverbViewController

/-! # What locks the buttons of the random screen

`isProverbInProgress` disables the buttons while a new proverb is being typed and while a
change of the favourites is under way. Several closures set it: the labels' when they have
been typed, and the save button's when its progress has faded in or out. The fades of one
button take equally long, so they end in the order they began in. Whatever else the app
does between these closures is a turn of the app.
-/

namespace Proverbs

/-! ## The views -/

/-- The part of `ObliqueButton` that shows a progress; an image is the one of a favourite
or not. -/
structure ObliqueButton where
  progressView : Bool
  image : Option Bool
  savedImage : Option Bool
deriving DecidableEq, Repr

/-- `inProgress(show:animated:)`. Nothing happens, and nobody is called back, if the button
shows it already. -/
def ObliqueButton.inProgress (button : ObliqueButton) (inProgress : Bool) :
    Option ObliqueButton :=
  if inProgress = button.progressView then none
  else if inProgress then some ⟨true, none, button.image⟩
  else some ⟨false, button.savedImage, none⟩

/-- There is an image, or one to go back to. -/
def ObliqueButton.Whole (button : ObliqueButton) : Prop :=
  (if button.progressView then button.savedImage else button.image).isSome

/-- It has a timer while it animates. -/
structure TypewriterLabel where
  text : Option String
  currentCharacterOffset : Nat
  isAnimating : Bool
deriving DecidableEq, Repr

namespace TypewriterLabel

def restartTypewritingAnimation (label : TypewriterLabel) : TypewriterLabel :=
  { label with currentCharacterOffset := 0, isAnimating := true }

/-- The block of the timer, and whether it calls the completion. -/
def timerFired (label : TypewriterLabel) : TypewriterLabel × Bool :=
  if label.isAnimating then
    if label.currentCharacterOffset < (label.text.map String.length).getD 0 then
      ({ label with currentCharacterOffset := label.currentCharacterOffset + 1 }, false)
    else ({ label with isAnimating := false }, true)
  else (label, false)

def shown (label : TypewriterLabel) : Option String :=
  label.text.map fun text => String.ofList (text.toList.take label.currentCharacterOffset)

end TypewriterLabel

/-! ## The screen -/

/-- The alerts of `checkFavoriteManagerError`. -/
inductive RandomAlert where
  | failedToSave
  | purchase
deriving DecidableEq, Repr

structure ProgressScreen where
  controller : RandomProverbViewController
  app : App
  proverbLabel : TypewriterLabel
  meaningLabel : TypewriterLabel
  /-- The variable of the last `showNextProverb`; the closures of an earlier one went with
  the timers of the labels. -/
  blocksCounter : Int
  isProverbInProgress : Bool
  saveButton : ObliqueButton
  /-- The fades of the save button under way, in or out. -/
  animations : List Bool
  checks : List Nat
  /-- The requests of `checkAndSaveOrDeleteFavorite`, the last one first. -/
  toggles : List (Nat × RProverb)
  alerts : List RandomAlert

inductive ProgressEvent where
  | nextButtonPushed (choice : Nat)
  | saveButtonPushed (random : Identifier) (now : Date)
  | viewDidAppear
  | proverbTimerFired
  | meaningTimerFired
  | animationEnded
  /-- A turn of the app: an answer, or anything another screen asks for. -/
  | turn (input : Input)
deriving DecidableEq, Repr

def ProgressEvent.continues : ProgressEvent → Bool
  | .turn input => !App.isLaunch input.event
  | _ => true

namespace ProgressScreen

def updateSaveButton (s : ProgressScreen) (toFavorite : Bool) : ProgressScreen :=
  { s with saveButton := { s.saveButton with image := some toFavorite } }

def progressClosure (s : ProgressScreen) (inProgress : Bool) : ProgressScreen :=
  match s.saveButton.inProgress inProgress with
  | none => s
  | some saveButton =>
      { s with saveButton := saveButton, animations := s.animations ++ [inProgress] }

def checked (s : ProgressScreen) (request : Nat) (favorite : Bool) : ProgressScreen :=
  if request ∈ s.checks then s.updateSaveButton favorite else s

/-- A check that is answered at once; nothing else is answered in its turn. -/
def receiveCheck (s : ProgressScreen) : Output → ProgressScreen
  | .checked request favorite => s.checked request favorite
  | _ => s

def checkAndUpdateAddToFavoritesButton (s : ProgressScreen) : Option ProgressScreen :=
  match s.controller.currentProverb with
  | none => some (s.updateSaveButton false)
  | some proverb =>
      (App.step s.app ⟨.isFavorite (.rProverb proverb), "", Date.zero⟩).map fun app =>
        (app.outputs.drop s.app.outputs.length).foldl receiveCheck
          { s with app := app, checks := s.app.nextRequest :: s.checks }

def checkFavoriteManagerError (s : ProgressScreen) (error : AppError) : ProgressScreen :=
  match error with
  | .manager (.maxLimit _) => { s with alerts := s.alerts ++ [.purchase] }
  | _ => { s with alerts := s.alerts ++ [.failedToSave] }

/-- The two closures of `checkAndSaveOrDeleteFavorite`. After an error the button goes back
to what it was. -/
def changeCompleted (s : ProgressScreen) (error : Option AppError) (toFavorite : Bool) :
    Option ProgressScreen :=
  let s := s.progressClosure false
  let s :=
    match error with
    | none => s
    | some error => (s.checkFavoriteManagerError error).updateSaveButton toFavorite
  s.checkAndUpdateAddToFavoritesButton

def shows (s : ProgressScreen) (identifier : Identifier) : Bool :=
  s.controller.currentProverb.map RProverb.identifier = some identifier

/-- The closures and the observers of the screen, run with what the app hands out. -/
def receive (s : ProgressScreen) (output : Output) : Option ProgressScreen :=
  match output with
  | .didSave identifiers =>
      some (if s.shows identifiers.originIdentifier then s.updateSaveButton true else s)
  | .didDelete identifiers =>
      some (if s.shows identifiers.originIdentifier then s.updateSaveButton false else s)
  | .checked request favorite => some (s.checked request favorite)
  | .saved request result =>
      if request ∈ s.toggles.map Prod.fst then
        match result with
        | .ok _ => s.changeCompleted none false
        | .error error => s.changeCompleted (some error) false
      else some s
  | .deleted request error =>
      if request ∈ s.toggles.map Prod.fst then s.changeCompleted error true else some s
  | _ => some s

def receiveAll (s : ProgressScreen) : List Output → Option ProgressScreen
  | [] => some s
  | output :: outputs => (s.receive output).bind fun s => s.receiveAll outputs

def managerStep (s : ProgressScreen) (input : Input) : Option ProgressScreen :=
  (App.turn s.app input).bind fun app =>
    { s with app := app }.receiveAll (app.outputs.drop s.app.outputs.length)

def typeProverb (s : ProgressScreen) : ProgressScreen :=
  let text := s.controller.currentProverb.map RProverb.text
  let meaning := s.controller.currentProverb.map RProverb.meaning
  { s with
    isProverbInProgress := true
    blocksCounter := 2
    proverbLabel := { s.proverbLabel with text := text }.restartTypewritingAnimation
    meaningLabel := { s.meaningLabel with text := meaning }.restartTypewritingAnimation }

def showNextProverb (s : ProgressScreen) (choice : Nat) : Option ProgressScreen :=
  (s.controller.showNextProverb choice).bind fun controller =>
    ({ s with controller := controller }.checkAndUpdateAddToFavoritesButton).map typeProverb

def checkCompletion (s : ProgressScreen) : ProgressScreen :=
  let blocksCounter := s.blocksCounter - 1
  { s with
    blocksCounter := blocksCounter
    isProverbInProgress := if blocksCounter = 0 then false else s.isProverbInProgress }

def labelFired (s : ProgressScreen) (proverbLabel meaningLabel : TypewriterLabel)
    (completed : Bool) : ProgressScreen :=
  let s := { s with proverbLabel := proverbLabel, meaningLabel := meaningLabel }
  if completed then s.checkCompletion else s

def checkAndSaveOrDeleteFavorite (s : ProgressScreen) (proverb : RProverb) (random : Identifier)
    (now : Date) : Option ProgressScreen :=
  let s := s.progressClosure true
  { s with toggles := (s.app.nextRequest, proverb) :: s.toggles }.managerStep
    ⟨.checkAndSaveOrDeleteFavorite (.rProverb proverb), random, now⟩

/-- A button that is disabled gets no touches. -/
def step (s : ProgressScreen) : ProgressEvent → Option ProgressScreen
  | .nextButtonPushed choice =>
      if s.isProverbInProgress then some s else s.showNextProverb choice
  | .saveButtonPushed random now =>
      if s.isProverbInProgress then some s
      else
        match s.controller.currentProverb with
        | none => some s
        | some proverb => s.checkAndSaveOrDeleteFavorite proverb random now
  | .viewDidAppear => s.checkAndUpdateAddToFavoritesButton
  | .proverbTimerFired =>
      let (proverbLabel, completed) := s.proverbLabel.timerFired
      some (s.labelFired proverbLabel s.meaningLabel completed)
  | .meaningTimerFired =>
      let (meaningLabel, completed) := s.meaningLabel.timerFired
      some (s.labelFired s.proverbLabel meaningLabel completed)
  | .animationEnded =>
      match s.animations with
      | [] => some s
      | inProgress :: animations =>
          some { s with animations := animations, isProverbInProgress := inProgress }
  | .turn input => s.managerStep input

/-- The screen as the storyboard makes it. -/
def initial (app : App) (catalogue : Catalogue) : ProgressScreen where
  controller := ⟨catalogue, none⟩
  app := app
  proverbLabel := ⟨none, 0, false⟩
  meaningLabel := ⟨none, 0, false⟩
  blocksCounter := 0
  isProverbInProgress := false
  saveButton := ⟨false, some false, none⟩
  animations := []
  checks := []
  toggles := []
  alerts := []

def viewDidLoad (app : App) (catalogue : Catalogue) (choice : Nat) : Option ProgressScreen :=
  (initial app catalogue).showNextProverb choice

/-! ## What the closures change -/

/-- Checks have been asked, and nothing else. -/
structure Asks (a b : App) : Prop where
  reachable : Transition.Reachable App.step a b
  next : a.nextRequest ≤ b.nextRequest
  completed : ∀ request < a.nextRequest, b.completed request = a.completed request
  owes : ∀ request, App.Owes request a → App.Owes request b

section Asks

variable {a b c : App}

theorem Asks.refl (a : App) : Asks a a :=
  ⟨Transition.Reachable.refl a, Nat.le_refl _, fun _ _ => rfl, fun _ h => h⟩

theorem Asks.trans (h : Asks a b) (h' : Asks b c) : Asks a c where
  reachable := h.reachable.trans h'.reachable
  next := h.next.trans h'.next
  completed := fun request hlt =>
    (h'.completed request (Nat.lt_of_lt_of_le hlt h.next)).trans (h.completed request hlt)
  owes := fun request howes => h'.owes request (h.owes request howes)

theorem asks_isFavorite {proverb : Proverb} {random : Identifier} {now : Date}
    (hs : App.step a ⟨.isFavorite proverb, random, now⟩ = some b) : Asks a b := by
  have heffect : App.RequestEffect a.nextRequest a.takeRequest b :=
    App.request_isFavorite rfl hs
  obtain ⟨outputs, houtputs, hanswers⟩ := heffect.outputs
  refine ⟨Transition.Reachable.of_step hs, ?_, fun request hlt => ?_, fun request howes => ?_⟩
  · rw [heffect.request]
    exact Nat.le_succ _
  · have hnone : outputs.any (App.Output.completes request) = false := by
      rw [List.any_eq_false]
      intro o hmem hcompletes
      have hsame := (hanswers o hmem).1 request (App.Output.request_of_completes hcompletes)
      exact absurd hsame hlt.ne
    rw [App.completed_append houtputs, hnone, Bool.or_false]
    rfl
  · rcases howes with hdone | ⟨callback, hmem, hchanges⟩
    · left
      rw [App.completed_append houtputs]
      exact Bool.or_eq_true_iff.mpr (Or.inl hdone)
    · exact Or.inr ⟨callback, heffect.callbacks_subset hmem, hchanges⟩

end Asks

/-- Only the image of the button has changed, and checks have been asked. -/
structure Updated (s t : ProgressScreen) : Prop where
  controller : t.controller = s.controller
  proverbLabel : t.proverbLabel = s.proverbLabel
  meaningLabel : t.meaningLabel = s.meaningLabel
  blocksCounter : t.blocksCounter = s.blocksCounter
  isProverbInProgress : t.isProverbInProgress = s.isProverbInProgress
  progressView : t.saveButton.progressView = s.saveButton.progressView
  animations : t.animations = s.animations
  toggles : t.toggles = s.toggles
  asks : Asks s.app t.app
  whole : s.saveButton.Whole → t.saveButton.Whole

section Updated

variable {s t u : ProgressScreen}

theorem Updated.refl (s : ProgressScreen) : Updated s s :=
  ⟨rfl, rfl, rfl, rfl, rfl, rfl, rfl, rfl, Asks.refl _, fun h => h⟩

theorem Updated.trans (h : Updated s t) (h' : Updated t u) : Updated s u where
  controller := h'.controller.trans h.controller
  proverbLabel := h'.proverbLabel.trans h.proverbLabel
  meaningLabel := h'.meaningLabel.trans h.meaningLabel
  blocksCounter := h'.blocksCounter.trans h.blocksCounter
  isProverbInProgress := h'.isProverbInProgress.trans h.isProverbInProgress
  progressView := h'.progressView.trans h.progressView
  animations := h'.animations.trans h.animations
  toggles := h'.toggles.trans h.toggles
  asks := h.asks.trans h'.asks
  whole := fun hs => h'.whole (h.whole hs)

theorem updated_updateSaveButton (s : ProgressScreen) (toFavorite : Bool) :
    Updated s (s.updateSaveButton toFavorite) := by
  refine ⟨rfl, rfl, rfl, rfl, rfl, rfl, rfl, rfl, Asks.refl _, fun hwhole => ?_⟩
  unfold ObliqueButton.Whole at hwhole ⊢
  cases hprogress : s.saveButton.progressView with
  | false => simp [updateSaveButton, hprogress]
  | true => simpa [updateSaveButton, hprogress] using hwhole

theorem updated_checked (s : ProgressScreen) (request : Nat) (favorite : Bool) :
    Updated s (s.checked request favorite) := by
  unfold checked
  split
  · exact updated_updateSaveButton s favorite
  · exact Updated.refl s

theorem updated_receiveChecks (s : ProgressScreen) (outputs : List Output) :
    Updated s (outputs.foldl receiveCheck s) := by
  induction outputs generalizing s with
  | nil => exact Updated.refl s
  | cons output outputs ih =>
      refine Updated.trans ?_ (ih (s.receiveCheck output))
      cases output with
      | checked request favorite => exact updated_checked s request favorite
      | _ => exact Updated.refl s

theorem updated_check (hs : s.checkAndUpdateAddToFavoritesButton = some t) : Updated s t := by
  unfold checkAndUpdateAddToFavoritesButton at hs
  split at hs
  · rw [← Option.some.inj hs]
    exact updated_updateSaveButton s false
  · obtain ⟨app, happ, rfl⟩ := Option.map_eq_some_iff.mp hs
    have hasked : Updated s { s with app := app, checks := s.app.nextRequest :: s.checks } :=
      ⟨rfl, rfl, rfl, rfl, rfl, rfl, rfl, rfl, asks_isFavorite happ, fun h => h⟩
    exact hasked.trans (updated_receiveChecks _ _)

theorem updated_checkFavoriteManagerError (s : ProgressScreen) (error : AppError) :
    Updated s (s.checkFavoriteManagerError error) := by
  unfold checkFavoriteManagerError
  split <;> exact ⟨rfl, rfl, rfl, rfl, rfl, rfl, rfl, rfl, Asks.refl _, fun h => h⟩

theorem updated_changeCompleted {error : Option AppError} {toFavorite : Bool}
    (hs : s.changeCompleted error toFavorite = some t) : Updated (s.progressClosure false) t := by
  unfold changeCompleted at hs
  cases error with
  | none => exact updated_check hs
  | some error =>
      refine Updated.trans ?_ (updated_check hs)
      exact (updated_checkFavoriteManagerError _ error).trans (updated_updateSaveButton _ _)

theorem progressClosure_of_same {inProgress : Bool}
    (h : s.saveButton.progressView = inProgress) : s.progressClosure inProgress = s := by
  simp [progressClosure, ObliqueButton.inProgress, h]

@[simp] theorem progressView_progressClosure (s : ProgressScreen) (inProgress : Bool) :
    (s.progressClosure inProgress).saveButton.progressView = inProgress := by
  by_cases hsame : s.saveButton.progressView = inProgress
  · rw [progressClosure_of_same hsame, hsame]
  · have hne : inProgress ≠ s.saveButton.progressView := fun h => hsame h.symm
    cases inProgress <;> simp [progressClosure, ObliqueButton.inProgress, hne]

theorem progressClosure_of_ne {inProgress : Bool} (h : s.saveButton.progressView ≠ inProgress) :
    s.progressClosure inProgress =
      { s with
        saveButton :=
          if inProgress then ⟨true, none, s.saveButton.image⟩
          else ⟨false, s.saveButton.savedImage, none⟩
        animations := s.animations ++ [inProgress] } := by
  have hne : inProgress ≠ s.saveButton.progressView := h.symm
  cases inProgress <;> simp [progressClosure, ObliqueButton.inProgress, hne]

theorem progressClosure_keeps (s : ProgressScreen) (inProgress : Bool) :
    (s.progressClosure inProgress).controller = s.controller ∧
      (s.progressClosure inProgress).app = s.app ∧
      (s.progressClosure inProgress).toggles = s.toggles := by
  unfold progressClosure
  split <;> exact ⟨rfl, rfl, rfl⟩

theorem whole_progressClosure (s : ProgressScreen) (inProgress : Bool) :
    (s.progressClosure inProgress).saveButton.Whole ↔ s.saveButton.Whole := by
  by_cases hsame : s.saveButton.progressView = inProgress
  · rw [progressClosure_of_same hsame]
  · rw [progressClosure_of_ne hsame]
    cases inProgress with
    | true =>
        have hplain : s.saveButton.progressView = false := Bool.eq_false_iff.mpr hsame
        simp [ObliqueButton.Whole, hplain]
    | false =>
        have hshown : s.saveButton.progressView = true := Bool.eq_true_of_not_eq_false hsame
        simp [ObliqueButton.Whole, hshown]

theorem Updated.progressClosure (h : Updated s t) (inProgress : Bool) :
    Updated (s.progressClosure inProgress) (t.progressClosure inProgress) := by
  by_cases hsame : s.saveButton.progressView = inProgress
  · rw [progressClosure_of_same hsame, progressClosure_of_same (h.progressView.trans hsame)]
    exact h
  · have hwhole : (s.progressClosure inProgress).saveButton.Whole →
        (t.progressClosure inProgress).saveButton.Whole := by
      rw [whole_progressClosure, whole_progressClosure]
      exact h.whole
    have hother : t.saveButton.progressView ≠ inProgress := by
      rwa [h.progressView]
    rw [progressClosure_of_ne hsame, progressClosure_of_ne hother] at hwhole ⊢
    refine ⟨h.controller, h.proverbLabel, h.meaningLabel, h.blocksCounter,
      h.isProverbInProgress, ?_, congrArg (· ++ [inProgress]) h.animations, h.toggles, h.asks,
      hwhole⟩
    cases inProgress <;> rfl

end Updated

/-! ## A turn of the app -/

section Turns

variable {s t : ProgressScreen} {outputs : List Output}

def Answers (s : ProgressScreen) (outputs : List Output) : Prop :=
  ∃ o ∈ outputs, ∃ toggle ∈ s.toggles, App.Output.completes toggle.1 o = true

theorem receive_effect {output : Output} (hs : s.receive output = some t) :
    Updated (s.progressClosure false) t ∧ s.Answers [output] ∨
      Updated s t ∧ ¬ s.Answers [output] := by
  have hupdated : ∀ {output : Output}, (∀ request, App.Output.completes request output = false) →
      Updated s t → Updated (s.progressClosure false) t ∧ s.Answers [output] ∨
        Updated s t ∧ ¬ s.Answers [output] := by
    intro output hnone hupdated
    refine Or.inr ⟨hupdated, ?_⟩
    rintro ⟨o, hmem, toggle, -, hcompletes⟩
    rw [List.mem_singleton.mp hmem, hnone] at hcompletes
    cases hcompletes
  have hother : ∀ {request : Nat} {output : Output}, request ∉ s.toggles.map Prod.fst →
      (∀ other, App.Output.completes other output = decide (request = other)) →
      ¬ s.Answers [output] := by
    rintro request output hnot hsame ⟨o, hmem, toggle, htoggle, hcompletes⟩
    rw [List.mem_singleton.mp hmem, hsame, decide_eq_true_iff] at hcompletes
    exact hnot (List.mem_map.mpr ⟨toggle, htoggle, hcompletes.symm⟩)
  have hown : ∀ {request : Nat} {output : Output}, request ∈ s.toggles.map Prod.fst →
      (∀ other, App.Output.completes other output = decide (request = other)) →
      s.Answers [output] := by
    intro request output hmem hsame
    obtain ⟨toggle, htoggle, rfl⟩ := List.mem_map.mp hmem
    exact ⟨output, List.mem_singleton_self output, toggle, htoggle, by rw [hsame]; simp⟩
  cases output with
  | saved request result =>
      simp only [receive] at hs
      split at hs
      · rename_i hmem
        have hchanged : Updated (s.progressClosure false) t := by
          cases result <;> exact updated_changeCompleted hs
        exact Or.inl ⟨hchanged, hown hmem fun _ => rfl⟩
      · rename_i hmem
        exact Or.inr ⟨Option.some.inj hs ▸ Updated.refl s, hother hmem fun _ => rfl⟩
  | deleted request error =>
      simp only [receive] at hs
      split at hs
      · rename_i hmem
        exact Or.inl ⟨updated_changeCompleted hs, hown hmem fun _ => rfl⟩
      · rename_i hmem
        exact Or.inr ⟨Option.some.inj hs ▸ Updated.refl s, hother hmem fun _ => rfl⟩
  | didSave ids =>
      apply hupdated fun _ => rfl
      rw [← Option.some.inj hs]
      split
      · exact updated_updateSaveButton s true
      · exact Updated.refl s
  | didDelete ids =>
      apply hupdated fun _ => rfl
      rw [← Option.some.inj hs]
      split
      · exact updated_updateSaveButton s false
      · exact Updated.refl s
  | checked request favorite =>
      apply hupdated fun _ => rfl
      rw [← Option.some.inj hs]
      exact updated_checked s request favorite
  | _ => exact hupdated (fun _ => rfl) (Option.some.inj hs ▸ Updated.refl s)

theorem answers_congr {s' : ProgressScreen} (h : s'.toggles = s.toggles)
    (outputs : List Output) : s'.Answers outputs ↔ s.Answers outputs := by
  unfold Answers
  rw [h]

theorem answers_cons {output : Output} :
    s.Answers (output :: outputs) ↔ s.Answers [output] ∨ s.Answers outputs := by
  simp [Answers]

/-- The progress of the button ends if one of the toggles is answered. -/
theorem receiveAll_effect (hs : s.receiveAll outputs = some t) :
    Updated (s.progressClosure false) t ∧ s.Answers outputs ∨
      Updated s t ∧ ¬ s.Answers outputs := by
  induction outputs generalizing s with
  | nil =>
      rw [← Option.some.inj hs]
      exact Or.inr ⟨Updated.refl s, by simp [Answers]⟩
  | cons output outputs ih =>
      obtain ⟨s', hs', hrest⟩ := Option.bind_eq_some_iff.mp hs
      rw [answers_cons]
      rcases receive_effect hs' with ⟨hfirst, hanswers⟩ | ⟨hfirst, hnot⟩
      · left
        refine ⟨?_, Or.inl hanswers⟩
        have hended : s'.progressClosure false = s' :=
          progressClosure_of_same (by rw [hfirst.progressView, progressView_progressClosure])
        rcases ih hrest with ⟨hlater, -⟩ | ⟨hlater, -⟩
        · exact hfirst.trans (hended ▸ hlater)
        · exact hfirst.trans hlater
      · rw [← answers_congr hfirst.toggles outputs]
        rcases ih hrest with ⟨hlater, hanswers⟩ | ⟨hlater, hlaterNot⟩
        · exact Or.inl ⟨(hfirst.progressClosure false).trans hlater, Or.inr hanswers⟩
        · exact Or.inr ⟨hfirst.trans hlater, by simp [hnot, hlaterNot]⟩

theorem managerStep_effect {input : Input} (hlaunch : App.isLaunch input.event = false)
    (hs : s.managerStep input = some t) :
    ∃ app outputs, App.turn s.app input = some app ∧ app.outputs = s.app.outputs ++ outputs ∧
      (Updated ({ s with app := app }.progressClosure false) t ∧ s.Answers outputs ∨
        Updated { s with app := app } t ∧ ¬ s.Answers outputs) := by
  obtain ⟨app, happ, hreceived⟩ := Option.bind_eq_some_iff.mp hs
  obtain ⟨outputs, houtputs⟩ := App.outputs_of_step hlaunch (App.turn_eq_some_iff.mp happ).1
  rw [houtputs, List.drop_left] at hreceived
  exact ⟨app, outputs, happ, houtputs, receiveAll_effect hreceived⟩

end Turns

end ProgressScreen

end Proverbs
