import Proverbs.ViewControllers.RandomGroup.ButtonLock

/-! # One change at a time

A push is let through until the progress has faded in. If nobody is that fast, the lock
orders the pushes: the next one comes when the last change has been answered and its
progress has faded out, or the last proverb has been typed.
-/

namespace Proverbs.ProgressScreen

/-- Where a proverb or a change has come to: the lock, the progress of the button, the fades
under way, and whether a label is typing. -/
inductive Phase : Bool → Bool → List Bool → Bool → Prop where
  | idle : Phase false false [] false
  | typing : Phase true false [] true
  | fadingIn : Phase false true [true] false
  | waiting : Phase true true [] false
  | answered : Phase false false [true, false] false
  | fadingOut : Phase true false [false] false

/-- A change that has not been answered is the last one, the one the progress is shown for,
and of the proverb on the screen. -/
structure InTurn (s : ProgressScreen) : Prop where
  phase : Phase s.isProverbInProgress s.saveButton.progressView s.animations
    (decide (0 < s.typing))
  waits : ∀ toggle ∈ s.toggles, s.app.completed toggle.1 = false →
    s.saveButton.progressView = true ∧ s.toggles.head? = some toggle ∧
      s.controller.currentProverb = some toggle.2

/-- Nothing is pushed while a progress fades in. -/
def Patient (s : ProgressScreen) (event : ProgressEvent) : Prop :=
  match event with
  | .nextButtonPushed _ | .saveButtonPushed _ _ => true ∉ s.animations
  | _ => True

instance (s : ProgressScreen) (event : ProgressEvent) : Decidable (s.Patient event) := by
  unfold Patient
  split <;> infer_instance

section Phases

variable {progressView typing : Bool} {animations : List Bool}

theorem Phase.idle_of_open (h : Phase false progressView animations typing)
    (hpatient : true ∉ animations) : progressView = false ∧ animations = [] ∧ typing = false := by
  cases h with
  | idle => exact ⟨rfl, rfl, rfl⟩
  | fadingIn => exact absurd (List.mem_singleton_self true) hpatient
  | answered => exact absurd List.mem_cons_self hpatient

theorem Phase.fadeOut {inProgress : Bool} (h : Phase inProgress true animations typing) :
    Phase inProgress false (animations ++ [false]) typing := by
  cases h with
  | fadingIn => exact .answered
  | waiting => exact .fadingOut

theorem Phase.animationEnded {inProgress ended : Bool}
    (h : Phase inProgress progressView (ended :: animations) typing) :
    Phase ended progressView animations typing := by
  cases h with
  | fadingIn => exact .waiting
  | answered => exact .fadingOut
  | fadingOut => exact .idle

end Phases

section Steps

variable {device : App} {throws : Bool} {s t : ProgressScreen} {input : Input}

theorem InTurn.updated (h : InTurn s) (hupdated : Updated s t)
    (hdrawn : ∀ toggle ∈ s.toggles, toggle.1 < s.app.nextRequest) : InTurn t where
  phase := by
    rw [hupdated.isProverbInProgress, hupdated.progressView, hupdated.animations,
      hupdated.typing]
    exact h.phase
  waits := by
    rw [hupdated.progressView, hupdated.toggles, hupdated.controller]
    intro toggle hmem hwaits
    rw [hupdated.asks.completed toggle.1 (hdrawn toggle hmem)] at hwaits
    exact h.waits toggle hmem hwaits

theorem InTurn.managerStep (h : InTurn s)
    (hreachable : Transition.Reachable App.step (device.launch throws) s.app)
    (hdrawn : ∀ app, App.step s.app input = some app →
      ∀ toggle ∈ s.toggles, toggle.1 < app.nextRequest)
    (hlaunch : App.isLaunch input.event = false) (hs : s.managerStep input = some t) :
    InTurn t := by
  obtain ⟨app, outputs, hturn, houtputs, hupdated⟩ := managerStep_effect hlaunch hs
  have happ := (App.turn_eq_some_iff.mp hturn).1
  have honce := App.AtMostOnce.of_reachable
    (hreachable.trans (Transition.Reachable.of_step happ))
  have hwaited : ∀ toggle : Nat × RProverb, app.completed toggle.1 = false →
      s.app.completed toggle.1 = false := by
    intro toggle hwaits
    rw [App.completed_append houtputs] at hwaits
    exact (Bool.or_eq_false_iff.mp hwaits).1
  rcases hupdated with ⟨hupdated, o, ho, answered, hmem, hcompletes⟩ | ⟨hupdated, -⟩
  · have hnew : s.app.completed answered.1 = false := by
      rw [Bool.eq_false_iff]
      intro hdone
      rw [honce.not_completes houtputs hdone o ho] at hcompletes
      cases hcompletes
    obtain ⟨hview, hhead, -⟩ := h.waits answered hmem hnew
    have hdone : app.completed answered.1 = true := by
      rw [App.completed_append houtputs, Bool.or_eq_true]
      exact Or.inr (List.any_eq_true.mpr ⟨o, ho, hcompletes⟩)
    have hne : ({ s with app := app } : ProgressScreen).saveButton.progressView ≠ false := by
      simp [hview]
    have hphase := h.phase
    rw [hview] at hphase
    have hfaded : InTurn ({ s with app := app }.progressClosure false) := by
      rw [progressClosure_of_ne hne]
      refine ⟨hphase.fadeOut, fun toggle htoggle hwaits => ?_⟩
      have hsame := hhead.symm.trans (h.waits toggle htoggle (hwaited toggle hwaits)).2.1
      have hwaits : app.completed toggle.1 = false := hwaits
      rw [← Option.some.inj hsame, hdone] at hwaits
      cases hwaits
    refine hfaded.updated hupdated ?_
    obtain ⟨-, hsame, htoggles⟩ := progressClosure_keeps { s with app := app } false
    rw [hsame, htoggles]
    exact hdrawn app happ
  · have hturned : InTurn { s with app := app } :=
      ⟨h.phase, fun toggle hmem hwaits => h.waits toggle hmem (hwaited toggle hwaits)⟩
    exact hturned.updated hupdated (hdrawn app happ)

theorem InTurn.asked (h : InTurn s) (hopen : s.isProverbInProgress = false)
    (hpatient : true ∉ s.animations) {proverb : RProverb}
    (hproverb : s.controller.currentProverb = some proverb) : InTurn (s.asked proverb) := by
  have hphase := h.phase
  rw [hopen] at hphase
  obtain ⟨hview, hanimations, htyping⟩ := hphase.idle_of_open hpatient
  have hne : s.saveButton.progressView ≠ true := by
    rw [hview]
    decide
  rw [ProgressScreen.asked, progressClosure_of_ne hne]
  constructor
  · change Phase s.isProverbInProgress true (s.animations ++ [true]) (decide (0 < s.typing))
    rw [hopen, hanimations, htyping]
    exact .fadingIn
  · intro toggle hmem hwaits
    rcases List.mem_cons.mp hmem with rfl | hmem
    · exact ⟨rfl, rfl, hproverb⟩
    · exact absurd (h.waits toggle hmem hwaits).1 hne

theorem InTurn.showNextProverb (h : InTurn s) (hopen : s.isProverbInProgress = false)
    (hpatient : true ∉ s.animations)
    (hdrawn : ∀ toggle ∈ s.toggles, toggle.1 < s.app.nextRequest) {choice : Nat}
    (hs : s.showNextProverb choice = some t) : InTurn t := by
  have hphase := h.phase
  rw [hopen] at hphase
  obtain ⟨hview, hanimations, -⟩ := hphase.idle_of_open hpatient
  obtain ⟨controller, checked, -, hupdated, rfl⟩ := showNextProverb_effect hs
  constructor
  · change Phase true checked.saveButton.progressView checked.animations true
    rw [hupdated.progressView, hupdated.animations]
    change Phase true s.saveButton.progressView s.animations true
    rw [hview, hanimations]
    exact .typing
  · intro toggle hmem hwaits
    have htoggles : checked.toggles = s.toggles := hupdated.toggles
    have hmem : toggle ∈ s.toggles := htoggles ▸ hmem
    have hwaits : s.app.completed toggle.1 = false :=
      (hupdated.asks.completed toggle.1 (hdrawn toggle hmem)).symm.trans hwaits
    rw [(h.waits toggle hmem hwaits).1] at hview
    cases hview

theorem InTurn.labelFired (h : InTurn s) (hcounter : s.blocksCounter = s.typing)
    (proverbLabel meaningLabel : TypewriterLabel) (completed : Bool)
    (hcounted : proverbLabel.isAnimating.toNat + meaningLabel.isAnimating.toNat +
      completed.toNat = s.typing) : InTurn (s.labelFired proverbLabel meaningLabel completed) := by
  have hphase := h.phase
  cases completed with
  | false =>
      refine ⟨?_, h.waits⟩
      change Phase s.isProverbInProgress s.saveButton.progressView s.animations
        (decide (0 < proverbLabel.isAnimating.toNat + meaningLabel.isAnimating.toNat))
      rwa [← hcounted] at hphase
  | true =>
      have htyping : 0 < s.typing := hcounted ▸ Nat.succ_pos _
      have hleft : s.blocksCounter - 1 =
          (proverbLabel.isAnimating.toNat + meaningLabel.isAnimating.toNat : Nat) := by
        rw [hcounter, ← hcounted]
        simp
      refine ⟨?_, h.waits⟩
      change Phase (if s.blocksCounter - 1 = 0 then false else s.isProverbInProgress)
        s.saveButton.progressView s.animations
        (decide (0 < proverbLabel.isAnimating.toNat + meaningLabel.isAnimating.toNat))
      rw [hleft]
      rw [decide_eq_true htyping] at hphase
      generalize proverbLabel.isAnimating.toNat + meaningLabel.isAnimating.toNat = left
      generalize s.isProverbInProgress = inProgress at hphase ⊢
      generalize s.saveButton.progressView = progressView at hphase ⊢
      generalize s.animations = animations at hphase ⊢
      cases hphase with
      | typing =>
          cases left with
          | zero => exact .idle
          | succ left => exact .typing

theorem inTurn_step {event : ProgressEvent} (hkept : Kept (device.launch throws) s)
    (h : InTurn s) (hpatient : s.Patient event) (hcontinues : event.continues = true)
    (hs : step s event = some t) : InTurn t := by
  cases event with
  | nextButtonPushed choice =>
      simp only [step] at hs
      split at hs
      · exact Option.some.inj hs ▸ h
      · rename_i hopen
        exact h.showNextProverb (Bool.eq_false_iff.mpr hopen) hpatient hkept.drawn hs
  | saveButtonPushed random now =>
      simp only [step] at hs
      split at hs
      · exact Option.some.inj hs ▸ h
      · rename_i hopen
        split at hs
        · exact Option.some.inj hs ▸ h
        · rename_i proverb hproverb
          rw [checkAndSaveOrDeleteFavorite_eq] at hs
          have hasked := h.asked (Bool.eq_false_iff.mpr hopen) hpatient hproverb
          have hreachable :
              Transition.Reachable App.step (device.launch throws) (s.asked proverb).app := by
            rw [app_asked]
            exact hkept.reachable
          exact hasked.managerStep hreachable (fun app happ => hkept.drawn_asked happ) rfl hs
  | viewDidAppear => exact h.updated (updated_check hs) hkept.drawn
  | proverbTimerFired =>
      have hcounted := s.proverbLabel.isAnimating_timerFired
      rw [← Option.some.inj hs]
      refine h.labelFired hkept.steady.counted s.proverbLabel.timerFired.1 s.meaningLabel
        s.proverbLabel.timerFired.2 ?_
      unfold typing
      omega
  | meaningTimerFired =>
      have hcounted := s.meaningLabel.isAnimating_timerFired
      rw [← Option.some.inj hs]
      refine h.labelFired hkept.steady.counted s.proverbLabel s.meaningLabel.timerFired.1
        s.meaningLabel.timerFired.2 ?_
      unfold typing
      omega
  | animationEnded =>
      simp only [step] at hs
      split at hs
      · exact Option.some.inj hs ▸ h
      · rename_i inProgress animations hanimations
        have hphase := h.phase
        rw [hanimations] at hphase
        rw [← Option.some.inj hs]
        exact ⟨hphase.animationEnded, h.waits⟩
  | turn input =>
      have hlaunch : App.isLaunch input.event = false := by
        simpa [ProgressEvent.continues] using hcontinues
      refine h.managerStep hkept.reachable (fun app happ toggle hmem => ?_) hlaunch hs
      exact Nat.lt_of_lt_of_le (hkept.drawn toggle hmem) (App.nextRequest_of_step happ).1

theorem inTurn_viewDidLoad {app : App} {catalogue : Catalogue} {choice : Nat}
    (hs : viewDidLoad app catalogue choice = some s) : InTurn s := by
  have hinitial : InTurn (initial app catalogue) := ⟨.idle, by simp [initial]⟩
  exact hinitial.showNextProverb rfl List.not_mem_nil (by simp [initial]) hs

end Steps

/-- If nothing is pushed while a progress fades in: of all changes the screen has asked for,
only the last one can be unanswered, and its proverb is still the one on the screen; and at
rest the buttons are locked exactly as long as there is such a change. -/
theorem one_change_at_a_time {device app : App} {throws : Bool} {catalogue : Catalogue}
    {choice : Nat} {start s : ProgressScreen} {events : List ProgressEvent}
    (happ : Transition.Reachable App.step (device.launch throws) app)
    (hloaded : viewDidLoad app catalogue choice = some start)
    (hcontinues : ∀ event ∈ events, event.continues = true)
    (hpatient : Transition.Along step Patient start events)
    (hs : Transition.run step start events = some s) :
    (∀ toggle ∈ s.toggles, s.app.completed toggle.1 = false →
      s.toggles.head? = some toggle ∧ s.controller.currentProverb = some toggle.2) ∧
      (s.AtRest → (s.isProverbInProgress = true ↔
        ∃ toggle ∈ s.toggles, s.app.completed toggle.1 = false)) := by
  have hguard := hpatient.and (Transition.along_of_forall hcontinues start)
  obtain ⟨hkept, hturn⟩ : Kept (device.launch throws) s ∧ InTurn s :=
    Transition.run_invariant (I := fun s => Kept (device.launch throws) s ∧ InTurn s)
      (fun _ _ _ h hboth hs =>
        ⟨kept_step h.1 hboth.2 hs, inTurn_step h.1 h.2 hboth.1 hboth.2 hs⟩)
      ⟨kept_viewDidLoad happ hloaded, inTurn_viewDidLoad hloaded⟩ hguard hs
  refine ⟨fun toggle hmem hwaits => (hturn.waits toggle hmem hwaits).2, ?_⟩
  rintro ⟨hanimations, htyping⟩
  have hsame : s.isProverbInProgress = s.saveButton.progressView := by
    have hphase := hturn.phase
    rw [hanimations, htyping] at hphase
    generalize s.isProverbInProgress = inProgress at hphase ⊢
    generalize s.saveButton.progressView = progressView at hphase ⊢
    cases hphase <;> rfl
  rw [hsame]
  constructor
  · exact hkept.owed
  · rintro ⟨toggle, hmem, hwaits⟩
    exact (hturn.waits toggle hmem hwaits).1

/-- With a remote storage: the toggle waits for its check, the answer to the document of the
user comes first, and pushes of the locked buttons change nothing. -/
def waitingForCheck : List ProgressEvent :=
  typed ++ [.saveButtonPushed "1" 5, .animationEnded, .turn ⟨.serve 0 .success, "", 0⟩,
    .nextButtonPushed 0, .turn ⟨.deliver 0, "", 0⟩, .saveButtonPushed "2" 6]

theorem one_change_at_a_time_waiting :
    ∃ app start s,
      Transition.run App.step (App.installed.launch false) App.signedInByGoogle = some app ∧
        viewDidLoad app shortCatalogue 0 = some start ∧
        Transition.run step start waitingForCheck = some s ∧
        (s.isProverbInProgress = true ↔
          ∃ toggle ∈ s.toggles, s.app.completed toggle.1 = false) := by
  have hrun : ∃ app start s,
      Transition.run App.step (App.installed.launch false) App.signedInByGoogle = some app ∧
        viewDidLoad app shortCatalogue 0 = some start ∧
        Transition.run step start waitingForCheck = some s ∧ s.AtRest ∧
        Transition.Along step Patient start waitingForCheck :=
    ⟨_, _, _, rfl, rfl, rfl, by decide, by decide⟩
  obtain ⟨app, start, s, happ, hloaded, hs, hrest, hpatient⟩ := hrun
  have hturns := one_change_at_a_time ⟨_, happ⟩ hloaded (by decide) hpatient hs
  exact ⟨app, start, s, happ, hloaded, hs, hturns.2 hrest⟩

end Proverbs.ProgressScreen
