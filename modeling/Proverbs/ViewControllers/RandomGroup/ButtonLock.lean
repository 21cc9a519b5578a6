import Proverbs.ViewControllers.RandomGroup.ProverbInProgress

/-! # The lock of the random screen opens again

However pushes, fades, typing and the answers of the manager come one after the other: when
all of it has come to rest, the buttons are enabled unless a change is still to be
answered. If nothing is pushed while the progress fades in, the lock also does what it is
there for: one change at a time, of the proverb on the screen.
-/

namespace Proverbs

/-- The label types the text, or has typed it. -/
structure TypewriterLabel.Types (label : TypewriterLabel) (text : String) : Prop where
  holds : label.text = some text
  typed : label.isAnimating = false → text.length ≤ label.currentCharacterOffset

section Labels

variable {label : TypewriterLabel} {text : String}

theorem TypewriterLabel.Types.timerFired (h : label.Types text) :
    label.timerFired.1.Types text := by
  unfold TypewriterLabel.timerFired
  split
  · rename_i hanimating
    split
    · exact ⟨h.holds, fun hstopped => absurd (hanimating.symm.trans hstopped) (by decide)⟩
    · rename_i hlength
      refine ⟨h.holds, fun _ => ?_⟩
      simpa [h.holds] using hlength
  · exact h

theorem TypewriterLabel.Types.shown (h : label.Types text) (hstopped : label.isAnimating = false) :
    label.shown = some text := by
  have hall : text.toList.take label.currentCharacterOffset = text.toList :=
    List.take_of_length_le (h.typed hstopped)
  rw [TypewriterLabel.shown, h.holds, Option.map_some, hall, String.ofList_toList]

theorem TypewriterLabel.isAnimating_timerFired (label : TypewriterLabel) :
    label.timerFired.1.isAnimating.toNat + label.timerFired.2.toNat =
      label.isAnimating.toNat := by
  unfold TypewriterLabel.timerFired
  cases hanimating : label.isAnimating with
  | false => simp [hanimating]
  | true =>
      by_cases hleft : label.currentCharacterOffset < (label.text.map String.length).getD 0 <;>
        simp [hleft]

end Labels

namespace ProgressScreen

def typing (s : ProgressScreen) : Nat :=
  s.proverbLabel.isAnimating.toNat + s.meaningLabel.isAnimating.toNat

/-- No fade is under way and nothing is being typed. -/
def AtRest (s : ProgressScreen) : Prop := s.animations = [] ∧ s.typing = 0

instance (s : ProgressScreen) : Decidable s.AtRest := inferInstanceAs (Decidable (_ ∧ _))

/-! ## The views -/

/-- The lock is held for a label, for a change or for a fade. -/
structure Steady (s : ProgressScreen) : Prop where
  counted : s.blocksCounter = s.typing
  locked : s.isProverbInProgress = true →
    0 < s.typing ∨ s.saveButton.progressView = true ∨ false ∈ s.animations
  last : ∀ inProgress, s.animations.getLast? = some inProgress →
    inProgress = s.saveButton.progressView
  whole : s.saveButton.Whole
  typed : ∀ proverb, s.controller.currentProverb = some proverb →
    s.proverbLabel.Types proverb.text ∧ s.meaningLabel.Types proverb.meaning

section Views

variable {s t : ProgressScreen}

theorem Updated.typing (h : Updated s t) : t.typing = s.typing := by
  rw [ProgressScreen.typing, ProgressScreen.typing, h.proverbLabel, h.meaningLabel]

theorem Steady.updated (h : Steady s) (hupdated : Updated s t) : Steady t where
  counted := by rw [hupdated.blocksCounter, hupdated.typing, h.counted]
  locked := by
    rw [hupdated.isProverbInProgress, hupdated.typing, hupdated.progressView,
      hupdated.animations]
    exact h.locked
  last := by
    rw [hupdated.animations, hupdated.progressView]
    exact h.last
  whole := hupdated.whole h.whole
  typed := by
    rw [hupdated.controller, hupdated.proverbLabel, hupdated.meaningLabel]
    exact h.typed

theorem Steady.progressClosure (h : Steady s) (inProgress : Bool) :
    Steady (s.progressClosure inProgress) := by
  by_cases hsame : s.saveButton.progressView = inProgress
  · rw [progressClosure_of_same hsame]
    exact h
  · have hwhole := (whole_progressClosure s inProgress).mpr h.whole
    have hview := progressView_progressClosure s inProgress
    rw [progressClosure_of_ne hsame] at hwhole hview ⊢
    refine ⟨h.counted, fun _ => Or.inr ?_, fun last hlast => ?_, hwhole, h.typed⟩
    · cases inProgress with
      | false => exact Or.inr (List.mem_append_right _ (List.mem_singleton_self false))
      | true => exact Or.inl rfl
    · rw [List.getLast?_concat, Option.some.injEq] at hlast
      exact hlast.symm.trans hview.symm

/-- What a new proverb changes: it is typed once the button has been checked. -/
theorem showNextProverb_effect {choice : Nat} (hs : s.showNextProverb choice = some t) :
    ∃ controller checked, s.controller.showNextProverb choice = some controller ∧
      Updated { s with controller := controller } checked ∧ checked.typeProverb = t := by
  obtain ⟨controller, hcontroller, hshown⟩ := Option.bind_eq_some_iff.mp hs
  obtain ⟨checked, hchecked, htyped⟩ := Option.map_eq_some_iff.mp hshown
  exact ⟨controller, checked, hcontroller, updated_check hchecked, htyped⟩

theorem Steady.showNextProverb (h : Steady s) {choice : Nat}
    (hs : s.showNextProverb choice = some t) : Steady t := by
  obtain ⟨controller, checked, -, hupdated, rfl⟩ := showNextProverb_effect hs
  refine ⟨rfl, fun _ => Or.inl Nat.two_pos, ?_, hupdated.whole h.whole, ?_⟩
  · intro inProgress hlast
    exact (h.last inProgress (hupdated.animations ▸ hlast)).trans hupdated.progressView.symm
  · intro proverb hproverb
    have hproverb : checked.controller.currentProverb = some proverb := hproverb
    have htyping : ∀ text, TypewriterLabel.Types ⟨some text, 0, true⟩ text :=
      fun text => ⟨rfl, fun hstopped => by cases hstopped⟩
    simp only [typeProverb, TypewriterLabel.restartTypewritingAnimation, hproverb,
      Option.map_some]
    exact ⟨htyping _, htyping _⟩

/-- The timer of one label has fired; the lock opens with the end of the last one. -/
theorem Steady.labelFired (h : Steady s) (proverbLabel meaningLabel : TypewriterLabel)
    (completed : Bool)
    (hcounted : proverbLabel.isAnimating.toNat + meaningLabel.isAnimating.toNat +
      completed.toNat = s.typing)
    (htyped : ∀ proverb, s.controller.currentProverb = some proverb →
      proverbLabel.Types proverb.text ∧ meaningLabel.Types proverb.meaning) :
    Steady (s.labelFired proverbLabel meaningLabel completed) := by
  have hblocks := h.counted
  cases completed with
  | false =>
      refine ⟨?_, fun hlocked => ?_, h.last, h.whole, htyped⟩
      · exact hblocks.trans (congrArg Nat.cast hcounted.symm)
      · refine (h.locked hlocked).imp_left fun htyping => ?_
        exact Nat.lt_of_lt_of_eq htyping hcounted.symm
  | true =>
      simp only [Bool.toNat_true] at hcounted
      have hleft : s.blocksCounter - 1 =
          (proverbLabel.isAnimating.toNat + meaningLabel.isAnimating.toNat : Nat) := by omega
      refine ⟨hleft, fun hstill => Or.inl ?_, h.last, h.whole, htyped⟩
      have hopen : s.blocksCounter - 1 ≠ 0 := by
        intro hzero
        simp [ProgressScreen.labelFired, checkCompletion, hzero] at hstill
      have htyping : 0 < proverbLabel.isAnimating.toNat + meaningLabel.isAnimating.toNat := by
        omega
      exact htyping

theorem timerFired_keeps {event : ProgressEvent}
    (hevent : event = .proverbTimerFired ∨ event = .meaningTimerFired)
    (hs : step s event = some t) :
    t.controller = s.controller ∧ t.app = s.app ∧ t.toggles = s.toggles ∧
      t.saveButton = s.saveButton ∧ t.animations = s.animations := by
  have hfired : ∀ proverbLabel meaningLabel completed,
      s.labelFired proverbLabel meaningLabel completed = t →
        t.controller = s.controller ∧ t.app = s.app ∧ t.toggles = s.toggles ∧
          t.saveButton = s.saveButton ∧ t.animations = s.animations := by
    rintro proverbLabel meaningLabel completed rfl
    cases completed <;> exact ⟨rfl, rfl, rfl, rfl, rfl⟩
  rcases hevent with rfl | rfl
  · exact hfired _ _ _ (Option.some.inj hs)
  · exact hfired _ _ _ (Option.some.inj hs)

theorem Steady.proverbTimerFired (h : Steady s) (hs : step s .proverbTimerFired = some t) :
    Steady t := by
  have hcounted := s.proverbLabel.isAnimating_timerFired
  rw [← Option.some.inj hs]
  refine h.labelFired s.proverbLabel.timerFired.1 s.meaningLabel s.proverbLabel.timerFired.2 ?_ ?_
  · unfold ProgressScreen.typing
    omega
  · exact fun proverb hproverb =>
      ⟨(h.typed proverb hproverb).1.timerFired, (h.typed proverb hproverb).2⟩

theorem Steady.meaningTimerFired (h : Steady s) (hs : step s .meaningTimerFired = some t) :
    Steady t := by
  have hcounted := s.meaningLabel.isAnimating_timerFired
  rw [← Option.some.inj hs]
  refine h.labelFired s.proverbLabel s.meaningLabel.timerFired.1 s.meaningLabel.timerFired.2 ?_ ?_
  · unfold ProgressScreen.typing
    omega
  · exact fun proverb hproverb =>
      ⟨(h.typed proverb hproverb).1, (h.typed proverb hproverb).2.timerFired⟩

/-- The last fade is the one the button shows, so a lock by a fade in is let go by a fade out
after it, if the button does not show a progress any more. -/
theorem Steady.animationEnded (h : Steady s) (hs : step s .animationEnded = some t) :
    Steady t := by
  simp only [step] at hs
  split at hs
  · exact Option.some.inj hs ▸ h
  · rename_i inProgress animations hanimations
    rw [← Option.some.inj hs]
    have hlast := h.last
    rw [hanimations] at hlast
    refine ⟨h.counted, fun hlocked => Or.inr ?_, fun last hmem => ?_, h.whole, h.typed⟩
    · obtain rfl : inProgress = true := hlocked
      cases hview : s.saveButton.progressView with
      | true => exact Or.inl rfl
      | false =>
          right
          cases hrest : animations.getLast? with
          | none =>
              rw [List.getLast?_eq_none_iff.mp hrest] at hlast
              exact absurd (hlast true rfl) (by simp [hview])
          | some last =>
              have hend : last = false := by
                rw [← hview]
                apply hlast
                rw [List.getLast?_cons, hrest]
                rfl
              exact hend ▸ List.mem_of_getLast? hrest
    · apply hlast
      rw [List.getLast?_cons, hmem]
      rfl

end Views

/-! ## The changes -/

/-- The toggles have been given their numbers, and a progress is shown for a change that is
to be answered. -/
structure Kept (start : App) (s : ProgressScreen) : Prop where
  steady : Steady s
  reachable : Transition.Reachable App.step start s.app
  drawn : ∀ toggle ∈ s.toggles, toggle.1 < s.app.nextRequest
  owed : s.saveButton.progressView = true →
    ∃ toggle ∈ s.toggles, s.app.completed toggle.1 = false

section Changes

variable {start device : App} {throws : Bool} {s t : ProgressScreen} {input : Input}

theorem Kept.of_asks (h : Kept start s) (hsteady : Steady t) (htoggles : t.toggles = s.toggles)
    (hview : t.saveButton.progressView = s.saveButton.progressView) (hasks : Asks s.app t.app) :
    Kept start t where
  steady := hsteady
  reachable := h.reachable.trans hasks.reachable
  drawn := by
    rw [htoggles]
    exact fun toggle hmem => Nat.lt_of_lt_of_le (h.drawn toggle hmem) hasks.next
  owed := by
    rw [hview, htoggles]
    intro hview
    obtain ⟨toggle, hmem, howed⟩ := h.owed hview
    refine ⟨toggle, hmem, ?_⟩
    rw [hasks.completed toggle.1 (h.drawn toggle hmem), howed]

theorem Kept.updated (h : Kept start s) (hupdated : Updated s t) : Kept start t :=
  h.of_asks (h.steady.updated hupdated) hupdated.toggles hupdated.progressView hupdated.asks

theorem kept_managerStep (hsteady : Steady s)
    (hreachable : Transition.Reachable App.step start s.app)
    (hdrawn : ∀ app, App.step s.app input = some app →
      ∀ toggle ∈ s.toggles, toggle.1 < app.nextRequest)
    (howed : s.saveButton.progressView = true →
      ∃ toggle ∈ s.toggles, s.app.completed toggle.1 = false)
    (hlaunch : App.isLaunch input.event = false) (hs : s.managerStep input = some t) :
    Kept start t := by
  obtain ⟨app, outputs, hturn, houtputs, hupdated⟩ := managerStep_effect hlaunch hs
  have happ := (App.turn_eq_some_iff.mp hturn).1
  have hturned : Steady { s with app := app } :=
    ⟨hsteady.counted, hsteady.locked, hsteady.last, hsteady.whole, hsteady.typed⟩
  have hreached := hreachable.trans (Transition.Reachable.of_step happ)
  rcases hupdated with ⟨hupdated, -⟩ | ⟨hupdated, hnot⟩
  · have hfaded : Kept start ({ s with app := app }.progressClosure false) := by
      obtain ⟨-, hsame, htoggles⟩ := progressClosure_keeps { s with app := app } false
      refine ⟨hturned.progressClosure false, ?_, ?_, ?_⟩
      · rw [hsame]
        exact hreached
      · rw [hsame, htoggles]
        exact hdrawn app happ
      · rw [progressView_progressClosure]
        exact fun h => by cases h
    exact hfaded.updated hupdated
  · have hkept : Kept start { s with app := app } := by
      refine ⟨hturned, hreached, hdrawn app happ, fun hview => ?_⟩
      obtain ⟨toggle, hmem, hwaits⟩ := howed hview
      refine ⟨toggle, hmem, ?_⟩
      rw [App.completed_append houtputs, hwaits, Bool.false_or, List.any_eq_false]
      exact fun o ho hcompletes => hnot ⟨o, ho, toggle, hmem, hcompletes⟩
    exact hkept.updated hupdated

theorem Kept.turn (h : Kept start s) (hlaunch : App.isLaunch input.event = false)
    (hs : s.managerStep input = some t) : Kept start t := by
  apply kept_managerStep h.steady h.reachable ?_ h.owed hlaunch hs
  intro app happ toggle hmem
  exact Nat.lt_of_lt_of_le (h.drawn toggle hmem) (App.nextRequest_of_step happ).1

theorem nextRequest_toggle {a b : App} {proverb : Proverb} {random : Identifier} {now : Date}
    (hs : App.step a ⟨.checkAndSaveOrDeleteFavorite proverb, random, now⟩ = some b) :
    b.nextRequest = a.nextRequest + 1 := by
  have heffect : App.RequestEffect a.nextRequest a.takeRequest b :=
    App.request_isFavorite rfl hs
  exact heffect.request

/-- The screen with the progress shown for a change of the proverb, before the manager is
asked. -/
def asked (s : ProgressScreen) (proverb : RProverb) : ProgressScreen :=
  { s.progressClosure true with toggles := (s.app.nextRequest, proverb) :: s.toggles }

theorem checkAndSaveOrDeleteFavorite_eq (s : ProgressScreen) (proverb : RProverb)
    (random : Identifier) (now : Date) :
    s.checkAndSaveOrDeleteFavorite proverb random now =
      (s.asked proverb).managerStep
        ⟨.checkAndSaveOrDeleteFavorite (.rProverb proverb), random, now⟩ := by
  obtain ⟨-, hsame, htoggles⟩ := progressClosure_keeps s true
  rw [checkAndSaveOrDeleteFavorite, asked, hsame, htoggles]

theorem app_asked (s : ProgressScreen) (proverb : RProverb) : (s.asked proverb).app = s.app :=
  (progressClosure_keeps s true).2.1

theorem Kept.drawn_asked (h : Kept start s) {proverb : RProverb} {random : Identifier}
    {now : Date} {app : App}
    (happ : App.step (s.asked proverb).app
      ⟨.checkAndSaveOrDeleteFavorite (.rProverb proverb), random, now⟩ = some app) :
    ∀ toggle ∈ (s.asked proverb).toggles, toggle.1 < app.nextRequest := by
  intro toggle hmem
  rw [app_asked] at happ
  rw [nextRequest_toggle happ]
  rcases List.mem_cons.mp hmem with rfl | hmem
  · exact Nat.lt_succ_self _
  · exact Nat.lt_succ_of_lt (h.drawn toggle hmem)

theorem Kept.push (h : Kept (device.launch throws) s) {proverb : RProverb} {random : Identifier}
    {now : Date} (hs : s.checkAndSaveOrDeleteFavorite proverb random now = some t) :
    Kept (device.launch throws) t := by
  have hsteady := h.steady.progressClosure true
  have hnumbered := App.numbered_of_reachable h.reachable
  rw [checkAndSaveOrDeleteFavorite_eq] at hs
  refine kept_managerStep ?_ ?_ (fun app happ => h.drawn_asked happ) ?_ rfl hs
  · exact ⟨hsteady.counted, hsteady.locked, hsteady.last, hsteady.whole, hsteady.typed⟩
  · rw [app_asked]
    exact h.reachable
  · refine fun _ => ⟨_, List.mem_cons_self, ?_⟩
    rw [app_asked]
    exact hnumbered.not_completed

theorem kept_step {event : ProgressEvent} (h : Kept (device.launch throws) s)
    (hcontinues : event.continues = true) (hs : step s event = some t) :
    Kept (device.launch throws) t := by
  cases event with
  | nextButtonPushed choice =>
      simp only [step] at hs
      split at hs
      · exact Option.some.inj hs ▸ h
      · obtain ⟨controller, checked, -, hupdated, rfl⟩ := showNextProverb_effect hs
        exact h.of_asks (h.steady.showNextProverb hs) hupdated.toggles hupdated.progressView
          hupdated.asks
  | saveButtonPushed random now =>
      simp only [step] at hs
      split at hs
      · exact Option.some.inj hs ▸ h
      · split at hs
        · exact Option.some.inj hs ▸ h
        · exact h.push hs
  | viewDidAppear => exact h.updated (updated_check hs)
  | proverbTimerFired =>
      have hsteady := h.steady.proverbTimerFired hs
      obtain ⟨-, happ, htoggles, hbutton, -⟩ := timerFired_keeps (Or.inl rfl) hs
      exact h.of_asks hsteady htoggles (congrArg ObliqueButton.progressView hbutton)
        (happ ▸ Asks.refl _)
  | meaningTimerFired =>
      have hsteady := h.steady.meaningTimerFired hs
      obtain ⟨-, happ, htoggles, hbutton, -⟩ := timerFired_keeps (Or.inr rfl) hs
      exact h.of_asks hsteady htoggles (congrArg ObliqueButton.progressView hbutton)
        (happ ▸ Asks.refl _)
  | animationEnded =>
      have hsteady := h.steady.animationEnded hs
      simp only [step] at hs
      split at hs
      · exact Option.some.inj hs ▸ h
      · rw [← Option.some.inj hs] at hsteady ⊢
        exact h.of_asks hsteady rfl rfl (Asks.refl _)
  | turn input => exact h.turn (by simpa [ProgressEvent.continues] using hcontinues) hs

theorem kept_viewDidLoad {app : App} {catalogue : Catalogue} {choice : Nat}
    (happ : Transition.Reachable App.step (device.launch throws) app)
    (hs : viewDidLoad app catalogue choice = some s) : Kept (device.launch throws) s := by
  have hinitial : Kept (device.launch throws) (initial app catalogue) := by
    refine ⟨⟨rfl, ?_, ?_, rfl, ?_⟩, happ, ?_, ?_⟩ <;> simp [initial]
  obtain ⟨controller, checked, -, hupdated, rfl⟩ := showNextProverb_effect hs
  exact hinitial.of_asks (hinitial.steady.showNextProverb hs) hupdated.toggles
    hupdated.progressView hupdated.asks

/-! ## Every change is answered -/

theorem owed_managerStep (hlaunch : App.isLaunch input.event = false)
    (howed : ∀ app, App.step s.app input = some app → app.aborted = false →
      ∀ toggle ∈ s.toggles, App.Owes toggle.1 app)
    (hs : s.managerStep input = some t) : ∀ toggle ∈ t.toggles, App.Owes toggle.1 t.app := by
  obtain ⟨app, outputs, hturn, houtputs, hupdated⟩ := managerStep_effect hlaunch hs
  obtain ⟨happ, halive, -⟩ := App.turn_eq_some_iff.mp hturn
  obtain ⟨-, hsame, htoggles⟩ := progressClosure_keeps { s with app := app } false
  intro toggle hmem
  rcases hupdated with ⟨hupdated, -⟩ | ⟨hupdated, -⟩
  · rw [hupdated.toggles, htoggles] at hmem
    exact hupdated.asks.owes _ (hsame.symm ▸ howed app happ halive toggle hmem)
  · rw [hupdated.toggles] at hmem
    exact hupdated.asks.owes _ (howed app happ halive toggle hmem)

theorem owed_step {event : ProgressEvent} (hready : s.app.StorageReady)
    (howed : ∀ toggle ∈ s.toggles, App.Owes toggle.1 s.app)
    (hcontinues : event.continues = true) (hs : step s event = some t) :
    ∀ toggle ∈ t.toggles, App.Owes toggle.1 t.app := by
  have hasks : t.toggles = s.toggles → Asks s.app t.app →
      ∀ toggle ∈ t.toggles, App.Owes toggle.1 t.app :=
    fun htoggles hasks toggle hmem => hasks.owes _ (howed toggle (htoggles ▸ hmem))
  cases event with
  | nextButtonPushed choice =>
      simp only [step] at hs
      split at hs
      · exact Option.some.inj hs ▸ howed
      · obtain ⟨controller, checked, -, hupdated, rfl⟩ := showNextProverb_effect hs
        exact hasks hupdated.toggles hupdated.asks
  | saveButtonPushed random now =>
      simp only [step] at hs
      split at hs
      · exact Option.some.inj hs ▸ howed
      · split at hs
        · exact Option.some.inj hs ▸ howed
        · rw [checkAndSaveOrDeleteFavorite_eq] at hs
          refine owed_managerStep rfl ?_ hs
          intro app happ halive toggle hmem
          rw [app_asked] at happ
          rcases List.mem_cons.mp hmem with rfl | hmem
          · exact App.Owes.isFavorite (s := s.app.takeRequest) hready halive happ
          · exact (howed toggle hmem).step hready halive rfl happ
  | viewDidAppear => exact hasks (updated_check hs).toggles (updated_check hs).asks
  | proverbTimerFired =>
      obtain ⟨-, happ, htoggles, -⟩ := timerFired_keeps (Or.inl rfl) hs
      exact hasks htoggles (happ ▸ Asks.refl _)
  | meaningTimerFired =>
      obtain ⟨-, happ, htoggles, -⟩ := timerFired_keeps (Or.inr rfl) hs
      exact hasks htoggles (happ ▸ Asks.refl _)
  | animationEnded =>
      simp only [step] at hs
      split at hs
      · exact Option.some.inj hs ▸ howed
      · exact Option.some.inj hs ▸ howed
  | turn input =>
      have hlaunch : App.isLaunch input.event = false := by
        simpa [ProgressEvent.continues] using hcontinues
      exact owed_managerStep hlaunch
        (fun app happ halive toggle hmem =>
          (howed toggle hmem).step hready halive hlaunch happ) hs

theorem toggles_viewDidLoad {app : App} {catalogue : Catalogue} {choice : Nat}
    (hs : viewDidLoad app catalogue choice = some s) : s.toggles = [] := by
  obtain ⟨controller, checked, -, hupdated, rfl⟩ := showNextProverb_effect hs
  exact hupdated.toggles

end Changes

/-- Once typing and fades have come to rest, both labels show the whole proverb, and the
buttons are locked only for a change that has not been answered. If a `remoteStorage` was
there whenever it was needed and no call is in flight, there is none: the buttons are
enabled and the save button has its image again. -/
theorem screen_unlocks {device app : App} {throws : Bool} {catalogue : Catalogue} {choice : Nat}
    {start s : ProgressScreen} {events : List ProgressEvent}
    (happ : Transition.Reachable App.step (device.launch throws) app)
    (hloaded : viewDidLoad app catalogue choice = some start)
    (hcontinues : ∀ event ∈ events, event.continues = true)
    (hs : Transition.run step start events = some s) (hrest : s.AtRest) :
    (∀ proverb, s.controller.currentProverb = some proverb →
      s.proverbLabel.shown = some proverb.text ∧ s.meaningLabel.shown = some proverb.meaning) ∧
      (s.isProverbInProgress = true →
        ∃ toggle ∈ s.toggles, s.app.completed toggle.1 = false) ∧
      (Transition.Along step (fun u _ => u.app.StorageReady) start events → s.app.calls = [] →
        s.isProverbInProgress = false ∧ s.saveButton.progressView = false ∧
          s.saveButton.image.isSome) := by
  have hguard : Transition.Along step (fun _ event => event.continues = true) start events :=
    Transition.along_of_forall hcontinues start
  have hkept : Kept (device.launch throws) s :=
    Transition.run_invariant (fun _ _ _ h hcontinues hs => kept_step h hcontinues hs)
      (kept_viewDidLoad happ hloaded) hguard hs
  obtain ⟨hanimations, htyping⟩ := hrest
  have hlocked : s.isProverbInProgress = true → s.saveButton.progressView = true := by
    intro hprogress
    rcases hkept.steady.locked hprogress with hbusy | hview | hfade
    · omega
    · exact hview
    · rw [hanimations] at hfade
      cases hfade
  have hstopped : s.proverbLabel.isAnimating = false ∧ s.meaningLabel.isAnimating = false := by
    unfold typing at htyping
    constructor
    · cases hlabel : s.proverbLabel.isAnimating with
      | false => rfl
      | true => simp [hlabel] at htyping
    · cases hlabel : s.meaningLabel.isAnimating with
      | false => rfl
      | true => simp [hlabel] at htyping
  refine ⟨fun proverb hproverb => ?_, fun h => hkept.owed (hlocked h), fun hready hcalls => ?_⟩
  · obtain ⟨htext, hmeaning⟩ := hkept.steady.typed proverb hproverb
    exact ⟨htext.shown hstopped.1, hmeaning.shown hstopped.2⟩
  · have howed : ∀ toggle ∈ s.toggles, App.Owes toggle.1 s.app := by
      refine Transition.run_invariant
        (I := fun s => ∀ toggle ∈ s.toggles, App.Owes toggle.1 s.app)
        (fun _ _ _ h hboth hs => owed_step hboth.1 h hboth.2 hs) ?_ (hready.and hguard) hs
      rw [toggles_viewDidLoad hloaded]
      exact fun _ hmem => by cases hmem
    have hview : s.saveButton.progressView = false := by
      rw [Bool.eq_false_iff]
      intro hview
      obtain ⟨toggle, hmem, hwaits⟩ := hkept.owed hview
      rcases howed toggle hmem with hdone | ⟨callback, hcallback, -⟩
      · rw [hdone] at hwaits
        cases hwaits
      · rw [App.callbacks, hcalls] at hcallback
        cases hcallback
    refine ⟨?_, hview, ?_⟩
    · rw [Bool.eq_false_iff]
      intro hprogress
      rw [hlocked hprogress] at hview
      cases hview
    · have hwhole := hkept.steady.whole
      rwa [ObliqueButton.Whole, hview] at hwhole

def shortCatalogue : Catalogue where
  isInitialPopulated := true
  file := KeyedStore.putAll [⟨"7", 0, "a", "", "A", false⟩] KeyedStore.empty
  opened := true

def typed : List ProgressEvent := [.proverbTimerFired, .meaningTimerFired, .proverbTimerFired]

/-- The proverb is saved on the device: the progress fades in and out. -/
def savedOnDevice : List ProgressEvent :=
  typed ++ [.saveButtonPushed "1" 5, .animationEnded, .animationEnded]

theorem screen_unlocks_saved :
    ∃ start s, viewDidLoad (App.installed.launch false) shortCatalogue 0 = some start ∧
      Transition.run step start savedOnDevice = some s ∧ s.isProverbInProgress = false ∧
        s.saveButton.image.isSome := by
  have hrun : ∃ start s, viewDidLoad (App.installed.launch false) shortCatalogue 0 = some start ∧
      Transition.run step start savedOnDevice = some s ∧ s.AtRest ∧ s.app.calls = [] ∧
        Transition.Along step (fun u _ => u.app.StorageReady) start savedOnDevice :=
    ⟨_, _, rfl, rfl, by decide, rfl, by decide⟩
  obtain ⟨start, s, hloaded, hs, hrest, hcalls, hready⟩ := hrun
  have hreachable : Transition.Reachable App.step (App.installed.launch false) _ :=
    Transition.Reachable.refl _
  obtain ⟨hopen, -, himage⟩ :=
    (screen_unlocks hreachable hloaded (by decide) hs hrest).2.2 hready hcalls
  exact ⟨start, s, hloaded, hs, hopen, himage⟩

end ProgressScreen

end Proverbs
