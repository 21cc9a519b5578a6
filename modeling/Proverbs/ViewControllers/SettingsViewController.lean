import Proverbs.Core.InFlight
import Proverbs.Managers.RemindersSwitch

/-! # The reminder switch

A flip stores the choice at once and asks for the permission besides. When the answer is
that notifications are denied, its closure takes back the switch and not the choice: the
`return` in it leaves the closure, while the handler has long stored what the switch said.
-/

namespace Proverbs.Reminders

/-- The reminders while the settings screen is open, with the last status that was
reported to a flip of the switch. -/
structure Watched where
  reminders : Reminders
  lastReported : Option AuthorizationStatus
deriving DecidableEq, Repr

/-- What the closure of a flip is told at this input. -/
def reportedStatus (s : Reminders) (input : Input) : Option AuthorizationStatus :=
  match input.event with
  | .deliverCheck index =>
      match s.checks[index]? with
      | some ⟨.reminderSwitcherChanged, status⟩ => status
      | _ => none
  | _ => none

def watchedStep (w : Watched) (input : Input) : Option Watched :=
  (step w.reminders input).map fun reminders =>
    ⟨reminders, (reportedStatus w.reminders input).or w.lastReported⟩

/-- Flips, activations, changes of the permission, and the callbacks of the checks. -/
def OnScreen : Event → Prop
  | .reminderSwitcherChanged _ => True
  | .applicationDidBecomeActive => True
  | .systemSettings _ => True
  | .answerCheck _ => True
  | .deliverCheck _ => True
  | _ => False

def FlipWaits (s : Reminders) : Prop :=
  SettingsClosure.reminderSwitcherChanged ∈ s.checks.map SettingsCheck.closure

/-- What goes wrong: a flip is told that notifications are denied while they are enabled, or
an activation finds the permission after the last flip was told that they are denied. -/
def Misleads (w : Watched) (input : Input) : Prop :=
  match input.event with
  | .deliverCheck index =>
      (w.reminders.checks[index]? = some ⟨.reminderSwitcherChanged, some .denied⟩ ∧
          w.reminders.enabled = true) ∨
        (w.reminders.checks[index]? = some ⟨.checkIfUserChangedSettings, some .authorized⟩ ∧
          w.reminders.enabled = false ∧ w.lastReported = some .denied ∧
          ¬ FlipWaits w.reminders)
  | _ => False

/-- The invariant: the switch shows the choice, and a choice that stands after the last flip
was told that notifications are denied is that of a flip that waits. -/
structure ShowsTruth (w : Watched) : Prop where
  shows : w.reminders.switcherIsOn = w.reminders.enabled
  denied : w.lastReported = some .denied → w.reminders.enabled = false ∨ FlipWaits w.reminders

/-! ## One event -/

section Event

variable {s : Reminders} {w w' : Watched} {defaultTime : Date} {addFails : Bool}

theorem switcherIsOn_setEnabled (newValue : Bool) (h : s.switcherIsOn = s.enabled) :
    (s.setEnabled newValue defaultTime addFails).switcherIsOn =
      (s.setEnabled newValue defaultTime addFails).enabled := by
  unfold setEnabled
  split
  · rfl
  · exact h

theorem checks_notifications (s : Reminders) (schedule : Bool) :
    (s.notifications schedule defaultTime addFails).checks = s.checks := by
  simp only [notifications, reminderTime]
  cases schedule with
  | false => rfl
  | true => cases hstored : s.storedTime <;> cases addFails <;> rfl

theorem checks_setEnabled (s : Reminders) (newValue : Bool) :
    (s.setEnabled newValue defaultTime addFails).checks = s.checks := by
  unfold setEnabled
  split
  · exact checks_notifications _ newValue
  · rfl

theorem switcherIsOn_setEnabled_self (newValue : Bool) (h : s.switcherIsOn = newValue) :
    (s.setEnabled newValue defaultTime addFails).switcherIsOn = newValue := by
  unfold setEnabled
  split
  · exact notifications_enabled defaultTime addFails _ newValue
  · exact h

theorem flip_shows (s : Reminders) (isOn : Bool) (defaultTime : Date) (addFails : Bool) :
    (s.reminderSwitcherChanged isOn defaultTime addFails).switcherIsOn = isOn ∧
      (s.reminderSwitcherChanged isOn defaultTime addFails).enabled = isOn := by
  cases isOn with
  | false => exact ⟨switcherIsOn_setEnabled_self false rfl, setEnabled_enabled _ _ _ false⟩
  | true => exact ⟨switcherIsOn_setEnabled_self true rfl, setEnabled_enabled _ _ _ true⟩

theorem flipWaits_flip (s : Reminders) :
    FlipWaits (s.reminderSwitcherChanged true defaultTime addFails) := by
  have hchecks : (s.reminderSwitcherChanged true defaultTime addFails).checks =
      s.checks ++ [⟨.reminderSwitcherChanged, none⟩] := checks_setEnabled _ true
  rw [FlipWaits, hchecks]
  simp

theorem flipWaits_answerCheck (h : FlipWaits s) (index : Nat) :
    FlipWaits (s.answerCheck index) := by
  unfold answerCheck
  split
  · rename_i closure hcheck
    have hclosures : (s.checks.set index ⟨closure, some s.authorizationStatus⟩).map
        SettingsCheck.closure = s.checks.map SettingsCheck.closure :=
      InFlight.map_set_of_eq SettingsCheck.closure hcheck rfl
    rw [FlipWaits, hclosures]
    exact h
  · exact h

theorem flipWaits_eraseIdx {index : Nat} {check : SettingsCheck}
    (hcheck : s.checks[index]? = some check) (hother : check.closure ≠ .reminderSwitcherChanged)
    (h : FlipWaits s) : FlipWaits { s with checks := s.checks.eraseIdx index } := by
  obtain ⟨flip, hflip, hclosure⟩ := List.mem_map.mp h
  obtain ⟨other, hplace⟩ := List.mem_iff_getElem?.mp hflip
  have hne : other ≠ index := by
    intro hsame
    rw [hsame, hcheck, Option.some.injEq] at hplace
    exact hother (hplace ▸ hclosure)
  exact List.mem_map.mpr
    ⟨flip, List.mem_eraseIdx_iff_getElem?.mpr ⟨other, hne, hplace⟩, hclosure⟩

theorem showsTruth_activation {status : AuthorizationStatus}
    {lastReported : Option AuthorizationStatus}
    (hshows : s.switcherIsOn = s.enabled)
    (hdenied : lastReported = some .denied → s.enabled = false ∨ FlipWaits s)
    (hguard : status = .authorized → s.enabled = false → lastReported = some .denied →
      FlipWaits s) :
    ShowsTruth ⟨s.settingsChecked .checkIfUserChangedSettings status defaultTime addFails,
      lastReported⟩ := by
  unfold settingsChecked
  simp only
  by_cases hturnOn : status = .authorized ∧ !s.enabled
  · rw [if_pos hturnOn]
    have hoff : s.enabled = false := by simpa using hturnOn.2
    refine ⟨switcherIsOn_setEnabled true hshows, fun hlast => Or.inr ?_⟩
    rw [FlipWaits, checks_setEnabled]
    exact hguard hturnOn.1 hoff hlast
  · rw [if_neg hturnOn]
    by_cases hturnOff : status = .denied ∧ s.enabled
    · rw [if_pos hturnOff]
      exact ⟨switcherIsOn_setEnabled false hshows, fun _ =>
        Or.inl (setEnabled_enabled defaultTime addFails s false)⟩
    · rw [if_neg hturnOff]
      exact ⟨hshows, hdenied⟩

theorem showsTruth_deliverCheck (h : ShowsTruth w) {index : Nat}
    (hguard : ¬ Misleads w ⟨.deliverCheck index, defaultTime, addFails⟩) :
    ShowsTruth ⟨w.reminders.deliverCheck index defaultTime addFails,
      (reportedStatus w.reminders ⟨.deliverCheck index, defaultTime, addFails⟩).or
        w.lastReported⟩ := by
  cases hcheck : w.reminders.checks[index]? with
  | none => simpa [deliverCheck, reportedStatus, hcheck] using h
  | some check =>
      obtain ⟨closure, status⟩ := check
      cases status with
      | none => cases closure <;> simpa [deliverCheck, reportedStatus, hcheck] using h
      | some status =>
          simp only [Misleads, hcheck, not_or] at hguard
          simp only [deliverCheck, reportedStatus, hcheck]
          have hwaits : closure ≠ .reminderSwitcherChanged → FlipWaits w.reminders →
              FlipWaits { w.reminders with checks := w.reminders.checks.eraseIdx index } :=
            fun hother => flipWaits_eraseIdx hcheck hother
          cases closure with
          | checkIfUserChangedSettings =>
              apply showsTruth_activation (s := { w.reminders with
                checks := w.reminders.checks.eraseIdx index }) h.shows
              · intro hlast
                exact (h.denied hlast).imp_right (hwaits (by simp))
              · intro hstatus hoff hlast
                apply hwaits (by simp)
                by_contra hnone
                exact hguard.2 ⟨by rw [hstatus], hoff, hlast, hnone⟩
          | waitAndCheckNotifications =>
              have hdenied := fun hlast => (h.denied hlast).imp_right (hwaits (by simp))
              simp only [settingsChecked]
              split
              · exact ⟨h.shows, hdenied⟩
              · exact ⟨h.shows, hdenied⟩
          | setupViews =>
              have hdenied := fun hlast => (h.denied hlast).imp_right (hwaits (by simp))
              simp only [settingsChecked]
              split
              · exact ⟨h.shows, hdenied⟩
              · exact ⟨rfl, hdenied⟩
          | reminderSwitcherChanged =>
              simp only [settingsChecked]
              by_cases hstatus : status = .denied
              · have hoff : w.reminders.enabled = false := by
                  by_contra hon
                  exact hguard.1 ⟨by rw [hstatus], by simpa using hon⟩
                rw [if_pos hstatus]
                exact ⟨hoff.symm, fun _ => Or.inl hoff⟩
              · rw [if_neg hstatus]
                refine ⟨h.shows, fun hlast => absurd ?_ hstatus⟩
                simpa using hlast

theorem showsTruth_step {input : Input} (h : ShowsTruth w) (hscreen : OnScreen input.event)
    (hguard : ¬ Misleads w input) (hs : watchedStep w input = some w') : ShowsTruth w' := by
  obtain ⟨event, defaultTime, addFails⟩ := input
  cases event with
  | launch | waited | setupViews | datePickerChangedValue _ | hideDatePicker _
  | answerPermission _ _ | deliverPermission _ => exact hscreen.elim
  | applicationDidBecomeActive =>
      obtain rfl := Option.some.inj hs
      refine ⟨h.shows, fun hlast => (h.denied hlast).imp_right fun hwaits => ?_⟩
      rw [FlipWaits, checkNotificationsSettings, List.map_append]
      exact List.mem_append_left _ hwaits
  | systemSettings status =>
      obtain rfl := Option.some.inj hs
      exact ⟨h.shows, h.denied⟩
  | reminderSwitcherChanged isOn =>
      obtain rfl := Option.some.inj hs
      obtain ⟨hswitch, henabled⟩ := flip_shows w.reminders isOn defaultTime addFails
      refine ⟨hswitch.trans henabled.symm, fun _ => ?_⟩
      cases isOn with
      | false => exact Or.inl henabled
      | true => exact Or.inr (flipWaits_flip w.reminders)
  | answerCheck index =>
      obtain rfl := Option.some.inj hs
      have hsame : (w.reminders.answerCheck index).switcherIsOn = w.reminders.switcherIsOn ∧
          (w.reminders.answerCheck index).enabled = w.reminders.enabled := by
        unfold answerCheck
        split
        · exact ⟨rfl, rfl⟩
        · exact ⟨rfl, rfl⟩
      refine ⟨hsame.1.trans (h.shows.trans hsame.2.symm), fun hlast => ?_⟩
      rcases h.denied hlast with hoff | hwaits
      · exact Or.inl (hsame.2.trans hoff)
      · exact Or.inr (flipWaits_answerCheck hwaits index)
  | deliverCheck index =>
      obtain rfl := Option.some.inj hs
      exact showsTruth_deliverCheck h hguard

/-- A callback that misleads breaks what the screen shows, or what the flip was told. -/
theorem not_shows_of_misleads {input : Input} (h : Misleads w input)
    (hs : watchedStep w input = some w') :
    ¬ (w'.reminders.switcherIsOn = w'.reminders.enabled ∧
      (w'.lastReported = some .denied → w'.reminders.enabled = false)) := by
  obtain ⟨event, defaultTime, addFails⟩ := input
  cases event with
  | deliverCheck index =>
      obtain rfl := Option.some.inj hs
      rintro ⟨hshows, htold⟩
      rcases h with ⟨hcheck, hon⟩ | ⟨hcheck, hoff, hlast, _⟩
      · simp [deliverCheck, settingsChecked, hcheck, hon] at hshows
      · have hset : ({ w.reminders with checks := w.reminders.checks.eraseIdx index } :
            Reminders).setEnabled true defaultTime addFails =
              w.reminders.deliverCheck index defaultTime addFails := by
          simp [deliverCheck, settingsChecked, hcheck, hoff]
        have henabled := setEnabled_enabled defaultTime addFails
          { w.reminders with checks := w.reminders.checks.eraseIdx index } true
        rw [hset] at henabled
        have hreported : (reportedStatus w.reminders
            ⟨.deliverCheck index, defaultTime, addFails⟩).or w.lastReported = some .denied := by
          simp [reportedStatus, hcheck, hlast]
        exact absurd (henabled.symm.trans (htold hreported)) (by decide)
  | launch | waited | setupViews | datePickerChangedValue _ | hideDatePicker _
  | answerPermission _ _ | deliverPermission _ | applicationDidBecomeActive
  | systemSettings _ | reminderSwitcherChanged _ | answerCheck _ => exact h.elim

end Event

/-! ## Runs -/

/-- From a screen that shows the choice on, whatever flips, activations, permissions and
orders of the callbacks, as long as no callback misleads: once no callback is outstanding
the switch shows the choice, and after a flip that was told that notifications are denied,
with no later one told otherwise, they are not enabled. -/
theorem switch_shows_truth {s : Reminders} (hswitch : s.switcherIsOn = s.enabled)
    {inputs : List Input} (hscreen : ∀ input ∈ inputs, OnScreen input.event)
    (hguard : Transition.Along watchedStep (fun w input => ¬ Misleads w input) ⟨s, none⟩ inputs)
    {w : Watched} (hrun : Transition.run watchedStep ⟨s, none⟩ inputs = some w)
    (hidle : w.reminders.checks = []) :
    w.reminders.switcherIsOn = w.reminders.enabled ∧
      (w.lastReported = some .denied → w.reminders.enabled = false) := by
  have hboth := hguard.and
    (Transition.along_of_forall (Q := fun input => OnScreen input.event) hscreen
      (⟨s, none⟩ : Watched))
  have hstart : ShowsTruth ⟨s, none⟩ := ⟨hswitch, fun hlast => absurd hlast (by simp)⟩
  have htruth : ShowsTruth w := by
    refine Transition.run_invariant (I := ShowsTruth) ?_ hstart hboth hrun
    intro w input w' h hstep hs
    exact showsTruth_step h hstep.2 hstep.1 hs
  refine ⟨htruth.shows, fun hlast => ?_⟩
  rcases htruth.denied hlast with hoff | hwaits
  · exact hoff
  · rw [FlipWaits, hidle] at hwaits
    exact absurd hwaits List.not_mem_nil

def deniedBefore : Reminders := { installed with authorizationStatus := .denied }

/-- The switch is moved on and off again before the check of the first flip is answered. -/
def onAndOff : List Input :=
  [.reminderSwitcherChanged true, .reminderSwitcherChanged false, .answerCheck 0,
    .deliverCheck 0].map fun event => ⟨event, 13, false⟩

theorem switch_shows_truth_onAndOff :
    ∃ w, Transition.run watchedStep ⟨deniedBefore, none⟩ onAndOff = some w ∧
      w.lastReported = some .denied ∧ w.reminders.switcherIsOn = w.reminders.enabled ∧
        w.reminders.enabled = false := by
  have hguard : Transition.Along watchedStep (fun w input => ¬ Misleads w input)
      ⟨deniedBefore, none⟩ onAndOff := by
    refine ⟨id, fun w hw => ?_⟩
    obtain rfl := Option.some.inj hw
    refine ⟨id, fun w hw => ?_⟩
    obtain rfl := Option.some.inj hw
    refine ⟨id, fun w hw => ?_⟩
    obtain rfl := Option.some.inj hw
    refine ⟨?_, fun _ _ => trivial⟩
    rintro (⟨_, hon⟩ | ⟨hcheck, _⟩)
    · exact absurd hon (by decide)
    · exact absurd hcheck (by decide)
  obtain ⟨hshows, hoff⟩ := switch_shows_truth (s := deniedBefore) rfl
    (by simp [onAndOff, OnScreen]) hguard rfl rfl
  exact ⟨_, rfl, rfl, hshows, hoff rfl⟩

/-- One flip with notifications denied: the switch is taken back, the choice is not. -/
theorem denied_flip_stays_enabled :
    ∃ w, Transition.run watchedStep ⟨deniedBefore, none⟩
        ([.reminderSwitcherChanged true, .answerCheck 0, .deliverCheck 0].map
          fun event => ⟨event, 13, false⟩) = some w ∧
      w.reminders.checks = [] ∧ w.lastReported = some .denied ∧
        w.reminders.switcherIsOn = false ∧ w.reminders.enabled = true :=
  ⟨_, rfl, rfl, rfl, rfl, rfl⟩

end Proverbs.Reminders
