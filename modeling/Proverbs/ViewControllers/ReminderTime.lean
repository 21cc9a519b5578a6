import Proverbs.Managers.RemindersSwitch

/-! # The time on the settings screen

The label shows the time the screen has read, the picker starts from the stored one and
writes it at every change, and once more when it has been hidden. The manager's callbacks
come in between. The label, the stored time and the pending reminder agree throughout.
-/

namespace Proverbs

open Reminders (Consistent)

/-- What `SettingsViewController` shows of the time. -/
structure TimeSettings where
  reminderTimeValue : Date
  datePicker : Date
  isDatePickerVisible : Bool
  /-- The animation of `showDatePicker` under way, with its argument. -/
  animation : Option Bool
deriving DecidableEq, Repr

structure SettingsScreen where
  reminders : Reminders
  screen : Option TimeSettings
deriving DecidableEq, Repr

inductive SettingsEvent where
  /-- The screen is opened from the menu; the picker comes with a date of its own. -/
  | viewDidLoad (datePicker : Date)
  | leftbuttonPushed
  | reminderTimeLabelDidTap
  | hideDatePickerGesture
  | datePickerChangedValue (date : Date)
  | animationCompleted
  | reminders (event : Reminders.Event)
deriving DecidableEq, Repr

/-- An event, with `defaultTime()` at that moment and whether a request is refused. -/
structure SettingsInput where
  event : SettingsEvent
  defaultTime : Date
  addFails : Bool
deriving DecidableEq, Repr

namespace SettingsScreen

def updateRemindersDate (s : SettingsScreen) (defaultTime : Date) : SettingsScreen :=
  let (reminders, reminderTime) := s.reminders.reminderTime defaultTime
  { reminders := reminders
    screen := s.screen.map fun screen => { screen with reminderTimeValue := reminderTime } }

/-- `showDatePicker(_:animated:)`, animated. The view takes no touches meanwhile. -/
def showDatePicker (s : SettingsScreen) (shown : Bool) (defaultTime : Date) : SettingsScreen :=
  if shown then
    let (reminders, reminderTime) := s.reminders.reminderTime defaultTime
    { reminders := reminders
      screen := s.screen.map fun screen =>
        { screen with
          datePicker := reminderTime, isDatePickerVisible := true, animation := some true } }
  else
    { s with
      screen := s.screen.map fun screen =>
        { screen with isDatePickerVisible := false, animation := some false } }

/-- The closure of the animation; the one that has hidden the picker stores its date. -/
def animationCompleted (s : SettingsScreen) (screen : TimeSettings) (defaultTime : Date)
    (addFails : Bool) : SettingsScreen :=
  let ended := some { screen with animation := none }
  match screen.animation with
  | some false =>
      { reminders := s.reminders.setReminderTime screen.datePicker defaultTime addFails
        screen := ended }
  | _ => { s with screen := ended }

/-- The events of the screen that the machine of the reminders knows as well. -/
def isOfScreen : Reminders.Event → Bool
  | .setupViews | .datePickerChangedValue _ | .hideDatePicker _ => true
  | _ => false

def isLaunch : Reminders.Event → Bool
  | .launch => true
  | _ => false

def step (s : SettingsScreen) (input : SettingsInput) : Option SettingsScreen :=
  match input.event with
  | .viewDidLoad datePicker =>
      let opened : SettingsScreen :=
        { s with screen := some ⟨input.defaultTime, datePicker, false, none⟩ }
      let s := opened.updateRemindersDate input.defaultTime
      (Reminders.step s.reminders ⟨.setupViews, input.defaultTime, input.addFails⟩).map
        fun reminders => { s with reminders := reminders }
  | .leftbuttonPushed =>
      if s.screen.any fun screen => screen.isDatePickerVisible || screen.animation.isSome then
        some s
      else some { s with screen := none }
  | .reminderTimeLabelDidTap =>
      match s.screen with
      | none => some s
      | some screen =>
          if screen.animation.isSome then some s
          else some (s.showDatePicker (!screen.isDatePickerVisible) input.defaultTime)
  | .hideDatePickerGesture =>
      match s.screen with
      | none => some s
      | some screen =>
          if screen.animation.isNone && screen.isDatePickerVisible then
            some (s.showDatePicker false input.defaultTime)
          else some s
  | .datePickerChangedValue date =>
      match s.screen with
      | none => some s
      | some screen =>
          let changed : SettingsScreen :=
            { reminders := s.reminders.setReminderTime date input.defaultTime input.addFails
              screen := some { screen with datePicker := date } }
          some (changed.updateRemindersDate input.defaultTime)
  | .animationCompleted =>
      match s.screen with
      | none => some s
      | some screen => some (s.animationCompleted screen input.defaultTime input.addFails)
  | .reminders event =>
      if isOfScreen event then some s
      else
        (Reminders.step s.reminders ⟨event, input.defaultTime, input.addFails⟩).map
          fun reminders =>
            { reminders := reminders, screen := if isLaunch event then none else s.screen }

def installed : SettingsScreen := ⟨Reminders.installed, none⟩

end SettingsScreen

/-! ## What the manager does in between -/

namespace Reminders

/-- Unless it is refused, a reminder is pending while reminders are enabled. -/
def Scheduled (s : Reminders) : Prop := s.enabled = true → s.pending.isSome

structure SameReminder (s t : Reminders) : Prop where
  enabled : t.enabled = s.enabled
  pending : t.pending = s.pending
  storedTime : t.storedTime = s.storedTime

/-- A turn of the manager: the choice is set, or the reminder is left alone. -/
inductive Turn (defaultTime : Date) (addFails : Bool) (s t : Reminders) : Prop where
  | kept (hsame : SameReminder s t)
  | enabled (u : Reminders) (newValue : Bool) (hbefore : SameReminder s u)
      (hafter : SameReminder (u.setEnabled newValue defaultTime addFails) t)

section Turns

variable {s t : Reminders} {defaultTime date : Date} {addFails : Bool}

theorem turn_settingsChecked (closure : SettingsClosure) (status : AuthorizationStatus) :
    Turn defaultTime addFails s (s.settingsChecked closure status defaultTime addFails) := by
  cases closure with
  | checkIfUserChangedSettings =>
      simp only [settingsChecked]
      split
      · exact .enabled s true ⟨rfl, rfl, rfl⟩ ⟨rfl, rfl, rfl⟩
      · split
        · exact .enabled s false ⟨rfl, rfl, rfl⟩ ⟨rfl, rfl, rfl⟩
        · exact .kept ⟨rfl, rfl, rfl⟩
  | waitAndCheckNotifications | setupViews | reminderSwitcherChanged =>
      simp only [settingsChecked]
      split <;> exact .kept ⟨rfl, rfl, rfl⟩

theorem turn_step {event : Event} (hother : SettingsScreen.isOfScreen event = false)
    (hs : step s ⟨event, defaultTime, addFails⟩ = some t) : Turn defaultTime addFails s t := by
  have hchecked : ∀ {u : Reminders}, SameReminder s u → ∀ closure status,
      Turn defaultTime addFails s (u.settingsChecked closure status defaultTime addFails) := by
    intro u hbefore closure status
    have hturn : Turn defaultTime addFails u
      (u.settingsChecked closure status defaultTime addFails) := turn_settingsChecked closure status
    cases hturn with
    | kept hsame =>
        exact .kept ⟨hsame.enabled.trans hbefore.enabled, hsame.pending.trans hbefore.pending,
          hsame.storedTime.trans hbefore.storedTime⟩
    | enabled v newValue hsame hafter =>
        exact .enabled v newValue ⟨hsame.enabled.trans hbefore.enabled,
          hsame.pending.trans hbefore.pending, hsame.storedTime.trans hbefore.storedTime⟩ hafter
  cases event with
  | launch | applicationDidBecomeActive | systemSettings =>
      rw [← Option.some.inj hs]
      exact .kept ⟨rfl, rfl, rfl⟩
  | waited =>
      simp only [step] at hs
      split at hs <;>
        · rw [← Option.some.inj hs]
          exact .kept ⟨rfl, rfl, rfl⟩
  | reminderSwitcherChanged isOn =>
      rw [← Option.some.inj hs]
      cases isOn with
      | false =>
          exact .enabled { s with switcherIsOn := false } false ⟨rfl, rfl, rfl⟩ ⟨rfl, rfl, rfl⟩
      | true =>
          exact .enabled ({ s with switcherIsOn := true }.checkNotificationsSettings
            .reminderSwitcherChanged) true ⟨rfl, rfl, rfl⟩ ⟨rfl, rfl, rfl⟩
  | answerPermission index granted =>
      rw [← Option.some.inj hs, answerPermission]
      split <;> exact .kept ⟨rfl, rfl, rfl⟩
  | answerCheck index =>
      rw [← Option.some.inj hs, answerCheck]
      split <;> exact .kept ⟨rfl, rfl, rfl⟩
  | deliverPermission index =>
      rw [← Option.some.inj hs, deliverPermission]
      split
      · exact .enabled { s with permissions := s.permissions.eraseIdx index } _ ⟨rfl, rfl, rfl⟩
          ⟨rfl, rfl, rfl⟩
      · exact .kept ⟨rfl, rfl, rfl⟩
  | deliverCheck index =>
      rw [← Option.some.inj hs, deliverCheck]
      split
      · exact hchecked (u := { s with checks := s.checks.eraseIdx index }) ⟨rfl, rfl, rfl⟩ _ _
      · exact .kept ⟨rfl, rfl, rfl⟩
  | setupViews | datePickerChangedValue | hideDatePicker =>
      simp [SettingsScreen.isOfScreen] at hother

theorem storedTime_notifications (h : s.storedTime = some date) (schedule : Bool) :
    (s.notifications schedule defaultTime addFails).storedTime = some date := by
  cases schedule with
  | false => exact h
  | true =>
      simp only [notifications, reminderTime, if_true, h]
      cases addFails with
      | false => rfl
      | true => rfl

theorem storedTime_setEnabled (h : s.storedTime = some date) (newValue : Bool) :
    (s.setEnabled newValue defaultTime addFails).storedTime = some date := by
  unfold setEnabled
  split
  · exact storedTime_notifications (s := { s with enabled := newValue }) h newValue
  · exact h

theorem Turn.storedTime (h : Turn defaultTime addFails s t) (hstored : s.storedTime = some date) :
    t.storedTime = some date := by
  cases h with
  | kept hsame => exact hsame.storedTime.trans hstored
  | enabled u newValue hbefore hafter =>
      exact hafter.storedTime.trans (storedTime_setEnabled (hbefore.storedTime.trans hstored) _)

theorem scheduled_notifications {schedule : Bool} (h : s.enabled = schedule) :
    Scheduled (s.notifications schedule defaultTime false) := by
  intro henabled
  rw [notifications_enabled, h] at henabled
  rw [henabled]
  simp only [notifications, reminderTime, if_true]
  cases s.storedTime with
  | none => rfl
  | some date => rfl

theorem Scheduled.setEnabled (h : Scheduled s) (newValue : Bool) :
    Scheduled (s.setEnabled newValue defaultTime false) := by
  unfold Reminders.setEnabled
  split
  · exact scheduled_notifications (s := { s with enabled := newValue }) rfl
  · exact h

theorem Scheduled.of_same (h : Scheduled s) (hsame : SameReminder s t) : Scheduled t := by
  unfold Scheduled
  rw [hsame.enabled, hsame.pending]
  exact h

theorem Turn.scheduled (h : Turn defaultTime false s t) (hscheduled : Scheduled s) :
    Scheduled t := by
  cases h with
  | kept hsame => exact hscheduled.of_same hsame
  | enabled u newValue hbefore hafter =>
      exact ((hscheduled.of_same hbefore).setEnabled newValue).of_same hafter

end Turns

end Reminders

/-! ## Runs of the screen -/

namespace SettingsScreen

/-- The label shows the stored time, and so does the picker while its date may be stored. -/
structure ShowsTime (s : SettingsScreen) : Prop where
  consistent : Consistent s.reminders
  label : ∀ screen, s.screen = some screen →
    s.reminders.storedTime = some screen.reminderTimeValue
  picker : ∀ screen, s.screen = some screen →
    screen.isDatePickerVisible = true ∨ screen.animation = some false →
      screen.datePicker = screen.reminderTimeValue

section Steps

variable {s t : SettingsScreen} {defaultTime date : Date} {addFails : Bool}

theorem storedTime_setReminderTime (r : Reminders) (newValue defaultTime : Date) :
    (r.setReminderTime newValue defaultTime addFails).storedTime = some newValue :=
  Reminders.storedTime_notifications (s := { r with storedTime := some newValue }) rfl r.enabled

theorem consistent_setReminderTime (r : Reminders) (newValue defaultTime : Date) :
    Consistent (r.setReminderTime newValue defaultTime addFails) :=
  Reminders.consistent_notifications (s := { r with storedTime := some newValue }) defaultTime
    addFails rfl

theorem updateRemindersDate_of_stored (h : s.reminders.storedTime = some date) :
    s.updateRemindersDate defaultTime =
      { s with
        screen := s.screen.map fun screen => { screen with reminderTimeValue := date } } := by
  simp [updateRemindersDate, Reminders.reminderTime, h]

theorem showsTime_opened (h : Consistent s.reminders) (datePicker defaultTime : Date) :
    ShowsTime ({ s with screen := some ⟨defaultTime, datePicker, false, none⟩ }.updateRemindersDate
      defaultTime) := by
  obtain ⟨hconsistent, hstored⟩ := h.reminderTime defaultTime
  refine ⟨hconsistent, ?_, ?_⟩
  · rintro screen hscreen
    obtain rfl := Option.some.inj hscreen
    exact hstored
  · rintro screen hscreen hvisible
    obtain rfl := Option.some.inj hscreen
    simp at hvisible

/-- The picker is shown at the stored time, and hidden only after it was shown. -/
theorem showsTime_showDatePicker (h : ShowsTime s) {screen : TimeSettings}
    (hscreen : s.screen = some screen) {shown : Bool}
    (hvisible : shown = false → screen.isDatePickerVisible = true) :
    ShowsTime (s.showDatePicker shown defaultTime) := by
  have hstored := h.label screen hscreen
  cases shown with
  | true =>
      have hread : s.reminders.reminderTime defaultTime =
          (s.reminders, screen.reminderTimeValue) := by
        rw [Reminders.reminderTime, hstored]
      simp only [showDatePicker, if_true, hread, hscreen, Option.map_some]
      refine ⟨h.consistent, ?_, ?_⟩
      · rintro other hother
        obtain rfl := Option.some.inj hother
        exact hstored
      · rintro other hother -
        obtain rfl := Option.some.inj hother
        rfl
  | false =>
      simp only [showDatePicker, Bool.false_eq_true, if_false, hscreen, Option.map_some]
      refine ⟨h.consistent, ?_, ?_⟩
      · rintro other hother
        obtain rfl := Option.some.inj hother
        exact hstored
      · rintro other hother -
        obtain rfl := Option.some.inj hother
        exact h.picker screen hscreen (Or.inl (hvisible rfl))

theorem showsTime_changed (screen : TimeSettings) (hscreen : screen.datePicker = date) :
    ShowsTime ({ reminders := s.reminders.setReminderTime date defaultTime addFails
                 screen := some screen : SettingsScreen }.updateRemindersDate defaultTime) := by
  rw [updateRemindersDate_of_stored (storedTime_setReminderTime s.reminders date defaultTime)]
  refine ⟨?_, ?_, ?_⟩
  · exact consistent_setReminderTime s.reminders date defaultTime
  · rintro other hother
    obtain rfl := Option.some.inj hother
    exact storedTime_setReminderTime s.reminders date defaultTime
  · rintro other hother -
    obtain rfl := Option.some.inj hother
    exact hscreen

theorem showsTime_animationCompleted (h : ShowsTime s) {screen : TimeSettings}
    (hscreen : s.screen = some screen) :
    ShowsTime (s.animationCompleted screen defaultTime addFails) := by
  unfold animationCompleted
  split
  · rename_i hhiding
    have hsame : screen.datePicker = screen.reminderTimeValue :=
      h.picker screen hscreen (Or.inr hhiding)
    refine ⟨?_, ?_, ?_⟩
    · exact consistent_setReminderTime s.reminders screen.datePicker defaultTime
    · rintro other hother
      obtain rfl := Option.some.inj hother
      rw [← hsame]
      exact storedTime_setReminderTime s.reminders screen.datePicker defaultTime
    · rintro other hother -
      obtain rfl := Option.some.inj hother
      exact hsame
  · refine ⟨h.consistent, ?_, ?_⟩
    · rintro other hother
      obtain rfl := Option.some.inj hother
      exact h.label screen hscreen
    · rintro other hother hvisible
      obtain rfl := Option.some.inj hother
      refine h.picker screen hscreen (Or.inl ?_)
      simpa using hvisible

theorem showsTime_turn (h : ShowsTime s) {event : Reminders.Event} {reminders : Reminders}
    (hother : isOfScreen event = false)
    (hstep : Reminders.step s.reminders ⟨event, defaultTime, addFails⟩ = some reminders)
    {screen : Option TimeSettings} (hscreen : screen = none ∨ screen = s.screen) :
    ShowsTime ⟨reminders, screen⟩ := by
  have hturn := Reminders.turn_step hother hstep
  refine ⟨Reminders.consistent_step h.consistent hstep, ?_, ?_⟩
  · rintro shown hshown
    rcases hscreen with rfl | rfl
    · cases hshown
    · exact hturn.storedTime (h.label shown hshown)
  · rintro shown hshown
    rcases hscreen with rfl | rfl
    · cases hshown
    · exact h.picker shown hshown

theorem showsTime_step (h : ShowsTime s) {input : SettingsInput} (hs : step s input = some t) :
    ShowsTime t := by
  obtain ⟨event, defaultTime, addFails⟩ := input
  cases event with
  | viewDidLoad datePicker =>
      obtain rfl := Option.some.inj hs
      have hopened := showsTime_opened h.consistent datePicker defaultTime
      have hstored := Reminders.reminderTime_of_stored (hopened.label _ rfl) defaultTime
      rw [hstored]
      exact ⟨hopened.consistent.of_same rfl rfl rfl, hopened.label, hopened.picker⟩
  | leftbuttonPushed =>
      simp only [step] at hs
      split at hs
      · rw [← Option.some.inj hs]
        exact h
      · rw [← Option.some.inj hs]
        exact ⟨h.consistent, fun _ hnone => (by cases hnone), fun _ hnone => (by cases hnone)⟩
  | reminderTimeLabelDidTap =>
      simp only [step] at hs
      split at hs
      · rw [← Option.some.inj hs]
        exact h
      · rename_i screen hscreen
        split at hs
        · rw [← Option.some.inj hs]
          exact h
        · rw [← Option.some.inj hs]
          apply showsTime_showDatePicker h hscreen
          simp
  | hideDatePickerGesture =>
      simp only [step] at hs
      split at hs
      · rw [← Option.some.inj hs]
        exact h
      · rename_i screen hscreen
        split at hs
        · rename_i hready
          rw [← Option.some.inj hs]
          refine showsTime_showDatePicker h hscreen fun _ => ?_
          exact (Bool.and_eq_true_iff.mp hready).2
        · rw [← Option.some.inj hs]
          exact h
  | datePickerChangedValue date =>
      simp only [step] at hs
      split at hs
      · rw [← Option.some.inj hs]
        exact h
      · rw [← Option.some.inj hs]
        exact showsTime_changed _ rfl
  | animationCompleted =>
      simp only [step] at hs
      split at hs
      · rw [← Option.some.inj hs]
        exact h
      · rename_i screen hscreen
        rw [← Option.some.inj hs]
        exact showsTime_animationCompleted h hscreen
  | reminders event =>
      simp only [step] at hs
      split at hs
      · rw [← Option.some.inj hs]
        exact h
      · rename_i hother
        obtain ⟨reminders, hreminders, rfl⟩ := Option.map_eq_some_iff.mp hs
        apply showsTime_turn h (by simpa using hother) hreminders
        split
        · exact Or.inl rfl
        · exact Or.inr rfl

/-- A time that is stored is scheduled again while reminders are on. -/
theorem scheduled_step (h : Reminders.Scheduled s.reminders) {input : SettingsInput}
    (haccepted : input.addFails = false) (hs : step s input = some t) :
    Reminders.Scheduled t.reminders := by
  have hread : ∀ {r : Reminders} {defaultTime : Date}, Reminders.Scheduled r →
      Reminders.Scheduled (r.reminderTime defaultTime).1 := by
    intro r defaultTime hr
    unfold Reminders.reminderTime
    split <;> exact hr
  have hwritten : ∀ (r : Reminders) (date defaultTime : Date),
      Reminders.Scheduled (r.setReminderTime date defaultTime false) := fun r date defaultTime =>
    Reminders.scheduled_notifications (s := { r with storedTime := some date }) rfl
  obtain ⟨event, defaultTime, addFails⟩ := input
  obtain rfl : addFails = false := haccepted
  cases event with
  | viewDidLoad datePicker =>
      obtain rfl := Option.some.inj hs
      exact hread (hread h)
  | leftbuttonPushed =>
      simp only [step] at hs
      split at hs <;>
        · rw [← Option.some.inj hs]
          exact h
  | reminderTimeLabelDidTap =>
      simp only [step] at hs
      split at hs
      · rw [← Option.some.inj hs]
        exact h
      · split at hs
        · rw [← Option.some.inj hs]
          exact h
        · rw [← Option.some.inj hs, showDatePicker]
          split
          · exact hread h
          · exact h
  | hideDatePickerGesture =>
      simp only [step] at hs
      split at hs
      · rw [← Option.some.inj hs]
        exact h
      · split at hs <;>
          · rw [← Option.some.inj hs]
            exact h
  | datePickerChangedValue date =>
      simp only [step] at hs
      split at hs
      · rw [← Option.some.inj hs]
        exact h
      · rw [← Option.some.inj hs]
        exact hread (hwritten s.reminders date defaultTime)
  | animationCompleted =>
      simp only [step] at hs
      split at hs
      · rw [← Option.some.inj hs]
        exact h
      · rw [← Option.some.inj hs, animationCompleted]
        split
        · exact hwritten s.reminders _ defaultTime
        · exact h
  | reminders event =>
      simp only [step] at hs
      split at hs
      · rw [← Option.some.inj hs]
        exact h
      · rename_i hother
        obtain ⟨reminders, hreminders, rfl⟩ := Option.map_eq_some_iff.mp hs
        exact (Reminders.turn_step (by simpa using hother) hreminders).scheduled h

end Steps

/-- However the manager's callbacks come between the events of the screen: the label shows
the stored time, nothing is pending while reminders are off, and a pending reminder is for
the time on the label. It is pending whenever reminders are on, unless a request was
refused. -/
theorem label_tells_reminder {inputs : List SettingsInput} {s : SettingsScreen}
    (hs : Transition.run step installed inputs = some s) :
    (∀ screen, s.screen = some screen →
      s.reminders.storedTime = some screen.reminderTimeValue ∧
        (s.reminders.enabled = false → s.reminders.pending = none) ∧
        ∀ date, s.reminders.pending = some date → date = screen.reminderTimeValue) ∧
      ((∀ input ∈ inputs, input.addFails = false) → s.reminders.enabled = true →
        s.reminders.pending.isSome) := by
  have hfresh : ShowsTime installed :=
    ⟨⟨fun _ => rfl, fun _ hnone => by cases hnone⟩, fun _ hnone => (by cases hnone),
      fun _ hnone => by cases hnone⟩
  have hend : ShowsTime s :=
    Transition.Reachable.invariant (fun _ _ _ h hs => showsTime_step h hs) ⟨inputs, hs⟩ hfresh
  constructor
  · intro screen hscreen
    refine ⟨hend.label screen hscreen, hend.consistent.off, fun date hdate => ?_⟩
    have hstored := hend.consistent.time date hdate
    exact Option.some.inj (hstored.symm.trans (hend.label screen hscreen))
  · intro haccepted
    have hscheduled : Reminders.Scheduled s.reminders :=
      Transition.run_invariant (I := fun s => Reminders.Scheduled s.reminders)
        (fun _ _ _ h hinput hs => scheduled_step h hinput hs) (fun hon => by cases hon)
        (Transition.along_of_forall haccepted installed) hs
    exact hscheduled

/-- Reminders are switched on, the time is changed, and the picker hidden. -/
def changedTime : List SettingsInput :=
  [.reminders .launch, .viewDidLoad 5, .reminders (.reminderSwitcherChanged true),
    .reminderTimeLabelDidTap, .animationCompleted, .datePickerChangedValue 9,
    .hideDatePickerGesture, .reminders .applicationDidBecomeActive, .animationCompleted].map
      fun event => ⟨event, 13, false⟩

theorem label_tells_reminder_changedTime :
    ∃ s, Transition.run step installed changedTime = some s ∧
      s.screen = some ⟨9, 9, false, none⟩ ∧ s.reminders.storedTime = some 9 ∧
        s.reminders.pending.isSome := by
  have hrun : (Transition.run step installed changedTime).isSome := by decide
  obtain ⟨s, hs⟩ := Option.isSome_iff_exists.mp hrun
  have hscreen : s.screen = some ⟨9, 9, false, none⟩ ∧ s.reminders.enabled = true := by
    rw [← Option.some.inj hs]
    decide
  obtain ⟨hlabel, hpending⟩ := label_tells_reminder hs
  exact ⟨s, hs, hscreen.1, (hlabel _ hscreen.1).1, hpending (by decide) hscreen.2⟩

end SettingsScreen

end Proverbs
