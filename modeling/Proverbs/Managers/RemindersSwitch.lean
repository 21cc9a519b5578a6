import Proverbs.Managers.RemindersManager

/-! # Switching reminders off

No reminder is pending while the choice is off, in every reachable state. What ends
this state is the user, or a closure whose answer is already on its way: a check made
for an activation of the app, which takes the system's permission for the user's
choice, or an earlier answer to a permission request.
-/

namespace Proverbs.Reminders

structure Off (s : Reminders) : Prop where
  enabled : s.enabled = false
  pending : s.pending = none

/-- The user switches reminders on, or answers the system's request. -/
def UserDecides (s : Reminders) (input : Input) : Prop :=
  match input.event with
  | .reminderSwitcherChanged isOn => isOn = true
  | .answerPermission index _ =>
      s.permissions[index]? = some none ∧ s.authorizationStatus = .notDetermined
  | _ => False

/-- A closure of `checkIfUserChangedSettings` is run with the status `authorized`, or
one of `registerNotifications` with a permission. -/
def TurnsBackOn (s : Reminders) (input : Input) : Prop :=
  match input.event with
  | .deliverCheck index =>
      s.checks[index]? = some ⟨.checkIfUserChangedSettings, some .authorized⟩
  | .deliverPermission index => s.permissions[index]? = some (some true)
  | _ => False

/-! ## Scheduling -/

/-- A reminder is pending only for an enabled choice, and at the stored time. -/
structure Consistent (s : Reminders) : Prop where
  off : s.enabled = false → s.pending = none
  time : ∀ date, s.pending = some date → s.storedTime = some date

section Scheduling

variable {s t : Reminders} (defaultTime : Date) (addFails : Bool)

theorem Consistent.of_same (h : Consistent s) (henabled : t.enabled = s.enabled)
    (hpending : t.pending = s.pending) (htime : t.storedTime = s.storedTime) : Consistent t := by
  constructor
  · rw [henabled, hpending]
    exact h.off
  · rw [hpending, htime]
    exact h.time

theorem Consistent.reminderTime (h : Consistent s) :
    Consistent (s.reminderTime defaultTime).1 ∧
      (s.reminderTime defaultTime).1.storedTime = some (s.reminderTime defaultTime).2 := by
  cases hstored : s.storedTime with
  | some date =>
      rw [reminderTime_of_stored hstored]
      exact ⟨h, hstored⟩
  | none =>
      rw [Reminders.reminderTime, hstored]
      refine ⟨⟨h.off, fun date hdate => ?_⟩, rfl⟩
      exact absurd (hstored.symm.trans (h.time date hdate)) (by simp)

theorem notifications_enabled (s : Reminders) (schedule : Bool) :
    (s.notifications schedule defaultTime addFails).enabled = s.enabled := by
  simp only [notifications, reminderTime]
  cases schedule with
  | false => rfl
  | true => cases hstored : s.storedTime <;> cases addFails <;> rfl

theorem notifications_false (s : Reminders) :
    s.notifications false defaultTime addFails = { s with pending := none } := rfl

theorem consistent_notifications {schedule : Bool} (h : s.enabled = schedule) :
    Consistent (s.notifications schedule defaultTime addFails) := by
  cases schedule with
  | false =>
      rw [notifications_false]
      exact ⟨fun _ => rfl, fun date hdate => by simp at hdate⟩
  | true =>
      constructor
      · intro hfalse
        rw [notifications_enabled, h] at hfalse
        exact absurd hfalse (by decide)
      · intro date hdate
        simp only [notifications, reminderTime, if_true] at hdate ⊢
        cases hstored : s.storedTime <;> cases addFails <;> simp_all

theorem setEnabled_enabled (s : Reminders) (newValue : Bool) :
    (s.setEnabled newValue defaultTime addFails).enabled = newValue := by
  unfold setEnabled
  split
  · exact notifications_enabled defaultTime addFails _ newValue
  · rename_i hsame
    simpa using hsame

theorem Consistent.setEnabled (h : Consistent s) (newValue : Bool) :
    Consistent (s.setEnabled newValue defaultTime addFails) := by
  unfold Reminders.setEnabled
  split
  · have hscheduled : Consistent ({ s with enabled := newValue }.notifications newValue
        defaultTime addFails) := consistent_notifications defaultTime addFails rfl
    exact hscheduled.of_same rfl rfl rfl
  · exact h

theorem Consistent.settingsChecked (h : Consistent s) (closure : SettingsClosure)
    (status : AuthorizationStatus) :
    Consistent (s.settingsChecked closure status defaultTime addFails) := by
  cases closure with
  | checkIfUserChangedSettings =>
      simp only [Reminders.settingsChecked]
      split
      · exact h.setEnabled defaultTime addFails true
      · split
        · exact h.setEnabled defaultTime addFails false
        · exact h
  | waitAndCheckNotifications =>
      simp only [Reminders.settingsChecked]
      split <;> exact h.of_same rfl rfl rfl
  | setupViews =>
      simp only [Reminders.settingsChecked]
      split <;> exact h.of_same rfl rfl rfl
  | reminderSwitcherChanged =>
      simp only [Reminders.settingsChecked]
      split <;> exact h.of_same rfl rfl rfl

theorem Consistent.reminderSwitcherChanged (h : Consistent s) (isOn : Bool) :
    Consistent (s.reminderSwitcherChanged isOn defaultTime addFails) := by
  cases isOn with
  | false =>
      have hmoved : Consistent { s with switcherIsOn := false } := h.of_same rfl rfl rfl
      exact hmoved.setEnabled defaultTime addFails false
  | true =>
      have hmoved : Consistent ({ s with switcherIsOn := true }.checkNotificationsSettings
          .reminderSwitcherChanged) := h.of_same rfl rfl rfl
      exact hmoved.setEnabled defaultTime addFails true

end Scheduling

theorem consistent_step {s t : Reminders} {input : Input} (h : Consistent s)
    (hs : step s input = some t) : Consistent t := by
  obtain ⟨event, defaultTime, addFails⟩ := input
  cases event with
  | launch | applicationDidBecomeActive | systemSettings =>
      rw [← Option.some.inj hs]
      exact h.of_same rfl rfl rfl
  | setupViews =>
      rw [← Option.some.inj hs]
      exact (h.reminderTime defaultTime).1.of_same rfl rfl rfl
  | waited =>
      simp only [step] at hs
      split at hs
      all_goals
        rw [← Option.some.inj hs]
        exact h.of_same rfl rfl rfl
  | reminderSwitcherChanged isOn =>
      rw [← Option.some.inj hs]
      exact h.reminderSwitcherChanged defaultTime addFails isOn
  | datePickerChangedValue date | hideDatePicker date =>
      rw [← Option.some.inj hs]
      exact consistent_notifications defaultTime addFails rfl
  | answerPermission index granted =>
      rw [← Option.some.inj hs]
      unfold answerPermission
      split <;> exact h.of_same rfl rfl rfl
  | answerCheck index =>
      rw [← Option.some.inj hs]
      unfold answerCheck
      split <;> exact h.of_same rfl rfl rfl
  | deliverPermission index =>
      rw [← Option.some.inj hs]
      unfold deliverPermission
      split
      · have herased : Consistent { s with permissions := s.permissions.eraseIdx index } :=
          h.of_same rfl rfl rfl
        exact herased.setEnabled defaultTime addFails _
      · exact h
  | deliverCheck index =>
      rw [← Option.some.inj hs]
      unfold deliverCheck
      split
      · have herased : Consistent { s with checks := s.checks.eraseIdx index } :=
          h.of_same rfl rfl rfl
        exact herased.settingsChecked defaultTime addFails _ _
      · exact h

/-- In every reachable state: no reminder without the choice, and none at another time. -/
theorem consistent_of_reachable {s : Reminders} (h : Transition.Reachable step installed s) :
    Consistent s := by
  apply h.invariant (I := Consistent)
  · exact fun _ _ _ hs hstep => consistent_step hs hstep
  · exact ⟨fun _ => rfl, fun date hdate => by simp [installed] at hdate⟩

/-! ## While reminders are off -/

section Off

variable {s t : Reminders} {defaultTime : Date} {addFails : Bool}

theorem Off.of_same (h : Off s) (henabled : t.enabled = s.enabled)
    (hpending : t.pending = s.pending) : Off t :=
  ⟨henabled.trans h.enabled, hpending.trans h.pending⟩

theorem Off.setReminderTime (h : Off s) (newValue : Date) :
    Off (s.setReminderTime newValue defaultTime addFails) := by
  unfold Reminders.setReminderTime
  rw [h.enabled, notifications_false]
  exact ⟨rfl, rfl⟩

theorem Off.setEnabled_false (h : Off s) : Off (s.setEnabled false defaultTime addFails) := by
  have hsame : s.setEnabled false defaultTime addFails = s := by
    simp [setEnabled, h.enabled]
  rw [hsame]
  exact h

theorem not_off_setEnabled_true (s : Reminders) :
    ¬ Off (s.setEnabled true defaultTime addFails) := by
  intro hoff
  have hon := setEnabled_enabled defaultTime addFails s true
  rw [hoff.enabled] at hon
  exact absurd hon (by decide)

/-- A check leaves reminders off unless it is the one of an activation that finds the
permission. -/
theorem Off.settingsChecked_iff (h : Off s) (closure : SettingsClosure)
    (status : AuthorizationStatus) :
    Off (s.settingsChecked closure status defaultTime addFails) ↔
      ¬ (closure = .checkIfUserChangedSettings ∧ status = .authorized) := by
  cases closure with
  | checkIfUserChangedSettings =>
      simp only [settingsChecked, h.enabled]
      by_cases hstatus : status = .authorized
      · simpa [hstatus] using not_off_setEnabled_true s
      · simpa [hstatus] using h
  | waitAndCheckNotifications | setupViews | reminderSwitcherChanged =>
      apply iff_of_true
      · simp only [settingsChecked]
        split <;> exact h.of_same rfl rfl
      · simp

theorem Off.deliverPermission_iff (h : Off s) (index : Nat) :
    Off (s.deliverPermission index defaultTime addFails) ↔
      ¬ TurnsBackOn s ⟨.deliverPermission index, defaultTime, addFails⟩ := by
  simp only [TurnsBackOn]
  unfold deliverPermission
  split
  · rename_i result hresult
    rw [hresult, Option.some.injEq, Option.some.injEq]
    cases result with
    | true => exact iff_of_false (not_off_setEnabled_true _) (by simp)
    | false =>
        have herased : Off { s with permissions := s.permissions.eraseIdx index } :=
          h.of_same rfl rfl
        exact iff_of_true herased.setEnabled_false (by simp)
  · rename_i hnone
    exact iff_of_true h (hnone true)

theorem Off.deliverCheck_iff (h : Off s) (index : Nat) :
    Off (s.deliverCheck index defaultTime addFails) ↔
      ¬ TurnsBackOn s ⟨.deliverCheck index, defaultTime, addFails⟩ := by
  simp only [TurnsBackOn]
  unfold deliverCheck
  split
  · rename_i closure status hcheck
    have herased : Off { s with checks := s.checks.eraseIdx index } := h.of_same rfl rfl
    rw [herased.settingsChecked_iff, hcheck]
    simp
  · rename_i hnone
    exact iff_of_true h (hnone .checkIfUserChangedSettings .authorized)

theorem forall_off_iff {input : Input} (h : step s input = some t) :
    (∀ s', step s input = some s' → Off s') ↔ Off t := by
  simp only [h, Option.some.injEq, forall_eq']

/-- The step that ends it, unless the user decides, is one of those closures. -/
theorem Off.step_iff {input : Input} (h : Off s) (huser : ¬ UserDecides s input) :
    (∀ s', step s input = some s' → Off s') ↔ ¬ TurnsBackOn s input := by
  obtain ⟨event, defaultTime, addFails⟩ := input
  cases event with
  | launch | applicationDidBecomeActive | systemSettings =>
      rw [forall_off_iff rfl]
      exact iff_of_true (h.of_same rfl rfl) not_false
  | setupViews =>
      rw [forall_off_iff rfl]
      obtain ⟨henabled, hpending⟩ := enabled_reminderTime s defaultTime
      exact iff_of_true (h.of_same henabled hpending) not_false
  | waited =>
      apply iff_of_true
      · intro s' hs
        simp only [step] at hs
        split at hs
        all_goals
          rw [← Option.some.inj hs]
          exact h.of_same rfl rfl
      · exact not_false
  | reminderSwitcherChanged isOn =>
      rw [forall_off_iff rfl]
      cases isOn with
      | true => exact absurd rfl huser
      | false =>
          have hmoved : Off { s with switcherIsOn := false } := h.of_same rfl rfl
          exact iff_of_true hmoved.setEnabled_false not_false
  | datePickerChangedValue date | hideDatePicker date =>
      rw [forall_off_iff rfl]
      exact iff_of_true (h.setReminderTime date) not_false
  | answerPermission index granted =>
      rw [forall_off_iff rfl]
      apply iff_of_true
      · unfold answerPermission
        split <;> exact h.of_same rfl rfl
      · exact not_false
  | answerCheck index =>
      rw [forall_off_iff rfl]
      apply iff_of_true
      · unfold answerCheck
        split <;> exact h.of_same rfl rfl
      · exact not_false
  | deliverPermission index =>
      rw [forall_off_iff rfl]
      exact h.deliverPermission_iff index
  | deliverCheck index =>
      rw [forall_off_iff rfl]
      exact h.deliverCheck_iff index

end Off

/-- Once the user has switched reminders off they are off. They stay so, as long as the
user neither switches them on nor answers the system's request, if and only if no
activation's check is run that found the permission, and no permission given before. -/
theorem stays_off_iff {s t : Reminders} (hreached : Transition.Reachable step installed s)
    {defaultTime : Date} {addFails : Bool}
    (ht : step s ⟨.reminderSwitcherChanged false, defaultTime, addFails⟩ = some t)
    {inputs : List Input}
    (huser : Transition.Along step (fun s input => ¬ UserDecides s input) t inputs) :
    Off t ∧
      (Transition.Along step (fun s input => ∀ s', step s input = some s' → Off s') t inputs ↔
        Transition.Along step (fun s input => ¬ TurnsBackOn s input) t inputs) := by
  have hoff : Off t := by
    have hconsistent : Consistent t := consistent_step (consistent_of_reachable hreached) ht
    have henabled : t.enabled = false := by
      rw [← Option.some.inj ht]
      exact setEnabled_enabled defaultTime addFails _ false
    exact ⟨henabled, hconsistent.off henabled⟩
  refine ⟨hoff, ?_⟩
  have hboth : Transition.Along step
        (fun s input => (∀ s', step s input = some s' → Off s') ∧ ¬ UserDecides s input) t inputs ↔
      Transition.Along step
        (fun s input => ¬ TurnsBackOn s input ∧ ¬ UserDecides s input) t inputs := by
    apply Transition.along_congr (I := Off)
    · rintro s input _ s' hs ⟨hguard, hdecides⟩ hstep
      exact (hs.step_iff hdecides).mpr hguard s' hstep
    · intro s input _ hs
      exact and_congr_left fun hdecides => hs.step_iff hdecides
    · exact hoff
  constructor
  · intro hstays
    exact (hboth.mp (hstays.and huser)).mono fun _ _ h => h.1
  · intro hguard
    exact (hboth.mpr (hguard.and huser)).mono fun _ _ h => h.1

def permissionGiven : List Input :=
  [.launch, .waited, .answerCheck 0, .deliverCheck 0, .answerPermission 0 true,
    .deliverPermission 0].map fun event => ⟨event, 13, false⟩

theorem stays_off_timeChanged :
    ∃ s t, Transition.run step installed permissionGiven = some s ∧
      step s ⟨.reminderSwitcherChanged false, 13, false⟩ = some t ∧ Off t ∧
      Transition.Along step (fun s input => ∀ s', step s input = some s' → Off s') t
        [⟨.datePickerChangedValue 9, 13, false⟩] := by
  have huser : ∀ t, Transition.Along step (fun s input => ¬ UserDecides s input) t
      [⟨.datePickerChangedValue 9, 13, false⟩] := fun _ => ⟨id, fun _ _ => trivial⟩
  obtain ⟨hoff, hstays⟩ := stays_off_iff ⟨permissionGiven, rfl⟩ rfl (huser _)
  exact ⟨_, _, rfl, rfl, hoff, hstays.mpr ⟨id, fun _ _ => trivial⟩⟩

/-- The app is left and opened again: with the permission still given, the check of the
activation switches reminders back on. -/
theorem activation_turns_reminders_on :
    ¬ ∀ s t, Transition.run step installed permissionGiven = some s →
      step s ⟨.reminderSwitcherChanged false, 13, false⟩ = some t →
      ∀ u, Transition.run step t
          ([.applicationDidBecomeActive, .answerCheck 0, .deliverCheck 0].map
            fun event => ⟨event, 13, false⟩) = some u → Off u := by
  intro h
  have hoff := h _ _ rfl rfl _ rfl
  exact absurd hoff.enabled (by decide)

end Proverbs.Reminders
