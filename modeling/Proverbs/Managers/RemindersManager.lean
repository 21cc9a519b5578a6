import Proverbs.Core.Transition
import Proverbs.Models.Proverb

/-! # RemindersManager

The stored choice, the daily reminder it schedules, and what the notification center
has been asked. The settings screen and the app delegate are here as far as they write
to it. An answer of the system is fixed first; its closure runs on the main thread
later.
-/

namespace Proverbs

inductive AuthorizationStatus where
  | notDetermined
  | denied
  | authorized
  | provisional
deriving DecidableEq, Repr

/-- The closures handed to `checkNotificationsSettings`, named by where they stand. -/
inductive SettingsClosure where
  | checkIfUserChangedSettings
  | waitAndCheckNotifications
  | setupViews
  | reminderSwitcherChanged
deriving DecidableEq, Repr

structure SettingsCheck where
  closure : SettingsClosure
  status : Option AuthorizationStatus
deriving DecidableEq, Repr

structure Reminders where
  storedTime : Option Date
  enabled : Bool
  /-- The time of the daily reminder, if its request is pending. -/
  pending : Option Date
  authorizationStatus : AuthorizationStatus
  checks : List SettingsCheck
  /-- The calls of `requestAuthorization` under way, with their results once given. -/
  permissions : List (Option Bool)
  /-- The delay of `waitAndCheckNotifications` has not passed yet. -/
  waits : Bool
  switcherIsOn : Bool
deriving DecidableEq, Repr

namespace Reminders

def installed : Reminders where
  storedTime := none
  enabled := false
  pending := none
  authorizationStatus := .notDetermined
  checks := []
  permissions := []
  waits := false
  switcherIsOn := false

/-! ## RemindersManager -/

/-- The getter of `reminderTime`, which stores the default it hands out. -/
def reminderTime (s : Reminders) (defaultTime : Date) : Reminders × Date :=
  match s.storedTime with
  | some date => (s, date)
  | none => ({ s with storedTime := some defaultTime }, defaultTime)

theorem reminderTime_of_stored {s : Reminders} {date : Date} (h : s.storedTime = some date)
    (defaultTime : Date) : s.reminderTime defaultTime = (s, date) := by
  rw [reminderTime, h]

theorem enabled_reminderTime (s : Reminders) (defaultTime : Date) :
    (s.reminderTime defaultTime).1.enabled = s.enabled ∧
      (s.reminderTime defaultTime).1.pending = s.pending := by
  unfold reminderTime
  split <;> exact ⟨rfl, rfl⟩

/-- `notifications(schedule:)`; a request that cannot be added is only logged. -/
def notifications (s : Reminders) (schedule : Bool) (defaultTime : Date) (addFails : Bool) :
    Reminders :=
  let s := { s with pending := none }
  if schedule then
    let (s, date) := s.reminderTime defaultTime
    if addFails then s else { s with pending := some date }
  else s

def setReminderTime (s : Reminders) (newValue : Date) (defaultTime : Date) (addFails : Bool) :
    Reminders :=
  { s with storedTime := some newValue }.notifications s.enabled defaultTime addFails

def updateRemindersSwitcher (s : Reminders) : Reminders := { s with switcherIsOn := s.enabled }

/-- The setter of `enabled`; the settings screen observes the notification it posts. -/
def setEnabled (s : Reminders) (newValue : Bool) (defaultTime : Date) (addFails : Bool) :
    Reminders :=
  if s.enabled != newValue then
    ({ s with enabled := newValue }.notifications newValue defaultTime
      addFails).updateRemindersSwitcher
  else s

def checkNotificationsSettings (s : Reminders) (closure : SettingsClosure) : Reminders :=
  { s with checks := s.checks ++ [⟨closure, none⟩] }

def registerNotifications (s : Reminders) : Reminders :=
  { s with permissions := s.permissions ++ [none] }

def settingsChecked (s : Reminders) (closure : SettingsClosure) (status : AuthorizationStatus)
    (defaultTime : Date) (addFails : Bool) : Reminders :=
  match closure with
  | .checkIfUserChangedSettings =>
      if status = .authorized ∧ !s.enabled then s.setEnabled true defaultTime addFails
      else if status = .denied ∧ s.enabled then s.setEnabled false defaultTime addFails
      else s
  | .waitAndCheckNotifications =>
      if status = .notDetermined then s.registerNotifications else s
  | .setupViews =>
      if status = .notDetermined then s.registerNotifications else s.updateRemindersSwitcher
  | .reminderSwitcherChanged =>
      if status = .denied then { s with switcherIsOn := false } else s

/-! ## The settings screen -/

/-- The user has moved the switch. The check only concerns the switch: the choice is
stored before it is answered. -/
def reminderSwitcherChanged (s : Reminders) (isOn : Bool) (defaultTime : Date)
    (addFails : Bool) : Reminders :=
  let s := { s with switcherIsOn := isOn }
  let s := if s.switcherIsOn then s.checkNotificationsSettings .reminderSwitcherChanged else s
  s.setEnabled s.switcherIsOn defaultTime addFails

/-! ## The system -/

/-- What `requestAuthorization` reports: the user is only asked once. -/
def permission (s : Reminders) (granted : Bool) : Bool :=
  match s.authorizationStatus with
  | .notDetermined => granted
  | .denied => false
  | .authorized | .provisional => true

def answerPermission (s : Reminders) (index : Nat) (granted : Bool) : Reminders :=
  match s.permissions[index]? with
  | some none =>
      { s with
        permissions := s.permissions.set index (some (s.permission granted))
        authorizationStatus :=
          if s.authorizationStatus = .notDetermined then
            if granted then .authorized else .denied
          else s.authorizationStatus }
  | _ => s

def answerCheck (s : Reminders) (index : Nat) : Reminders :=
  match s.checks[index]? with
  | some ⟨closure, none⟩ =>
      { s with checks := s.checks.set index ⟨closure, some s.authorizationStatus⟩ }
  | _ => s

def deliverPermission (s : Reminders) (index : Nat) (defaultTime : Date) (addFails : Bool) :
    Reminders :=
  match s.permissions[index]? with
  | some (some result) =>
      { s with permissions := s.permissions.eraseIdx index }.setEnabled result defaultTime addFails
  | _ => s

def deliverCheck (s : Reminders) (index : Nat) (defaultTime : Date) (addFails : Bool) :
    Reminders :=
  match s.checks[index]? with
  | some ⟨closure, some status⟩ =>
      { s with checks := s.checks.eraseIdx index }.settingsChecked closure status defaultTime
        addFails
  | _ => s

inductive Event where
  | launch
  | waited
  | applicationDidBecomeActive
  | setupViews
  | reminderSwitcherChanged (isOn : Bool)
  | datePickerChangedValue (date : Date)
  | hideDatePicker (date : Date)
  | systemSettings (status : AuthorizationStatus)
  | answerPermission (index : Nat) (granted : Bool)
  | answerCheck (index : Nat)
  | deliverPermission (index : Nat)
  | deliverCheck (index : Nat)
deriving DecidableEq, Repr

/-- An event, with `defaultTime()` at that moment and whether a request is refused. -/
structure Input where
  event : Event
  defaultTime : Date
  addFails : Bool
deriving DecidableEq, Repr

def step (s : Reminders) (input : Input) : Option Reminders :=
  match input.event with
  | .launch => some { s with checks := [], permissions := [], waits := true, switcherIsOn := false }
  | .waited =>
      if s.waits then
        some ({ s with waits := false }.checkNotificationsSettings .waitAndCheckNotifications)
      else some s
  | .applicationDidBecomeActive =>
      some (s.checkNotificationsSettings .checkIfUserChangedSettings)
  | .setupViews =>
      some ((s.reminderTime input.defaultTime).1.checkNotificationsSettings .setupViews)
  | .reminderSwitcherChanged isOn =>
      some (s.reminderSwitcherChanged isOn input.defaultTime input.addFails)
  | .datePickerChangedValue date | .hideDatePicker date =>
      some (s.setReminderTime date input.defaultTime input.addFails)
  | .systemSettings status => some { s with authorizationStatus := status }
  | .answerPermission index granted => some (s.answerPermission index granted)
  | .answerCheck index => some (s.answerCheck index)
  | .deliverPermission index =>
      some (s.deliverPermission index input.defaultTime input.addFails)
  | .deliverCheck index => some (s.deliverCheck index input.defaultTime input.addFails)

end Reminders

end Proverbs
