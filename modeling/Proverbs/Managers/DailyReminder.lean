import Proverbs.Core.KeyedStore
import Proverbs.Managers.RemindersManager

/-! # The daily reminder

The settings of the manager with the requests the notification center holds for them.
Both setters schedule again, the one of `enabled` only when the value changes; the getter
of the time stores a default. The machine of the reminders keeps the pending request as
the time it is for.
-/

namespace Proverbs

structure DateComponents where
  hour : Nat
  minute : Nat
  second : Nat
deriving DecidableEq, Repr

structure NotificationRequest where
  identifier : String
  title : String
  body : String
  dateMatching : DateComponents
  repeats : Bool
deriving DecidableEq, Repr

structure RemindersManager where
  storedTime : Option Date
  enabled : Bool
  /-- The notification center holds one request for an identifier. -/
  pendingRequests : KeyedStore NotificationRequest.identifier

namespace RemindersManager

/-- The request for a time; `dateComponents` is that of `Calendar.current`. -/
def dailyReminder (dateComponents : Date → DateComponents) (date : Date) : NotificationRequest where
  identifier := "RemindersManager.DailyReminder"
  title := "It's time!"
  body := "Check proverb of the day!"
  dateMatching := dateComponents date
  repeats := true

/-! ## The properties -/

def reminderTime (s : RemindersManager) (defaultTime : Date) : RemindersManager × Date :=
  match s.storedTime with
  | some date => (s, date)
  | none => ({ s with storedTime := some defaultTime }, defaultTime)

/-- `notifications(schedule:)`, with a center that accepts every request. -/
def notifications (dateComponents : Date → DateComponents) (s : RemindersManager)
    (schedule : Bool) (defaultTime : Date) : RemindersManager :=
  let s := { s with pendingRequests := KeyedStore.empty }
  if schedule then
    let (s, date) := s.reminderTime defaultTime
    { s with pendingRequests := s.pendingRequests.put (dailyReminder dateComponents date) }
  else s

def setReminderTime (dateComponents : Date → DateComponents) (s : RemindersManager)
    (newValue defaultTime : Date) : RemindersManager :=
  { s with storedTime := some newValue }.notifications dateComponents s.enabled defaultTime

def setEnabled (dateComponents : Date → DateComponents) (s : RemindersManager)
    (newValue : Bool) (defaultTime : Date) : RemindersManager :=
  if s.enabled != newValue then
    { s with enabled := newValue }.notifications dateComponents newValue defaultTime
  else s

inductive Operation where
  | readReminderTime
  | writeReminderTime (newValue : Date)
  | writeEnabled (newValue : Bool)
deriving DecidableEq, Repr

/-- An operation, with `defaultTime()` at that moment. -/
structure Access where
  operation : Operation
  defaultTime : Date
deriving DecidableEq, Repr

def step (dateComponents : Date → DateComponents) (s : RemindersManager) (access : Access) :
    Option RemindersManager :=
  match access.operation with
  | .readReminderTime => some (s.reminderTime access.defaultTime).1
  | .writeReminderTime newValue =>
      some (s.setReminderTime dateComponents newValue access.defaultTime)
  | .writeEnabled newValue => some (s.setEnabled dateComponents newValue access.defaultTime)

def installed : RemindersManager := ⟨none, false, KeyedStore.empty⟩

/-! ## What is pending -/

/-- One request at the stored time while reminders are enabled, and none otherwise. -/
structure FollowsSettings (dateComponents : Date → DateComponents) (s : RemindersManager) :
    Prop where
  on : s.enabled = true → ∃ date, s.storedTime = some date ∧
    s.pendingRequests.entries = [dailyReminder dateComponents date]
  off : s.enabled = false → s.pendingRequests.entries = []

section Steps

variable {dateComponents : Date → DateComponents} {s t : RemindersManager}

theorem enabled_reminderTime (s : RemindersManager) (defaultTime : Date) :
    (s.reminderTime defaultTime).1.enabled = s.enabled := by
  unfold reminderTime
  split <;> rfl

/-- The getter hands out what it stores, and leaves the center alone. -/
theorem storedTime_reminderTime (s : RemindersManager) (defaultTime : Date) :
    (s.reminderTime defaultTime).1.storedTime = some (s.reminderTime defaultTime).2 := by
  unfold reminderTime
  cases hstored : s.storedTime with
  | none => rfl
  | some date => exact hstored

theorem pendingRequests_reminderTime (s : RemindersManager) (defaultTime : Date) :
    (s.reminderTime defaultTime).1.pendingRequests = s.pendingRequests := by
  unfold reminderTime
  split <;> rfl

/-- Scheduling by the stored choice makes the center follow it, whatever it held. -/
theorem followsSettings_notifications {schedule : Bool} (h : s.enabled = schedule)
    (defaultTime : Date) :
    FollowsSettings dateComponents (s.notifications dateComponents schedule defaultTime) := by
  cases schedule with
  | false =>
      constructor
      · intro htrue
        exact absurd (h.symm.trans htrue) (by decide)
      · intro _
        rfl
  | true =>
      let cleared : RemindersManager := { s with pendingRequests := KeyedStore.empty }
      have hcleared : (cleared.reminderTime defaultTime).1.pendingRequests = KeyedStore.empty :=
        pendingRequests_reminderTime cleared defaultTime
      have henabled : (cleared.reminderTime defaultTime).1.enabled = true :=
        (enabled_reminderTime cleared defaultTime).trans h
      constructor
      · intro _
        refine ⟨(cleared.reminderTime defaultTime).2,
          storedTime_reminderTime cleared defaultTime, ?_⟩
        show ((cleared.reminderTime defaultTime).1.pendingRequests.put _).entries = _
        rw [hcleared]
        rfl
      · intro hfalse
        exact absurd (henabled.symm.trans hfalse) (by decide)

theorem followsSettings_step (h : FollowsSettings dateComponents s) {access : Access}
    (hs : step dateComponents s access = some t) : FollowsSettings dateComponents t := by
  obtain ⟨operation, defaultTime⟩ := access
  cases operation with
  | readReminderTime =>
      obtain rfl := Option.some.inj hs
      constructor
      · intro henabled
        rw [enabled_reminderTime] at henabled
        obtain ⟨date, hstored, hpending⟩ := h.on henabled
        have hsame : (s.reminderTime defaultTime).1 = s := by
          rw [reminderTime, hstored]
        rw [hsame]
        exact ⟨date, hstored, hpending⟩
      · intro henabled
        rw [enabled_reminderTime] at henabled
        rw [pendingRequests_reminderTime]
        exact h.off henabled
  | writeReminderTime newValue =>
      obtain rfl := Option.some.inj hs
      exact followsSettings_notifications rfl defaultTime
  | writeEnabled newValue =>
      obtain rfl := Option.some.inj hs
      unfold setEnabled
      split
      · exact followsSettings_notifications rfl defaultTime
      · exact h

theorem followsSettings_installed (dateComponents : Date → DateComponents) :
    FollowsSettings dateComponents installed :=
  ⟨fun h => absurd h (by decide), fun _ => rfl⟩

end Steps

/-- After every operation from fresh defaults on, the center holds one request at the stored
time or none, as the choice says, and reading the time leaves it as it was. -/
theorem pending_follows_settings (dateComponents : Date → DateComponents)
    (accesses : List Access) :
    Transition.Along (step dateComponents)
      (fun s access => ∀ t, step dateComponents s access = some t →
        FollowsSettings dateComponents t ∧
          (access.operation = .readReminderTime → t.pendingRequests = s.pendingRequests))
      installed accesses := by
  apply Transition.along_of_invariant (I := FollowsSettings dateComponents) (G := fun _ _ => True)
  · intro s access t h _ hs
    exact followsSettings_step h hs
  · intro s access h _ t hs
    refine ⟨followsSettings_step h hs, fun hread => ?_⟩
    simp only [step, hread, Option.some.injEq] at hs
    rw [← hs]
    exact pendingRequests_reminderTime s access.defaultTime
  · exact followsSettings_installed dateComponents
  · exact Transition.along_of_forall (fun _ _ => trivial) installed

/-! ## The machine of the reminders -/

/-- What the state of the machine says about the manager. -/
def ofReminders (dateComponents : Date → DateComponents) (s : Reminders) : RemindersManager where
  storedTime := s.storedTime
  enabled := s.enabled
  pendingRequests :=
    (s.pending.map fun date => KeyedStore.empty.put (dailyReminder dateComponents date)).getD
      KeyedStore.empty

section Refinement

variable (dateComponents : Date → DateComponents) (s : Reminders) (defaultTime : Date)

theorem ofReminders_reminderTime :
    ofReminders dateComponents (s.reminderTime defaultTime).1 =
      ((ofReminders dateComponents s).reminderTime defaultTime).1 := by
  cases hstored : s.storedTime with
  | none => simp [Reminders.reminderTime, reminderTime, ofReminders, hstored]
  | some date => simp [Reminders.reminderTime, reminderTime, ofReminders, hstored]

theorem ofReminders_notifications (schedule : Bool) :
    ofReminders dateComponents (s.notifications schedule defaultTime false) =
      (ofReminders dateComponents s).notifications dateComponents schedule defaultTime := by
  cases schedule with
  | false => rfl
  | true =>
      cases hstored : s.storedTime with
      | none =>
          simp [Reminders.notifications, notifications, Reminders.reminderTime, reminderTime,
            ofReminders, hstored]
      | some date =>
          simp [Reminders.notifications, notifications, Reminders.reminderTime, reminderTime,
            ofReminders, hstored]

theorem ofReminders_setReminderTime (newValue : Date) :
    ofReminders dateComponents (s.setReminderTime newValue defaultTime false) =
      (ofReminders dateComponents s).setReminderTime dateComponents newValue defaultTime :=
  ofReminders_notifications dateComponents { s with storedTime := some newValue } defaultTime
    s.enabled

theorem ofReminders_setEnabled (newValue : Bool) :
    ofReminders dateComponents (s.setEnabled newValue defaultTime false) =
      (ofReminders dateComponents s).setEnabled dateComponents newValue defaultTime := by
  unfold Reminders.setEnabled setEnabled
  by_cases hchanged : (s.enabled != newValue) = true
  · have hchanged' : ((ofReminders dateComponents s).enabled != newValue) = true := hchanged
    rw [if_pos hchanged, if_pos hchanged']
    exact ofReminders_notifications dateComponents { s with enabled := newValue } defaultTime
      newValue
  · have hchanged' : ¬ ((ofReminders dateComponents s).enabled != newValue) = true := hchanged
    rw [if_neg hchanged, if_neg hchanged']

end Refinement

end RemindersManager

end Proverbs
