import Proverbs.Core.Transition
import Proverbs.Models.Proverb

/-! # ShareToUnlock

Sharing on enough days unlocks the list of all proverbs. The time comes from the
network in a callback, which compares the stored date with the present day of the
device's clock and with the network's time. The days of the counted shares are
therefore distinct as long as the device shows the day of the last one whenever the
network is still on it.
-/

namespace Proverbs

/-- The calendar days of a time zone; they do not run backwards. -/
structure TimeZone where
  day : Date → Int
  day_le : ∀ earlier later, earlier ≤ later → day earlier ≤ day later

/-- What `fetchIfNeeded` reports; on success `referenceTime.now()` is read at once. -/
inductive ReferenceTimeResult where
  | success (now : Date)
  | failure
deriving DecidableEq, Repr

inductive ShareOutput where
  | didUnlock
  | completed (request : Nat) (result : Bool)
deriving DecidableEq, Repr

structure ShareToUnlock where
  isUnlocked : Bool
  currentShareCount : Nat
  lastShareDate : Option Date
  fetches : List Nat
  nextRequest : Nat
  outputs : List ShareOutput
deriving DecidableEq, Repr

inductive ShareEvent where
  | launch
  | checkAndChangeCounter
  | fetched (request : Nat) (result : ReferenceTimeResult) (deviceDate : Date)
deriving DecidableEq, Repr

namespace ShareToUnlock

def requiredShareDays : Nat := 5

def daysLeftToUnlock (s : ShareToUnlock) : Int := requiredShareDays - s.currentShareCount

def output (s : ShareToUnlock) (o : ShareOutput) : ShareToUnlock :=
  { s with outputs := s.outputs ++ [o] }

def setUnlocked (s : ShareToUnlock) (newValue : Bool) : ShareToUnlock :=
  let s := { s with isUnlocked := newValue }
  if newValue then s.output .didUnlock else s

def setCurrentShareCount (s : ShareToUnlock) (newValue : Nat) : ShareToUnlock :=
  let s := if requiredShareDays ≤ newValue && !s.isUnlocked then s.setUnlocked true else s
  { s with currentShareCount := newValue }

def updateLastShareDate (s : ShareToUnlock) (currentDate : Date) : ShareToUnlock :=
  { s with lastShareDate := some currentDate }.setCurrentShareCount (s.currentShareCount + 1)

/-- DateTools' `isToday`, with the device's clock at `deviceDate`. -/
def isToday (zone : TimeZone) (deviceDate date : Date) : Bool :=
  decide (zone.day date = zone.day deviceDate)

def isLater (date than : Date) : Bool := decide (than < date)

/-- The closure handed to `getCurrentDate`. -/
def currentDateObtained (zone : TimeZone) (s : ShareToUnlock) (request : Nat)
    (currentDate deviceDate : Date) : ShareToUnlock :=
  match s.lastShareDate with
  | none => (s.updateLastShareDate currentDate).output (.completed request true)
  | some lastShareDate =>
      let result := !isToday zone deviceDate lastShareDate && isLater currentDate lastShareDate
      (if result then s.updateLastShareDate currentDate else s).output (.completed request result)

def checkAndChangeCounter (s : ShareToUnlock) : ShareToUnlock :=
  let request := s.nextRequest
  let s := { s with nextRequest := request + 1 }
  if s.isUnlocked then s.output (.completed request false)
  else { s with fetches := s.fetches ++ [request] }

/-- The closure of `getCurrentDate`; without the network's time it takes `Date()`. -/
def referenceTimeFetched (zone : TimeZone) (s : ShareToUnlock) (request : Nat)
    (result : ReferenceTimeResult) (deviceDate : Date) : ShareToUnlock :=
  if request ∈ s.fetches then
    let s := { s with fetches := s.fetches.erase request }
    match result with
    | .success now => s.currentDateObtained zone request now deviceDate
    | .failure => s.currentDateObtained zone request deviceDate deviceDate
  else s

def handle (zone : TimeZone) (s : ShareToUnlock) : ShareEvent → ShareToUnlock
  | .launch => { s with fetches := [] }
  | .checkAndChangeCounter => s.checkAndChangeCounter
  | .fetched request result deviceDate => s.referenceTimeFetched zone request result deviceDate

def step (zone : TimeZone) (s : ShareToUnlock) (event : ShareEvent) : Option ShareToUnlock :=
  some (s.handle zone event)

def installed : ShareToUnlock := ⟨false, 0, none, [], 0, []⟩

/-! ## The days that are counted -/

def networkTime : ShareEvent → Option Date
  | .fetched _ (.success now) _ => some now
  | _ => none

/-- The network's day of every event that increases the count. -/
def countedDays (zone : TimeZone) : ShareToUnlock → List ShareEvent → List Int
  | _, [] => []
  | s, event :: events =>
      let s' := s.handle zone event
      (if s.currentShareCount < s'.currentShareCount then
        ((networkTime event).map zone.day).toList else []) ++ countedDays zone s' events

/-- The network's time is obtained whenever it is asked for. -/
def Obtained : ShareEvent → Prop
  | .fetched _ .failure _ => False
  | _ => True

/-- While the network is on the day of the last counted share, and past that share,
the device's clock shows that day too. -/
def ShowsShareDay (zone : TimeZone) (s : ShareToUnlock) (event : ShareEvent) : Prop :=
  match event with
  | .fetched request (.success now) deviceDate =>
      request ∈ s.fetches → ∀ lastShareDate, s.lastShareDate = some lastShareDate →
        lastShareDate < now → zone.day now = zone.day lastShareDate →
          zone.day deviceDate = zone.day lastShareDate
  | _ => True

/-! ## One event -/

section Event

variable {zone : TimeZone} {s : ShareToUnlock}

@[simp] theorem lastShareDate_updateLastShareDate (currentDate : Date) :
    (s.updateLastShareDate currentDate).lastShareDate = some currentDate := by
  simp only [updateLastShareDate, setCurrentShareCount]
  split
  · rfl
  · rfl

@[simp] theorem currentShareCount_updateLastShareDate (currentDate : Date) :
    (s.updateLastShareDate currentDate).currentShareCount = s.currentShareCount + 1 := rfl

@[simp] theorem isUnlocked_updateLastShareDate (currentDate : Date) :
    (s.updateLastShareDate currentDate).isUnlocked =
      (s.isUnlocked || decide (requiredShareDays ≤ s.currentShareCount + 1)) := by
  simp only [updateLastShareDate, setCurrentShareCount]
  cases s.isUnlocked with
  | true => simp
  | false =>
      by_cases hcount : requiredShareDays ≤ s.currentShareCount + 1
      · simp [hcount, setUnlocked, output]
      · simp [hcount]

@[simp] theorem fetches_updateLastShareDate (currentDate : Date) :
    (s.updateLastShareDate currentDate).fetches = s.fetches := by
  simp only [updateLastShareDate, setCurrentShareCount]
  split
  · rfl
  · rfl

/-- The share is the first one, or of a later day than the last one. -/
def IsNewShare (zone : TimeZone) (s : ShareToUnlock) (currentDate deviceDate : Date) : Prop :=
  ∀ lastShareDate, s.lastShareDate = some lastShareDate →
    zone.day lastShareDate ≠ zone.day deviceDate ∧ lastShareDate < currentDate

theorem currentDateObtained_of_new {currentDate deviceDate : Date}
    (h : IsNewShare zone s currentDate deviceDate) (request : Nat) :
    s.currentDateObtained zone request currentDate deviceDate =
      (s.updateLastShareDate currentDate).output (.completed request true) := by
  unfold currentDateObtained
  cases hlast : s.lastShareDate with
  | none => rfl
  | some lastShareDate =>
      obtain ⟨hday, hlater⟩ := h lastShareDate hlast
      simp [isToday, isLater, hday, hlater]

theorem currentDateObtained_of_not_new {currentDate deviceDate : Date}
    (h : ¬ IsNewShare zone s currentDate deviceDate) (request : Nat) :
    s.currentDateObtained zone request currentDate deviceDate =
      s.output (.completed request false) := by
  unfold currentDateObtained
  cases hlast : s.lastShareDate with
  | none =>
      refine absurd (fun lastShareDate hsome => ?_) h
      simp [hlast] at hsome
  | some lastShareDate =>
      have hresult : (!isToday zone deviceDate lastShareDate &&
          isLater currentDate lastShareDate) = false := by
        by_contra htrue
        refine h fun other hother => ?_
        rw [hlast, Option.some.injEq] at hother
        simpa [isToday, isLater, ← hother] using htrue
      simp [hresult]

def obtainedDate (result : ReferenceTimeResult) (deviceDate : Date) : Date :=
  match result with
  | .success now => now
  | .failure => deviceDate

def answered (s : ShareToUnlock) (request : Nat) : ShareToUnlock :=
  { s with fetches := s.fetches.erase request }

theorem handle_fetched {request : Nat} (hpending : request ∈ s.fetches)
    (result : ReferenceTimeResult) (deviceDate : Date) :
    s.handle zone (.fetched request result deviceDate) =
      (s.answered request).currentDateObtained zone request (obtainedDate result deviceDate)
        deviceDate := by
  rw [handle, referenceTimeFetched, if_pos hpending]
  cases result with
  | success now => rfl
  | failure => rfl

/-- What an event does to the count: nothing, or one share is counted at the
network's time. -/
inductive Counting (zone : TimeZone) (s s' : ShareToUnlock) : ShareEvent → Prop where
  | kept (event : ShareEvent) (hcount : s'.currentShareCount = s.currentShareCount)
      (hdate : s'.lastShareDate = s.lastShareDate)
      (hshows : ShowsShareDay zone s event) : Counting zone s s' event
  | counted (request : Nat) (now deviceDate : Date) (hpending : request ∈ s.fetches)
      (hnew : ∀ lastShareDate, s.lastShareDate = some lastShareDate →
        zone.day lastShareDate ≠ zone.day deviceDate ∧ lastShareDate < now)
      (hcount : s'.currentShareCount = s.currentShareCount + 1)
      (hdate : s'.lastShareDate = some now) :
      Counting zone s s' (.fetched request (.success now) deviceDate)

theorem counting_fetched {request : Nat} (hpending : request ∈ s.fetches) (now deviceDate : Date) :
    Counting zone s (s.handle zone (.fetched request (.success now) deviceDate))
      (.fetched request (.success now) deviceDate) := by
  rw [handle_fetched hpending, obtainedDate]
  by_cases hnew : IsNewShare zone s now deviceDate
  · rw [currentDateObtained_of_new (s := s.answered request) hnew]
    apply Counting.counted request now deviceDate hpending hnew
    · rfl
    · exact lastShareDate_updateLastShareDate now
  · rw [currentDateObtained_of_not_new (s := s.answered request) hnew]
    apply Counting.kept
    · rfl
    · rfl
    · intro _ lastShareDate hlast hlater hsame
      by_contra hday
      refine hnew fun other hother => ?_
      obtain rfl := Option.some.inj (hlast.symm.trans hother)
      exact ⟨Ne.symm hday, hlater⟩

theorem counting_handle (zone : TimeZone) (s : ShareToUnlock) {event : ShareEvent}
    (hobtained : Obtained event) : Counting zone s (s.handle zone event) event := by
  cases event with
  | launch => exact .kept _ rfl rfl trivial
  | checkAndChangeCounter =>
      simp only [handle, checkAndChangeCounter]
      split <;> exact .kept _ rfl rfl trivial
  | fetched request result deviceDate =>
      cases result with
      | failure => exact hobtained.elim
      | success now =>
          by_cases hpending : request ∈ s.fetches
          · exact counting_fetched hpending now deviceDate
          · simp only [handle, referenceTimeFetched, if_neg hpending]
            exact .kept _ rfl rfl fun h => absurd h hpending

/-- Counting a share breaks the guard exactly when it repeats the day of the last one. -/
theorem showsShareDay_iff {request : Nat} {now deviceDate : Date} (hpending : request ∈ s.fetches)
    (hnew : ∀ lastShareDate, s.lastShareDate = some lastShareDate →
      zone.day lastShareDate ≠ zone.day deviceDate ∧ lastShareDate < now) :
    ShowsShareDay zone s (.fetched request (.success now) deviceDate) ↔
      ∀ lastShareDate, s.lastShareDate = some lastShareDate →
        zone.day lastShareDate ≠ zone.day now := by
  constructor
  · intro hshows lastShareDate hlast hsame
    obtain ⟨hother, hlater⟩ := hnew lastShareDate hlast
    exact hother (hshows hpending lastShareDate hlast hlater hsame.symm).symm
  · intro hdays _ lastShareDate hlast _ hsame
    exact absurd hsame.symm (hdays lastShareDate hlast)

end Event

/-! ## Runs -/

section Runs

variable {zone : TimeZone} {s : ShareToUnlock} {event : ShareEvent} {events : List ShareEvent}

theorem countedDays_cons_of_kept
    (hcount : (s.handle zone event).currentShareCount = s.currentShareCount) :
    countedDays zone s (event :: events) = countedDays zone (s.handle zone event) events := by
  simp [countedDays, hcount]

theorem countedDays_cons_of_counted {request : Nat} {now deviceDate : Date}
    (hcount : (s.handle zone (.fetched request (.success now) deviceDate)).currentShareCount =
      s.currentShareCount + 1) :
    countedDays zone s (.fetched request (.success now) deviceDate :: events) =
      zone.day now ::
        countedDays zone (s.handle zone (.fetched request (.success now) deviceDate)) events := by
  simp [countedDays, hcount, networkTime]

theorem mem_networkTimes_cons {now : Date} {event : ShareEvent}
    (h : now ∈ events.filterMap networkTime) : now ∈ (event :: events).filterMap networkTime := by
  rw [List.filterMap_cons]
  split
  · exact h
  · exact List.mem_cons_of_mem _ h

theorem mem_countedDays {day : Int} (h : day ∈ countedDays zone s events) :
    ∃ now ∈ events.filterMap networkTime, day = zone.day now := by
  induction events generalizing s with
  | nil => simp [countedDays] at h
  | cons event events ih =>
      rw [countedDays, List.mem_append] at h
      rcases h with h | h
      · split at h
        · simp only [Option.mem_toList, Option.map_eq_some_iff] at h
          obtain ⟨now, hnow, rfl⟩ := h
          exact ⟨now, List.mem_filterMap.mpr ⟨event, List.mem_cons_self, hnow⟩, rfl⟩
        · simp at h
      · obtain ⟨now, hnow, rfl⟩ := ih h
        exact ⟨now, mem_networkTimes_cons hnow, rfl⟩

/-- With an earlier day in front the days stay distinct exactly if it is neither among them
nor the day of the last share. -/
theorem nodup_cons_after {last : Option Date} {day : Int} {days : List Int}
    (hlate : ∀ later ∈ days, day ≤ later)
    (hbefore : ∀ date, last = some date → zone.day date ≤ day) :
    ((day :: days).Nodup ∧ ∀ date, last = some date → zone.day date ∉ day :: days) ↔
      (∀ date, last = some date → zone.day date ≠ day) ∧ days.Nodup ∧ day ∉ days := by
  constructor
  · rintro ⟨hnodup, hlast⟩
    obtain ⟨hnew, hnodup⟩ := List.nodup_cons.mp hnodup
    exact ⟨fun date h hsame => hlast date h (hsame ▸ List.mem_cons_self), hnodup, hnew⟩
  · rintro ⟨hother, hnodup, hnew⟩
    refine ⟨List.nodup_cons.mpr ⟨hnew, hnodup⟩, fun date h hmem => ?_⟩
    rcases List.mem_cons.mp hmem with hsame | hmem
    · exact hother date h hsame
    · have hafter := hlate _ hmem
      have hnotAfter := hbefore date h
      exact hother date h (by omega)

/-- The days counted from here on are distinct, and none is the day of the last
share, exactly when the device shows that day at every event. -/
theorem nodup_countedDays (zone : TimeZone) (hobtained : ∀ event ∈ events, Obtained event)
    (hordered : (events.filterMap networkTime).Pairwise (· ≤ ·))
    (hpast : ∀ lastShareDate, s.lastShareDate = some lastShareDate →
      ∀ now ∈ events.filterMap networkTime, lastShareDate ≤ now) :
    ((countedDays zone s events).Nodup ∧ ∀ lastShareDate, s.lastShareDate = some lastShareDate →
        zone.day lastShareDate ∉ countedDays zone s events) ↔
      Transition.Along (step zone) (ShowsShareDay zone) s events := by
  induction events generalizing s with
  | nil => simp [countedDays]
  | cons event events ih =>
      have hrest : ∀ event ∈ events, Obtained event := fun event hmem =>
        hobtained event (List.mem_cons_of_mem _ hmem)
      have halong : Transition.Along (step zone) (ShowsShareDay zone) s (event :: events) ↔
          ShowsShareDay zone s event ∧
            Transition.Along (step zone) (ShowsShareDay zone) (s.handle zone event) events := by
        simp [step]
      rw [halong]
      cases counting_handle zone s (hobtained event List.mem_cons_self) with
      | kept _ hcount hdate hshows =>
          have hordered' : (events.filterMap networkTime).Pairwise (· ≤ ·) :=
            hordered.sublist ((List.sublist_cons_self event events).filterMap networkTime)
          have hstep := ih (s := s.handle zone event) hrest hordered' fun last hlast now hnow =>
            hpast last (hdate ▸ hlast) now (mem_networkTimes_cons hnow)
          rw [countedDays_cons_of_kept hcount, ← hstep, hdate]
          exact (and_iff_right hshows).symm
      | counted request now deviceDate hpending hnew hcount hdate =>
          have htimes : (ShareEvent.fetched request (.success now) deviceDate ::
              events).filterMap networkTime = now :: events.filterMap networkTime := rfl
          rw [htimes, List.pairwise_cons] at hordered
          rw [htimes] at hpast
          have hstep := ih hrest hordered.2 fun last hlast later hlater => by
            rw [hdate, Option.some.injEq] at hlast
            exact hlast ▸ hordered.1 later hlater
          rw [countedDays_cons_of_counted hcount, ← hstep, showsShareDay_iff hpending hnew, hdate]
          have hlate : ∀ day ∈ countedDays zone
              (s.handle zone (.fetched request (.success now) deviceDate)) events,
              zone.day now ≤ day := by
            intro day hday
            obtain ⟨later, hlater, rfl⟩ := mem_countedDays hday
            exact zone.day_le now later (hordered.1 later hlater)
          rw [nodup_cons_after hlate fun last hlast =>
            zone.day_le last now (hpast last hlast now List.mem_cons_self)]
          simp only [Option.some.injEq, forall_eq']

theorem currentShareCount_run (hobtained : ∀ event ∈ events, Obtained event) {t : ShareToUnlock}
    (h : Transition.run (step zone) s events = some t) :
    t.currentShareCount = s.currentShareCount + (countedDays zone s events).length := by
  induction events generalizing s with
  | nil =>
      rw [Transition.run_nil, Option.some.injEq] at h
      simp [countedDays, h]
  | cons event events ih =>
      obtain ⟨s', hs, hrun⟩ := Transition.run_cons_eq_some.mp h
      obtain rfl := Option.some.inj hs
      have htail := ih (fun event hmem => hobtained event (List.mem_cons_of_mem _ hmem)) hrun
      cases counting_handle zone s (hobtained event List.mem_cons_self) with
      | kept _ hcount hdate hshows => rw [countedDays_cons_of_kept hcount, htail, hcount]
      | counted request now deviceDate hpending hnew hcount hdate =>
          rw [countedDays_cons_of_counted hcount, htail, hcount, List.length_cons]
          omega

end Runs

/-- On a new device, with a network time that is always obtained and never goes
back: no day of the network is counted twice exactly when the device's clock shows
the day of the last counted share whenever the network is past that share but still
on its day. Every counted share has its own entry in the list of days. -/
theorem counted_once_per_day_iff (zone : TimeZone) {events : List ShareEvent}
    (hobtained : ∀ event ∈ events, Obtained event)
    (hordered : (events.filterMap networkTime).Pairwise (· ≤ ·)) :
    ((countedDays zone installed events).Nodup ↔
        Transition.Along (step zone) (ShowsShareDay zone) installed events) ∧
      ∀ t, Transition.run (step zone) installed events = some t →
        t.currentShareCount = (countedDays zone installed events).length := by
  have hfresh : ∀ lastShareDate, installed.lastShareDate ≠ some lastShareDate := by
    intro lastShareDate h
    simp [installed] at h
  constructor
  · have hrun := nodup_countedDays (s := installed) zone hobtained hordered
      fun last h => absurd h (hfresh last)
    exact (and_iff_left fun last h => absurd h (hfresh last)).symm.trans hrun
  · intro t ht
    have hcount := currentShareCount_run hobtained ht
    rw [hcount]
    exact Nat.zero_add _

def greenwich : TimeZone := ⟨fun date => date / 86400, fun _ _ h => Int.ediv_le_ediv (by decide) h⟩

/-- Two shares on two days, the device's clock with the network's. -/
def twoDays : List ShareEvent :=
  [.checkAndChangeCounter, .fetched 0 (.success 0) 0,
    .checkAndChangeCounter, .fetched 1 (.success 90000) 90000]

theorem counted_once_per_day_twoDays :
    (countedDays greenwich installed twoDays).Nodup ∧
      ∀ t, Transition.run (step greenwich) installed twoDays = some t →
        t.currentShareCount = 2 := by
  have hobtained : ∀ event ∈ twoDays, Obtained event := by simp [twoDays, Obtained]
  have h := counted_once_per_day_iff greenwich hobtained (by decide)
  exact ⟨by decide, h.2⟩

/-- The device's clock runs a day ahead: two shares of one day are counted. -/
theorem clock_ahead_counts_twice :
    ¬ (countedDays greenwich installed
      [.checkAndChangeCounter, .fetched 0 (.success 0) 0,
        .checkAndChangeCounter, .fetched 1 (.success 3600) 90000]).Nodup := by
  decide

end ShareToUnlock

end Proverbs
