import Proverbs.Managers.ShareToUnlock

/-! # Shares that overlap

Whether the list is unlocked is asked when `checkAndChangeCounter` is called, and the
count is raised in the callback, which does not ask again. A callback that arrives after
the list has been unlocked, on a later day than the last counted share, counts a sixth day.
-/

namespace Proverbs.ShareToUnlock

def Sound (s : ShareToUnlock) : Prop :=
  0 ≤ s.daysLeftToUnlock ∧ s.daysLeftToUnlock ≤ 5 ∧
    (s.isUnlocked = true ↔ s.currentShareCount = 5)

instance (s : ShareToUnlock) : Decidable s.Sound :=
  inferInstanceAs (Decidable (_ ∧ _ ∧ _))

/-- A callback that finds the list unlocked arrives on the day of the last counted share,
or not after it. -/
def AddsNothingUnlocked (zone : TimeZone) (s : ShareToUnlock) (event : ShareEvent) : Prop :=
  match event with
  | .fetched request result deviceDate =>
      request ∈ s.fetches → s.isUnlocked = true →
        ∃ lastShareDate, s.lastShareDate = some lastShareDate ∧
          (zone.day lastShareDate = zone.day deviceDate ∨
            obtainedDate result deviceDate ≤ lastShareDate)
  | _ => True

/-- The invariant: a sound state in which a counted share has a date. -/
structure CountedSoFar (s : ShareToUnlock) : Prop where
  sound : s.Sound
  dated : s.lastShareDate = none → s.currentShareCount = 0

section Event

variable {zone : TimeZone} {s : ShareToUnlock}

theorem sound_iff :
    s.Sound ↔ s.currentShareCount ≤ 5 ∧ (s.isUnlocked = true ↔ s.currentShareCount = 5) := by
  unfold Sound daysLeftToUnlock requiredShareDays
  constructor
  · rintro ⟨hlower, _, hunlocked⟩
    exact ⟨by omega, hunlocked⟩
  · rintro ⟨hcount, hunlocked⟩
    exact ⟨by omega, by omega, hunlocked⟩

theorem isNewShare_iff {currentDate deviceDate : Date} :
    IsNewShare zone s currentDate deviceDate ↔
      ¬ ∃ lastShareDate, s.lastShareDate = some lastShareDate ∧
        (zone.day lastShareDate = zone.day deviceDate ∨ currentDate ≤ lastShareDate) := by
  simp [IsNewShare, not_or]

/-- A further share keeps a sound state sound exactly while the list is locked. -/
theorem sound_updateLastShareDate_iff (h : s.Sound) (currentDate : Date) :
    (s.updateLastShareDate currentDate).Sound ↔ s.isUnlocked = false := by
  rw [sound_iff] at h ⊢
  obtain ⟨hcount, hunlocked⟩ := h
  rw [currentShareCount_updateLastShareDate, isUnlocked_updateLastShareDate]
  cases hlocked : s.isUnlocked with
  | true =>
      have hfull := hunlocked.mp hlocked
      simp [hfull]
  | false =>
      have hopen : s.currentShareCount ≠ 5 := by
        intro hfull
        exact absurd (hlocked.symm.trans (hunlocked.mpr hfull)) (by simp)
      have hdecide : (false || decide (requiredShareDays ≤ s.currentShareCount + 1)) = true ↔
          5 ≤ s.currentShareCount + 1 := by
        rw [Bool.false_or, decide_eq_true_iff]
        rfl
      rw [hdecide]
      exact iff_of_true ⟨by omega, by omega⟩ rfl

/-- A callback does nothing to the stored values unless the share is new. -/
theorem sound_fetched_iff (h : CountedSoFar s) {request : Nat} (hpending : request ∈ s.fetches)
    (result : ReferenceTimeResult) (deviceDate : Date) :
    (s.handle zone (.fetched request result deviceDate)).Sound ↔
      AddsNothingUnlocked zone s (.fetched request result deviceDate) := by
  have hguard : AddsNothingUnlocked zone s (.fetched request result deviceDate) ↔
      (s.isUnlocked = true → ¬ IsNewShare zone s (obtainedDate result deviceDate) deviceDate) := by
    rw [isNewShare_iff, not_not]
    exact forall_prop_of_true hpending
  rw [hguard, handle_fetched hpending]
  by_cases hnew : IsNewShare zone s (obtainedDate result deviceDate) deviceDate
  · rw [currentDateObtained_of_new (s := s.answered request) hnew]
    have hsound : ((s.answered request).updateLastShareDate
        (obtainedDate result deviceDate)).Sound ↔ s.isUnlocked = false :=
      sound_updateLastShareDate_iff (s := s.answered request) h.sound _
    refine hsound.trans ?_
    simp [hnew]
  · rw [currentDateObtained_of_not_new (s := s.answered request) hnew]
    exact iff_of_true h.sound fun _ => hnew

theorem sound_handle_iff (h : CountedSoFar s) (event : ShareEvent) :
    (s.handle zone event).Sound ↔ AddsNothingUnlocked zone s event := by
  cases event with
  | launch => exact iff_of_true h.sound trivial
  | checkAndChangeCounter =>
      refine iff_of_true ?_ trivial
      rw [handle, checkAndChangeCounter]
      split
      · exact h.sound
      · exact h.sound
  | fetched request result deviceDate =>
      by_cases hpending : request ∈ s.fetches
      · exact sound_fetched_iff h hpending result deviceDate
      · rw [handle, referenceTimeFetched, if_neg hpending]
        exact iff_of_true h.sound fun hmem => absurd hmem hpending

theorem dated_handle (h : CountedSoFar s) (event : ShareEvent)
    (hnone : (s.handle zone event).lastShareDate = none) :
    (s.handle zone event).currentShareCount = 0 := by
  cases event with
  | launch => exact h.dated hnone
  | checkAndChangeCounter =>
      rw [handle, checkAndChangeCounter] at hnone ⊢
      split at hnone
      · rename_i hunlocked
        rw [if_pos hunlocked]
        exact h.dated hnone
      · rename_i hlocked
        rw [if_neg hlocked]
        exact h.dated hnone
  | fetched request result deviceDate =>
      by_cases hpending : request ∈ s.fetches
      · rw [handle_fetched hpending] at hnone ⊢
        by_cases hnew : IsNewShare zone s (obtainedDate result deviceDate) deviceDate
        · rw [currentDateObtained_of_new (s := s.answered request) hnew] at hnone
          have hdate := lastShareDate_updateLastShareDate (s := s.answered request)
            (obtainedDate result deviceDate)
          exact absurd (hdate.symm.trans hnone) (by simp)
        · rw [currentDateObtained_of_not_new (s := s.answered request) hnew] at hnone ⊢
          exact h.dated hnone
      · rw [handle, referenceTimeFetched, if_neg hpending] at hnone ⊢
        exact h.dated hnone

end Event

/-- From a new device on, whatever the order of calls, callbacks and clocks: the state is
sound after every event exactly when every callback that finds the list unlocked arrives on
the day of the last counted share, or not after it. -/
theorem sound_along_iff (zone : TimeZone) (events : List ShareEvent) :
    Transition.Along (step zone) (fun s event => (s.handle zone event).Sound) installed events ↔
      Transition.Along (step zone) (AddsNothingUnlocked zone) installed events := by
  apply Transition.along_congr (I := CountedSoFar)
  · intro s event _ s' h hguard hstep
    obtain rfl := Option.some.inj hstep
    exact ⟨(sound_handle_iff h event).mpr hguard, dated_handle h event⟩
  · intro s event _ h
    exact sound_handle_iff h event
  · exact ⟨by decide, fun _ => rfl⟩

/-- Both clocks show the same at every callback, and never less than before. -/
def ClocksAgree (events : List ShareEvent) : Prop :=
  (∀ event ∈ events, ∀ request result deviceDate, event = .fetched request result deviceDate →
      result = .success deviceDate) ∧ (events.filterMap networkTime).Pairwise (· ≤ ·)

/-- Shares on four days, then two calls at once: the one is answered on the fifth day, the
other one on the sixth. -/
def twoAtOnce : List ShareEvent :=
  [.checkAndChangeCounter, .fetched 0 (.success 0) 0,
    .checkAndChangeCounter, .fetched 1 (.success 90000) 90000,
    .checkAndChangeCounter, .fetched 2 (.success 180000) 180000,
    .checkAndChangeCounter, .fetched 3 (.success 270000) 270000,
    .checkAndChangeCounter, .checkAndChangeCounter, .fetched 4 (.success 360000) 360000,
    .fetched 5 (.success 450000) 450000]

theorem twoAtOnce_counts_six :
    ClocksAgree twoAtOnce ∧
      ∃ t, Transition.run (step greenwich) installed twoAtOnce = some t ∧
        t.isUnlocked = true ∧ t.currentShareCount = 6 ∧ t.daysLeftToUnlock = -1 := by
  refine ⟨⟨?_, by decide⟩, _, rfl, by decide, by decide, by decide⟩
  intro event hmem request result deviceDate hevent
  subst hevent
  simp only [twoAtOnce, List.mem_cons, reduceCtorEq, ShareEvent.fetched.injEq, List.not_mem_nil,
    or_false, false_or] at hmem
  rcases hmem with ⟨_, rfl, rfl⟩ | ⟨_, rfl, rfl⟩ | ⟨_, rfl, rfl⟩ | ⟨_, rfl, rfl⟩ | ⟨_, rfl, rfl⟩ |
    ⟨_, rfl, rfl⟩ <;> rfl

end Proverbs.ShareToUnlock
