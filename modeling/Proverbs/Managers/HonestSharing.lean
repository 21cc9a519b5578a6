import Mathlib.Data.Finset.Card
import Proverbs.Managers.ShareToUnlock

/-! # Sharing, one call after the other

Where no call of `checkAndChangeCounter` overlaps another one and both clocks agree, the
three stored values have a closed form: the count is the number of days on which calls
were completed, up to the five that unlock the list.
-/

namespace Proverbs

def ShareOutput.completion? : ShareOutput → Option (Nat × Bool)
  | .didUnlock => none
  | .completed request result => some (request, result)

/-- A call of `checkAndChangeCounter` that is completed at this date, on the clock of the
device and on the network's. The network's time may fail to be obtained. -/
structure ShareCall where
  date : Date
  obtained : Bool

def ShareCall.result (c : ShareCall) : ReferenceTimeResult :=
  if c.obtained then .success c.date else .failure

namespace ShareToUnlock

def call (zone : TimeZone) (s : ShareToUnlock) (c : ShareCall) : ShareToUnlock :=
  (s.handle zone .checkAndChangeCounter).handle zone (.fetched s.nextRequest c.result c.date)

def callStep (zone : TimeZone) (s : ShareToUnlock) (c : ShareCall) : Option ShareToUnlock :=
  some (s.call zone c)

def calledDays (zone : TimeZone) (calls : List ShareCall) : Finset Int :=
  (calls.map fun c => zone.day c.date).toFinset

def completions (s : ShareToUnlock) : List (Nat × Bool) :=
  s.outputs.filterMap ShareOutput.completion?

/-- The call is completed once, and with `true` exactly when it raises the count. -/
def CompletesTruly (zone : TimeZone) (s : ShareToUnlock) (c : ShareCall) : Prop :=
  (s.call zone c).completions = s.completions ++
    [(s.nextRequest, decide (s.currentShareCount < (s.call zone c).currentShareCount))]

/-! ## One call -/

section Call

variable {zone : TimeZone} {s : ShareToUnlock} {c : ShareCall}

@[simp] theorem completions_updateLastShareDate (currentDate : Date) :
    (s.updateLastShareDate currentDate).completions = s.completions := by
  simp only [updateLastShareDate, setCurrentShareCount, completions]
  split
  · simp [setUnlocked, output, ShareOutput.completion?]
  · rfl

@[simp] theorem completions_output (request : Nat) (result : Bool) :
    (s.output (.completed request result)).completions = s.completions ++ [(request, result)] := by
  simp [completions, output, ShareOutput.completion?]

def Counts (zone : TimeZone) (s : ShareToUnlock) (c : ShareCall) : Prop :=
  s.isUnlocked = false ∧ IsNewShare zone s c.date c.date

/-- The state in which the callback of the call finds it. -/
def asked (s : ShareToUnlock) : ShareToUnlock := { s with nextRequest := s.nextRequest + 1 }

theorem call_of_unlocked (hidle : s.fetches = []) (hunlocked : s.isUnlocked = true) :
    s.call zone c = s.asked.output (.completed s.nextRequest false) := by
  simp [call, handle, checkAndChangeCounter, hunlocked, referenceTimeFetched, output, asked, hidle]

/-- Whether or not the network's time is obtained, the date is the one both clocks show. -/
theorem obtainedDate_result (c : ShareCall) : obtainedDate c.result c.date = c.date := by
  unfold ShareCall.result
  split <;> rfl

theorem call_of_locked (hidle : s.fetches = []) (hlocked : s.isUnlocked = false) :
    s.call zone c = s.asked.currentDateObtained zone s.nextRequest c.date c.date := by
  have hasked : s.handle zone .checkAndChangeCounter =
      { s.asked with fetches := [s.nextRequest] } := by
    simp [handle, checkAndChangeCounter, hlocked, hidle, asked]
  have hpending : s.nextRequest ∈
      ({ s.asked with fetches := [s.nextRequest] } : ShareToUnlock).fetches :=
    List.mem_singleton_self _
  have hanswered : ({ s.asked with fetches := [s.nextRequest] } : ShareToUnlock).answered
      s.nextRequest = s.asked := by
    simp [answered, asked, hidle]
  rw [call, hasked, handle_fetched hpending, hanswered, obtainedDate_result]

theorem call_of_counts (hidle : s.fetches = []) (h : Counts zone s c) :
    s.call zone c =
      (s.asked.updateLastShareDate c.date).output (.completed s.nextRequest true) := by
  rw [call_of_locked hidle h.1]
  exact currentDateObtained_of_new (s := s.asked) h.2 s.nextRequest

theorem call_of_not_counts (hidle : s.fetches = []) (h : ¬ Counts zone s c) :
    s.call zone c = s.asked.output (.completed s.nextRequest false) := by
  cases hunlocked : s.isUnlocked with
  | true => exact call_of_unlocked hidle hunlocked
  | false =>
      rw [call_of_locked hidle hunlocked]
      exact currentDateObtained_of_not_new (s := s.asked) (fun hnew => h ⟨hunlocked, hnew⟩)
        s.nextRequest

end Call

/-! ## The days so far -/

/-- The invariant: the calls so far were completed on these days. While the list is locked
the last counted share is of the latest of them. -/
structure CountsDays (zone : TimeZone) (s : ShareToUnlock) (days : Finset Int) : Prop where
  count : s.currentShareCount = min requiredShareDays days.card
  unlocked : s.isUnlocked = decide (requiredShareDays ≤ days.card)
  idle : s.fetches = []
  fresh : s.lastShareDate = none → days = ∅
  latest : s.isUnlocked = false → ∀ lastShareDate, s.lastShareDate = some lastShareDate →
    zone.day lastShareDate ∈ days ∧ ∀ day ∈ days, day ≤ zone.day lastShareDate

section Days

variable {zone : TimeZone} {s : ShareToUnlock} {c : ShareCall} {days : Finset Int}

theorem countsDays_installed (zone : TimeZone) : CountsDays zone installed ∅ where
  count := rfl
  unlocked := rfl
  idle := rfl
  fresh _ := rfl
  latest _ lastShareDate h := by simp [installed] at h

/-- While the list is locked, a share is counted exactly on a new day. -/
theorem counts_iff (h : CountsDays zone s days) (hlocked : s.isUnlocked = false)
    (hpast : ∀ lastShareDate, s.lastShareDate = some lastShareDate → lastShareDate ≤ c.date) :
    Counts zone s c ↔ zone.day c.date ∉ days := by
  constructor
  · rintro ⟨_, hnew⟩ hmem
    cases hlast : s.lastShareDate with
    | none =>
        rw [h.fresh hlast] at hmem
        exact absurd hmem (Finset.notMem_empty _)
    | some lastShareDate =>
        have hle := (h.latest hlocked lastShareDate hlast).2 _ hmem
        have hge := zone.day_le lastShareDate c.date (hpast lastShareDate hlast)
        exact (hnew lastShareDate hlast).1 (by omega)
  · intro hnew
    refine ⟨hlocked, fun lastShareDate hlast => ?_⟩
    have hday : zone.day lastShareDate ≠ zone.day c.date := by
      intro hsame
      exact hnew (hsame ▸ (h.latest hlocked lastShareDate hlast).1)
    have hdate : lastShareDate ≠ c.date := fun hsame => hday (congrArg zone.day hsame)
    exact ⟨hday, lt_of_le_of_ne (hpast lastShareDate hlast) hdate⟩

theorem countsDays_call_of_counts (h : CountsDays zone s days) (hcounts : Counts zone s c)
    (hpast : ∀ lastShareDate, s.lastShareDate = some lastShareDate → lastShareDate ≤ c.date) :
    CountsDays zone (s.call zone c) (insert (zone.day c.date) days) := by
  have hnew : zone.day c.date ∉ days := (counts_iff h hcounts.1 hpast).mp hcounts
  have hfew : days.card < requiredShareDays := by
    have hlocked := h.unlocked.symm.trans hcounts.1
    exact Nat.lt_of_not_le (of_decide_eq_false hlocked)
  have hcount : s.currentShareCount = days.card := by
    rw [h.count, Nat.min_eq_right hfew.le]
  have hcard := Finset.card_insert_of_notMem hnew
  rw [call_of_counts h.idle hcounts]
  constructor
  · rw [hcard, Nat.min_eq_right (Nat.succ_le_of_lt hfew), ← hcount]
    rfl
  · have hunlocked := isUnlocked_updateLastShareDate (s := s.asked) c.date
    have hlocked : s.asked.isUnlocked = false := hcounts.1
    rw [hlocked, Bool.false_or] at hunlocked
    rw [hcard, ← hcount]
    exact hunlocked
  · exact (fetches_updateLastShareDate c.date).trans h.idle
  · intro hnone
    have hlast := lastShareDate_updateLastShareDate (s := s.asked) c.date
    exact absurd (hlast.symm.trans hnone) (by simp)
  · intro _ lastShareDate hlast
    have hdate := lastShareDate_updateLastShareDate (s := s.asked) c.date
    obtain rfl := Option.some.inj (hdate.symm.trans hlast)
    refine ⟨Finset.mem_insert_self _ _, fun day hday => ?_⟩
    rcases Finset.mem_insert.mp hday with rfl | hday
    · exact Int.le_refl _
    · cases hbefore : s.lastShareDate with
      | none =>
          rw [h.fresh hbefore] at hday
          exact absurd hday (Finset.notMem_empty _)
      | some before =>
          have hle := (h.latest hcounts.1 before hbefore).2 day hday
          have hge := zone.day_le before c.date (hpast before hbefore)
          omega

theorem countsDays_call_of_not_counts (h : CountsDays zone s days) (hkept : ¬ Counts zone s c)
    (hpast : ∀ lastShareDate, s.lastShareDate = some lastShareDate → lastShareDate ≤ c.date) :
    CountsDays zone (s.call zone c) (insert (zone.day c.date) days) := by
  rw [call_of_not_counts h.idle hkept]
  cases hunlocked : s.isUnlocked with
  | false =>
      have hmem : zone.day c.date ∈ days := by
        by_contra hnew
        exact hkept ((counts_iff h hunlocked hpast).mpr hnew)
      rw [Finset.insert_eq_of_mem hmem]
      exact ⟨h.count, h.unlocked, h.idle, h.fresh, h.latest⟩
  | true =>
      have henough : requiredShareDays ≤ days.card :=
        of_decide_eq_true (h.unlocked.symm.trans hunlocked)
      have hmore : days.card ≤ (insert (zone.day c.date) days).card :=
        Finset.card_le_card (Finset.subset_insert _ _)
      constructor
      · rw [Nat.min_eq_left (henough.trans hmore), ← Nat.min_eq_left henough]
        exact h.count
      · rw [decide_eq_true (henough.trans hmore)]
        exact hunlocked
      · exact h.idle
      · intro hnone
        have hpositive : 0 < requiredShareDays := by decide
        have hempty : days.card = 0 := by
          rw [h.fresh hnone]
          rfl
        omega
      · intro hlocked
        exact absurd (hunlocked.symm.trans hlocked) (by simp)

theorem countsDays_call (h : CountsDays zone s days)
    (hpast : ∀ lastShareDate, s.lastShareDate = some lastShareDate → lastShareDate ≤ c.date) :
    CountsDays zone (s.call zone c) (insert (zone.day c.date) days) := by
  by_cases hcounts : Counts zone s c
  · exact countsDays_call_of_counts h hcounts hpast
  · exact countsDays_call_of_not_counts h hcounts hpast

theorem completesTruly (hidle : s.fetches = []) : CompletesTruly zone s c := by
  unfold CompletesTruly
  by_cases hcounts : Counts zone s c
  · rw [call_of_counts hidle hcounts, completions_output, completions_updateLastShareDate]
    have hraised : s.currentShareCount < ((s.asked.updateLastShareDate c.date).output
        (.completed s.nextRequest true)).currentShareCount := Nat.lt_succ_self _
    rw [decide_eq_true hraised]
    rfl
  · rw [call_of_not_counts hidle hcounts, completions_output]
    have hkept : ¬ s.currentShareCount <
        (s.asked.output (.completed s.nextRequest false)).currentShareCount := Nat.lt_irrefl _
    rw [decide_eq_false hkept]
    rfl

theorem lastShareDate_call (hidle : s.fetches = [])
    (hpast : ∀ lastShareDate, s.lastShareDate = some lastShareDate → lastShareDate ≤ c.date) :
    ∀ lastShareDate, (s.call zone c).lastShareDate = some lastShareDate →
      lastShareDate ≤ c.date := by
  intro lastShareDate hlast
  by_cases hcounts : Counts zone s c
  · rw [call_of_counts hidle hcounts] at hlast
    have hdate := lastShareDate_updateLastShareDate (s := s.asked) c.date
    exact (Option.some.inj (hlast.symm.trans hdate)).le
  · rw [call_of_not_counts hidle hcounts] at hlast
    exact hpast lastShareDate hlast

/-- The calls that follow add their days. -/
theorem countsDays_run {calls : List ShareCall} (h : CountsDays zone s days)
    (hordered : (calls.map ShareCall.date).Pairwise (· ≤ ·))
    (hpast : ∀ lastShareDate, s.lastShareDate = some lastShareDate →
      ∀ date ∈ calls.map ShareCall.date, lastShareDate ≤ date) :
    Transition.Along (callStep zone) (CompletesTruly zone) s calls ∧
      ∃ t, Transition.run (callStep zone) s calls = some t ∧
        CountsDays zone t (days ∪ calledDays zone calls) := by
  induction calls generalizing s days with
  | nil =>
      refine ⟨trivial, s, rfl, ?_⟩
      rw [calledDays, List.map_nil, List.toFinset_nil, Finset.union_empty]
      exact h
  | cons c calls ih =>
      rw [List.map_cons, List.pairwise_cons] at hordered
      have hpast' : ∀ lastShareDate, s.lastShareDate = some lastShareDate →
          lastShareDate ≤ c.date := fun lastShareDate hlast =>
        hpast lastShareDate hlast c.date List.mem_cons_self
      have hstep := countsDays_call h hpast'
      have hlater : ∀ lastShareDate, (s.call zone c).lastShareDate = some lastShareDate →
          ∀ date ∈ calls.map ShareCall.date, lastShareDate ≤ date := by
        intro lastShareDate hlast date hdate
        exact Int.le_trans (lastShareDate_call h.idle hpast' lastShareDate hlast)
          (hordered.1 date hdate)
      obtain ⟨hrest, t, hrun, hdays⟩ := ih hstep hordered.2 hlater
      have hunion : insert (zone.day c.date) days ∪ calledDays zone calls =
          days ∪ calledDays zone (c :: calls) := by
        simp [calledDays, Finset.insert_union]
      refine ⟨⟨completesTruly h.idle, fun s' hs => ?_⟩, t, hrun, hunion ▸ hdays⟩
      exact Option.some.inj hs ▸ hrest

end Days

/-- On a new device, with calls completed one after the other and at no earlier date than
those before: every call is completed once, with `true` exactly when it raises the count,
and the three values are what the number of days with a completed call says. -/
theorem shares_counted_exactly (zone : TimeZone) {calls : List ShareCall}
    (hordered : (calls.map ShareCall.date).Pairwise (· ≤ ·)) :
    Transition.Along (callStep zone) (CompletesTruly zone) installed calls ∧
      ∃ t, Transition.run (callStep zone) installed calls = some t ∧
        t.currentShareCount = min 5 (calledDays zone calls).card ∧
        (t.isUnlocked = true ↔ 5 ≤ (calledDays zone calls).card) ∧
        t.daysLeftToUnlock = 5 - t.currentShareCount := by
  obtain ⟨halong, t, hrun, hdays⟩ := countsDays_run (countsDays_installed zone) hordered
    fun lastShareDate h => by simp [installed] at h
  rw [Finset.empty_union] at hdays
  refine ⟨halong, t, hrun, hdays.count, ?_, rfl⟩
  rw [hdays.unlocked, decide_eq_true_iff]
  rfl

/-- Six days, and twice the last one; the third share finds no network. -/
def sixDays : List ShareCall :=
  [⟨0, true⟩, ⟨90000, true⟩, ⟨180000, false⟩, ⟨270000, true⟩, ⟨360000, true⟩, ⟨450000, true⟩,
    ⟨450001, true⟩]

theorem shares_counted_exactly_sixDays :
    ∃ t, Transition.run (callStep greenwich) installed sixDays = some t ∧
      t.currentShareCount = 5 ∧ t.isUnlocked = true ∧ t.daysLeftToUnlock = 0 := by
  obtain ⟨_, t, hrun, hcount, hunlocked, hleft⟩ :=
    @shares_counted_exactly greenwich sixDays (by decide)
  have hcard : (calledDays greenwich sixDays).card = 6 := by decide
  rw [hcard] at hcount hunlocked
  refine ⟨t, hrun, hcount, hunlocked.mpr (by decide), ?_⟩
  rw [hleft, hcount]
  rfl

end ShareToUnlock

end Proverbs
