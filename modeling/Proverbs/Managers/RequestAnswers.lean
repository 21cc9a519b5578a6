import Proverbs.Managers.Requests

/-! # Every request is answered once

From its call on a request has one answer, or one callback that owes it, in every
state of every run. One path calls nobody: a deletion that looks for its document
without a `remoteStorage`.
-/

namespace Proverbs.App

inductive FavoritesRequest where
  | getAll
  | isFavorite (proverb : Proverb)
  | save (proverb : Proverb)
  | delete (proverb : Proverb)
deriving DecidableEq, Repr

def FavoritesRequest.event : FavoritesRequest → Event
  | getAll => .getAll
  | isFavorite proverb => .isFavorite proverb
  | save proverb => .save proverb
  | delete proverb => .delete proverb

/-- The request has one answer, or one callback that owes it. -/
def Once (request : Nat) (s : App) : Prop := s.answers request + s.inFlight request = 1

instance (request : Nat) (s : App) : Decidable (Once request s) :=
  inferInstanceAs (Decidable (_ = 1))

/-- In every state of the run the request has one answer, or one callback that owes it; its
callbacks run without a crash, and there are at most two of them. -/
def AnsweredOnce (request : Nat) (s : App) (inputs : List Input) : Prop :=
  calledBack request s inputs ≤ 2 ∧ Once request s ∧
    Transition.Along turn (fun u input =>
      (CallsBack request u input → (turn u input).isSome) ∧
        ∀ v, turn u input = some v → Once request v) s inputs

/-- The call does not crash, and a deletion that has to look for its document has a
`remoteStorage` to ask. -/
def Answerable (s : App) (request : FavoritesRequest) (random : Identifier) (now : Date) : Prop :=
  ¬ s.Crashes ⟨request.event, random, now⟩ ∧
    ∀ rProverb, request = .delete (.rProverb rProverb) → s.isLocalStorage = false →
      s.remoteStorage ≠ none

/-- A callback of the request deletes nothing but documents. -/
def DeletesDocument (request : Nat) (s : App) (input : Input) : Prop :=
  CallsBack request s input →
    ∀ identifier ∈ s.addressedBy input, isDocumentPath identifier = true

instance (request : Nat) (s : App) (input : Input) : Decidable (DeletesDocument request s input) :=
  inferInstanceAs (Decidable (_ → _))

/-- Request numbers are drawn in order: those still to come are not in use. -/
structure Numbered (s : App) : Prop where
  callback_lt : ∀ callback ∈ s.callbacks, ∀ request,
    Callback.request callback = some request → request < s.nextRequest
  output_lt : ∀ o ∈ s.outputs, ∀ request,
    Output.request o = some request → request < s.nextRequest

/-! ## Numbers in use -/

section Numbers

variable {s s' : App}

theorem Numbered.extends {newCall : Call → Prop} {newOutput : Output → Prop} (h : Numbered s)
    (heffect : Extends newCall newOutput s s')
    (hcall : ∀ call, newCall call → ∀ request,
      Callback.request call.callback = some request → request < s.nextRequest)
    (houtput : ∀ o, newOutput o → ∀ request,
      Output.request o = some request → request < s.nextRequest) : Numbered s' := by
  obtain ⟨⟨cs, hc, hcs⟩, ⟨os, ho, hos⟩, hr, _⟩ := heffect
  constructor
  · intro callback hmem request hrequest
    rw [callbacks, hc, List.map_append, List.mem_append] at hmem
    rw [hr]
    rcases hmem with hmem | hmem
    · exact h.callback_lt callback hmem request hrequest
    · obtain ⟨call, hnew, rfl⟩ := List.mem_map.mp hmem
      exact hcall call (hcs call hnew) request hrequest
  · intro o hmem request hrequest
    rw [ho, List.mem_append] at hmem
    rw [hr]
    rcases hmem with hmem | hmem
    · exact h.output_lt o hmem request hrequest
    · exact houtput o (hos o hmem) request hrequest

theorem Numbered.request {request : Nat} (h : Numbered s) (hlt : request < s.nextRequest)
    (heffect : RequestEffect request s s') : Numbered s' := by
  apply h.extends heffect
  · intro call hcall other hother
    rw [← Option.some.inj (hcall.symm.trans hother)]
    exact hlt
  · intro o ho other hother
    rw [ho.1 other hother]
    exact hlt

theorem Numbered.silent (h : Numbered s) (heffect : Silent s s') : Numbered s' := by
  apply h.extends heffect
  · intro call hcall request hrequest
    exact absurd (hrequest.symm.trans hcall) (Option.some_ne_none _)
  · intro o ho request hrequest
    exact absurd (hrequest.symm.trans ho.1) (Option.some_ne_none _)

theorem Numbered.takeRequest (h : Numbered s) : Numbered s.takeRequest where
  callback_lt := fun callback hmem request hrequest =>
    Nat.lt_succ_of_lt (h.callback_lt callback hmem request hrequest)
  output_lt := fun o hmem request hrequest =>
    Nat.lt_succ_of_lt (h.output_lt o hmem request hrequest)

theorem Numbered.serve (h : Numbered s) (index : Nat) (outcome : Outcome) :
    Numbered (s.serve index outcome) := by
  have hcallbacks : (s.serve index outcome).callbacks = s.callbacks :=
    callbacks_serve s index outcome
  have hsame : (s.serve index outcome).outputs = s.outputs ∧
      (s.serve index outcome).nextRequest = s.nextRequest := by
    unfold App.serve
    split <;> exact ⟨rfl, rfl⟩
  constructor
  · rw [hcallbacks, hsame.2]
    exact h.callback_lt
  · rw [hsame.1, hsame.2]
    exact h.output_lt

theorem Numbered.deliver (h : Numbered s) {index : Nat} {random : Identifier} {now : Date}
    (hs : s.deliver index random now = some s') : Numbered s' := by
  unfold App.deliver at hs
  split at hs
  · rename_i operation callback response hcall
    let t : App := { s with calls := s.calls.eraseIdx index }
    have hsublist : t.callbacks.Sublist s.callbacks :=
      (List.eraseIdx_sublist s.calls index).map Call.callback
    have herased : Numbered t := by
      constructor
      · exact fun callback hmem => h.callback_lt callback (hsublist.subset hmem)
      · exact h.output_lt
    have hmem : callback ∈ s.callbacks :=
      List.mem_map_of_mem (f := Call.callback) (List.mem_of_getElem? hcall)
    rcases called_effect hs with ⟨request, hrequest, heffect⟩ | ⟨_, hmigrates⟩
    · exact herased.request (h.callback_lt callback hmem request hrequest) heffect
    · exact herased.silent hmigrates.migration_silent
  · rw [← Option.some.inj hs]
    exact h

theorem numbered_launch (s : App) (throws : Bool) : Numbered (s.launch throws) := by
  refine Numbered.silent ?_ (effect_launch s throws).account_silent
  constructor <;> simp [callbacks]

theorem numbered_step {input : Input} (h : Numbered s) (hs : step s input = some s') :
    Numbered s' := by
  cases step_effect hs with
  | launched throws _ _ hlaunch =>
      rw [hlaunch]
      exact numbered_launch s throws
  | requested _ heffect => exact h.takeRequest.request (Nat.lt_succ_self _) heffect
  | account _ heffect =>
      rcases heffect with heffect | heffect
      · exact h.silent heffect.account_silent
      · exact h.takeRequest.silent heffect.account_silent
  | served index outcome _ _ hserve =>
      rw [hserve]
      exact h.serve index outcome
  | delivered index _ _ hdeliver => exact h.deliver hdeliver
  | realmWrites _ _ _ hwrites =>
      rw [hwrites]
      exact ⟨h.callback_lt, h.output_lt⟩

theorem numbered_of_reachable {device : App} {throws : Bool}
    (h : Transition.Reachable step (device.launch throws) s) : Numbered s :=
  h.invariant (fun _ _ _ hs hstep => numbered_step hs hstep) (numbered_launch device throws)

theorem Numbered.unused (h : Numbered s) :
    s.answers s.nextRequest = 0 ∧ s.inFlight s.nextRequest = 0 ∧
      s.callsLeft s.nextRequest = 0 := by
  have hnot : ∀ callback ∈ s.callbacks, Callback.request callback ≠ some s.nextRequest := by
    intro callback hmem hsame
    exact Nat.lt_irrefl _ (h.callback_lt callback hmem _ hsame)
  refine ⟨?_, ?_, ?_⟩
  · apply List.countP_eq_zero.mpr
    intro o hmem hsame
    exact Nat.lt_irrefl _ (h.output_lt o hmem _ (of_decide_eq_true hsame))
  · apply List.countP_eq_zero.mpr
    intro callback hmem hsame
    exact hnot callback hmem (of_decide_eq_true hsame)
  · apply List.sum_eq_zero_iff_forall_eq_nat.mpr
    intro trips hmem
    obtain ⟨callback, hcallback, rfl⟩ := List.mem_map.mp hmem
    exact tripsFor_of_ne (hnot callback hcallback)

end Numbers

/-! ## A request from its call to its answer -/

/-- The request is answered or owed one answer, with at most two calls left. -/
structure Underway (request : Nat) (s : App) : Prop where
  once : Once request s
  trips : s.callsLeft request ≤ 2
  lt : request < s.nextRequest

section Underway

variable {s t : App} {request : Nat}

theorem Underway.untouched (h : Underway request s) (hs : Untouched request s t) :
    Underway request t where
  once := by
    rw [Once, hs.answers, hs.inFlight]
    exact h.once
  trips := hs.callsLeft ▸ h.trips
  lt := Nat.lt_of_lt_of_le h.lt hs.next

/-- A turn of the process keeps a request under way; one of its callbacks uses up a call. -/
theorem Underway.turn {input : Input} (h : Underway request s)
    (hlaunch : isLaunch input.event = false) (hs : App.turn s input = some t) :
    Underway request t ∧
      t.callsLeft request + (if CallsBack request s input then 1 else 0) ≤
        s.callsLeft request := by
  obtain ⟨hstep, halive, _⟩ := turn_eq_some_iff.mp hs
  by_cases hback : CallsBack request s input
  · obtain ⟨honce, htrips, hnext⟩ := step_callsBack h.trips hback hstep
    have hleft := h.trips
    refine ⟨⟨(honce halive).trans h.once, by omega, Nat.lt_of_lt_of_le h.lt hnext⟩, ?_⟩
    rw [if_pos hback]
    exact htrips
  · have huntouched := step_untouched h.lt hlaunch hback hstep
    refine ⟨h.untouched huntouched, ?_⟩
    rw [if_neg hback]
    exact huntouched.callsLeft.le

theorem Underway.calledBack_le {inputs : List Input} (h : Underway request s)
    (hlaunch : ∀ input ∈ inputs, isLaunch input.event = false) :
    calledBack request s inputs ≤ s.callsLeft request := by
  induction inputs generalizing s with
  | nil => exact Nat.zero_le _
  | cons input inputs ih =>
      have hrest : ∀ other ∈ inputs, isLaunch other.event = false :=
        fun other hmem => hlaunch other (List.mem_cons_of_mem _ hmem)
      simp only [calledBack]
      cases hs : App.turn s input with
      | none =>
          split
          · rename_i hback
            exact one_le_callsLeft hback
          · exact Nat.zero_le _
      | some t =>
          obtain ⟨hunder, hleft⟩ := h.turn (hlaunch input List.mem_cons_self) hs
          have hcount := ih hunder hrest
          dsimp only
          omega

/-- A request under way is answered once exactly if its callbacks delete documents only. -/
theorem Underway.answeredOnce_iff {inputs : List Input} (h : Underway request s)
    (hlive : s.Live) (hlaunch : ∀ input ∈ inputs, isLaunch input.event = false) :
    AnsweredOnce request s inputs ↔
      Transition.Along App.turn (DeletesDocument request) s inputs := by
  have hturn : ∀ u, ∀ input ∈ inputs, Live u ∧ Underway request u →
      (((CallsBack request u input → (App.turn u input).isSome) ∧
        ∀ v, App.turn u input = some v → Once request v) ↔ DeletesDocument request u input) := by
    rintro u input hmem ⟨hu, hunder⟩
    have honce : ∀ v, App.turn u input = some v → Once request v :=
      fun v hv => (hunder.turn (hlaunch input hmem) hv).1.once
    rw [and_iff_left honce, DeletesDocument]
    refine imp_congr_right fun hback => ?_
    rw [turn_isSome_iff hu, crashes_iff_of_callsBack hunder.trips hback]
    simp
  have hkeep : ∀ u, ∀ input ∈ inputs, ∀ v, Live u ∧ Underway request u →
      DeletesDocument request u input → App.turn u input = some v →
      Live v ∧ Underway request v := fun u input hmem v hu _ hv =>
    ⟨live_of_turn hv, (hu.2.turn (hlaunch input hmem) hv).1⟩
  rw [AnsweredOnce, and_iff_right ((h.calledBack_le hlaunch).trans h.trips), and_iff_right h.once]
  exact Transition.along_congr hkeep hturn ⟨hlive, h⟩

theorem Hands.requested {request : FavoritesRequest} {random : Identifier} {now : Date}
    (hstorage : ∀ rProverb, request = .delete (.rProverb rProverb) → s.isLocalStorage = false →
      s.remoteStorage ≠ none)
    (hs : step s ⟨request.event, random, now⟩ = some t) :
    Hands s.nextRequest 2 s.takeRequest t ∧
      RequestEffect s.nextRequest s.takeRequest t := by
  cases request with
  | getAll =>
      obtain rfl := Option.some.inj hs
      exact ⟨Hands.getAll.mono (by decide), (quiet_getAll s.nextRequest).quietRequest_request⟩
  | isFavorite proverb =>
      exact ⟨(Hands.isFavorite hs).mono (by decide), request_isFavorite rfl hs⟩
  | save proverb => exact ⟨(Hands.save hs).mono (by decide), request_save hs⟩
  | delete proverb =>
      have hdeleted : Hands s.nextRequest 2 s.takeRequest t :=
        Hands.delete (s := s.takeRequest) (fun rProverb h => hstorage rProverb (h ▸ rfl)) hs
      exact ⟨hdeleted, (quiet_delete hs).quietRequest_request⟩

theorem Numbered.underway (h : Numbered s) (halive : t.aborted = false)
    (hands : Hands s.nextRequest 2 s.takeRequest t)
    (heffect : RequestEffect s.nextRequest s.takeRequest t) : Underway s.nextRequest t := by
  obtain ⟨hanswers, hinFlight, hcallsLeft⟩ := h.unused
  refine ⟨?_, ?_, ?_⟩
  · have honce : t.answers s.nextRequest + t.inFlight s.nextRequest =
        s.answers s.nextRequest + s.inFlight s.nextRequest + 1 := hands.once halive
    rw [Once]
    omega
  · have htrips : t.callsLeft s.nextRequest ≤ s.callsLeft s.nextRequest + 2 := hands.trips
    omega
  · rw [heffect.request]
    exact Nat.lt_succ_self _

/-- The optional chain ends where there is no `remoteStorage`, and nobody is called. -/
theorem Numbered.not_once_delete (h : Numbered s) {rProverb : RProverb} {random : Identifier}
    {now : Date} (hlocal : s.isLocalStorage = false) (hstorage : s.remoteStorage = none)
    (hs : step s ⟨.delete (.rProverb rProverb), random, now⟩ = some t) :
    ¬ Once s.nextRequest t := by
  obtain ⟨hanswers, hinFlight, _⟩ := h.unused
  have hlocal' : s.takeRequest.isLocalStorage = false := hlocal
  have hstorage' : s.takeRequest.remoteStorage = none := hstorage
  have hsilent : t = s.takeRequest := by
    simpa [step, delete, readable, hlocal', checkAndDeleteRemote, hstorage'] using hs.symm
  have hzero : t.answers s.nextRequest + t.inFlight s.nextRequest = 0 := by
    rw [hsilent]
    change s.answers s.nextRequest + s.inFlight s.nextRequest = 0
    omega
  rw [Once, hzero]
  decide

end Underway

/-- Any of the four methods, called in any state of a process with any proverb, and any run of
the process after it: the completion is called exactly once, whatever Firestore answers and
whatever happens meanwhile, if and only if the call does not crash, a deletion by catalogue
proverb in remote mode finds a `remoteStorage`, and the favourite this deletion finds names a
document. -/
theorem answered_once_iff {s : App} (hlive : s.Live) (hnumbered : Numbered s)
    (request : FavoritesRequest) (random : Identifier) (now : Date) {inputs : List Input}
    (hlaunch : ∀ input ∈ inputs, isLaunch input.event = false) :
    (∃ t, turn s ⟨request.event, random, now⟩ = some t ∧ AnsweredOnce s.nextRequest t inputs) ↔
      s.Answerable request random now ∧
        ∀ t, turn s ⟨request.event, random, now⟩ = some t →
          Transition.Along turn (DeletesDocument s.nextRequest) t inputs := by
  have hcrash := turn_isSome_iff hlive ⟨request.event, random, now⟩
  cases ht : turn s ⟨request.event, random, now⟩ with
  | none =>
      rw [ht] at hcrash
      refine iff_of_false (by simp) fun hanswerable => ?_
      exact absurd (hcrash.mpr hanswerable.1.1) (by simp)
  | some t =>
      rw [ht] at hcrash
      obtain ⟨hstep, hlive'⟩ := turn_eq_some_iff.mp ht
      simp only [Option.some.injEq, exists_eq_left', forall_eq', Answerable,
        and_iff_right (hcrash.mp rfl)]
      by_cases hstorage : ∀ rProverb, request = .delete (.rProverb rProverb) →
          s.isLocalStorage = false → s.remoteStorage ≠ none
      · obtain ⟨hands, heffect⟩ := Hands.requested hstorage hstep
        have hunder := hnumbered.underway hlive'.1 hands heffect
        rw [and_iff_right hstorage]
        exact hunder.answeredOnce_iff hlive' hlaunch
      · refine iff_of_false (fun honce => ?_) fun h => hstorage h.1
        push Not at hstorage
        obtain ⟨rProverb, rfl, hlocal, hnone⟩ := hstorage
        exact hnumbered.not_once_delete hlocal hnone hstep honce.2.1

def signedInByGoogle : List Input :=
  [.purchaseCompleted true, .signIn .google, .didSignInFor .authentication,
    .firebaseAuthenticated 0 (.user "user")].map fun event => ⟨event, "", 0⟩

def savedByUser : List Input :=
  signedInByGoogle ++ [⟨.save (.rProverb ⟨"proverb", 0, "", "", "", false⟩), "favorite", 0⟩,
    ⟨.serve 1 .success, "", 0⟩, ⟨.deliver 1, "", 0⟩]

/-- The favourite is found, a sign-out throws, and the document is deleted. -/
def lookedUpAndDeleted : List Input :=
  [.serve 1 .success, .deliver 1, .signOut true, .serve 1 .success, .deliver 1].map
    fun event => ⟨event, "", 0⟩

theorem answered_once_found :
    ∃ s t, Transition.run turn (installed.launch false) savedByUser = some s ∧
      turn s ⟨.delete (.rProverb ⟨"proverb", 0, "", "", "", false⟩), "", 0⟩ = some t ∧
      AnsweredOnce s.nextRequest t lookedUpAndDeleted := by
  have hrun : ∃ s, Transition.run turn (installed.launch false) savedByUser = some s ∧
      ¬ s.Crashes ⟨.delete (.rProverb ⟨"proverb", 0, "", "", "", false⟩), "", 0⟩ ∧
      s.remoteStorage ≠ none ∧
      ∀ t, turn s ⟨.delete (.rProverb ⟨"proverb", 0, "", "", "", false⟩), "", 0⟩ = some t →
        Transition.Along turn (DeletesDocument s.nextRequest) t lookedUpAndDeleted := by
    refine ⟨_, rfl, by decide, by decide, fun t ht => ?_⟩
    obtain rfl := Option.some.inj ht
    decide +kernel
  obtain ⟨s, hs, hcrash, hstorage, hdocument⟩ := hrun
  have hlive : s.Live := live_of_reachable ⟨_, hs⟩
  have hnumbered : Numbered s := numbered_of_reachable (reachable_of_turn ⟨_, hs⟩)
  obtain ⟨t, ht, honce⟩ := (answered_once_iff hlive hnumbered
    (.delete (.rProverb ⟨"proverb", 0, "", "", "", false⟩)) "" 0 (by decide)).mpr
      ⟨⟨hcrash, fun _ _ _ => hstorage⟩, hdocument⟩
  exact ⟨s, t, hs, ht, honce⟩

/-- A sign-out that throws has removed `remoteStorage` and left remote mode: the deletion
of a catalogue proverb is never answered. -/
theorem deletion_never_answered :
    ¬ ∀ s, Transition.run turn (installed.launch false)
        (signedInByGoogle ++ [⟨.signOut true, "", 0⟩]) = some s →
      ∃ t, turn s ⟨.delete (.rProverb ⟨"proverb", 0, "", "", "", false⟩), "", 0⟩ = some t ∧
        AnsweredOnce s.nextRequest t [] := by
  intro h
  obtain ⟨t, ht, honce⟩ := h _ rfl
  obtain rfl := Option.some.inj ht
  exact absurd honce.2.1 (by decide)

end Proverbs.App
