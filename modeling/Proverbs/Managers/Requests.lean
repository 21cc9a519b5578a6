import Proverbs.Core.InFlight
import Proverbs.Managers.Crashes

/-! # Requests from call to callback

A request is passed from a call to its callback until a completion is called. The
callbacks that still owe its answer and the answers given are counted together: what
handles the request adds one to the sum, and a callback run takes one away first.
-/

namespace Proverbs.App

def callbacks (s : App) : List Callback := s.calls.map Call.callback

def answers (s : App) (request : Nat) : Nat :=
  s.outputs.countP fun o => Output.request o = some request

def inFlight (s : App) (request : Nat) : Nat :=
  s.callbacks.countP fun callback => Callback.request callback = some request

/-- How many calls of Firestore a request may still make, the one in flight included. -/
def Callback.trips : Callback → Nat
  | .isFavorite (.checkAndSaveOrDelete _ _) => 3
  | .getFavorite _ _ => 2
  | _ => 1

def Callback.tripsFor (request : Nat) (callback : Callback) : Nat :=
  if Callback.request callback = some request then Callback.trips callback else 0

def callsLeft (s : App) (request : Nat) : Nat :=
  (s.callbacks.map (Callback.tripsFor request)).sum

/-- The callback a step runs. -/
def callbackRun (s : App) (input : Input) : Option Callback :=
  match input.event with
  | .deliver index => (s.calls[index]?.filter (·.response.isSome)).map Call.callback
  | _ => none

/-- The step runs a callback of the request. -/
def CallsBack (request : Nat) (s : App) (input : Input) : Prop :=
  (s.callbackRun input).bind Callback.request = some request

instance (request : Nat) (s : App) (input : Input) : Decidable (CallsBack request s input) :=
  inferInstanceAs (Decidable (_ = _))

theorem callsBack_iff {request : Nat} {s : App} {event : Event} {random : Identifier}
    {now : Date} :
    CallsBack request s ⟨event, random, now⟩ ↔
      ∃ index operation callback response, event = .deliver index ∧
        s.calls[index]? = some ⟨operation, callback, some response⟩ ∧
        Callback.request callback = some request := by
  constructor
  · intro hback
    obtain ⟨callback, hrun, hrequest⟩ := Option.bind_eq_some_iff.mp hback
    cases event with
    | deliver index =>
        obtain ⟨call, hcall, rfl⟩ := Option.map_eq_some_iff.mp hrun
        obtain ⟨hcall, hresponse⟩ := Option.filter_eq_some_iff.mp hcall
        obtain ⟨response, hresponse⟩ := Option.isSome_iff_exists.mp hresponse
        exact ⟨index, call.operation, call.callback, response, rfl, hresponse ▸ hcall, hrequest⟩
    | _ => exact absurd hrun (by simp [callbackRun])
  · rintro ⟨index, operation, callback, response, rfl, hcall, hrequest⟩
    simp only [CallsBack, callbackRun, hcall]
    exact hrequest

def calledBack (request : Nat) : App → List Input → Nat
  | _, [] => 0
  | s, input :: inputs =>
      (if CallsBack request s input then 1 else 0) +
        match turn s input with
        | some t => calledBack request t inputs
        | none => 0

def isLaunch : Event → Bool
  | .launch _ => true
  | _ => false

/-! ## Counting -/

section Counting

variable {s t : App} {request : Nat}

theorem answers_output (o : Output) : (s.output o).answers request =
    s.answers request + if Output.request o = some request then 1 else 0 := by
  simp [answers, output, List.countP_append, List.countP_cons]

theorem inFlight_call (operation : Operation) (callback : Callback) :
    (s.call operation callback).inFlight request =
      s.inFlight request + if Callback.request callback = some request then 1 else 0 := by
  simp [inFlight, callbacks, List.countP_append, List.countP_cons]

theorem callsLeft_call (operation : Operation) (callback : Callback) :
    (s.call operation callback).callsLeft request =
      s.callsLeft request + Callback.tripsFor request callback := by
  simp [callsLeft, callbacks]

theorem tripsFor_of_ne {callback : Callback} (h : Callback.request callback ≠ some request) :
    Callback.tripsFor request callback = 0 := if_neg h

/-- A callback run leaves the count by one, and the calls left by its own. -/
theorem counts_eraseIdx (request : Nat) {index : Nat} {call : Call}
    (h : s.calls[index]? = some call) :
    ({ s with calls := s.calls.eraseIdx index } : App).inFlight request +
        (if Callback.request call.callback = some request then 1 else 0) = s.inFlight request ∧
      ({ s with calls := s.calls.eraseIdx index } : App).callsLeft request +
        Callback.tripsFor request call.callback = s.callsLeft request := by
  constructor
  · have hcount := InFlight.countP_eraseIdx_add
      (fun call : Call => decide (Callback.request call.callback = some request)) h
    simpa [inFlight, callbacks, List.countP_map, Function.comp_def] using hcount
  · have hsum := InFlight.sum_eraseIdx_add
      (fun call : Call => Callback.tripsFor request call.callback) h
    simpa [callsLeft, callbacks, List.map_map, Function.comp_def] using hsum

theorem one_le_callsLeft {input : Input} (hback : CallsBack request s input) :
    1 ≤ s.callsLeft request := by
  obtain ⟨index, operation, callback, response, _, hcall, hrequest⟩ := callsBack_iff.mp hback
  have hpositive : 1 ≤ Callback.trips callback := by
    unfold Callback.trips
    split <;> omega
  have hcounts := (counts_eraseIdx request hcall).2
  rw [Callback.tripsFor, if_pos hrequest] at hcounts
  dsimp only at hcounts
  omega

structure Untouched (request : Nat) (s t : App) : Prop where
  answers : t.answers request = s.answers request
  inFlight : t.inFlight request = s.inFlight request
  callsLeft : t.callsLeft request = s.callsLeft request
  next : s.nextRequest ≤ t.nextRequest

theorem Extends.untouched {newCall : Call → Prop} {newOutput : Output → Prop}
    (h : Extends newCall newOutput s t)
    (hcall : ∀ call, newCall call → Callback.request call.callback ≠ some request)
    (houtput : ∀ o, newOutput o → Output.request o ≠ some request) :
    Untouched request s t := by
  obtain ⟨⟨cs, hc, hcs⟩, ⟨os, ho, hos⟩, hr, _⟩ := h
  have hother : ∀ call ∈ cs, Callback.request call.callback ≠ some request :=
    fun call hmem => hcall call (hcs call hmem)
  constructor
  · rw [App.answers, App.answers, ho, List.countP_append, Nat.add_eq_left]
    apply List.countP_eq_zero.mpr
    intro o hmem
    simpa using houtput o (hos o hmem)
  · rw [App.inFlight, App.inFlight, callbacks, callbacks, hc, List.map_append,
      List.countP_append, Nat.add_eq_left]
    apply List.countP_eq_zero.mpr
    intro callback hmem
    obtain ⟨call, hcallmem, rfl⟩ := List.mem_map.mp hmem
    simpa using hother call hcallmem
  · rw [App.callsLeft, App.callsLeft, callbacks, callbacks, hc, List.map_append,
      List.map_append, List.sum_append, Nat.add_eq_left]
    apply List.sum_eq_zero_iff_forall_eq_nat.mpr
    intro trips hmem
    obtain ⟨callback, hcallback, rfl⟩ := List.mem_map.mp hmem
    obtain ⟨call, hcallmem, rfl⟩ := List.mem_map.mp hcallback
    exact tripsFor_of_ne (hother call hcallmem)
  · exact hr.ge

theorem Extends.request_untouched {other : Nat} (h : RequestEffect other s t)
    (hne : other ≠ request) : Untouched request s t := by
  apply h.untouched
  · intro call hcall hsame
    exact hne (Option.some.inj (hcall.symm.trans hsame))
  · intro o ho hsame
    exact hne (ho.1 request hsame).symm

theorem Extends.silent_untouched (h : Silent s t) : Untouched request s t := by
  apply h.untouched
  · intro call hcall hsame
    exact Option.some_ne_none _ (hsame.symm.trans hcall)
  · intro o ho hsame
    exact Option.some_ne_none _ (hsame.symm.trans ho.1)

end Counting

/-! ## Handling a request -/

/-- The request is answered, or passed to one more callback with at most `trips` calls
left, unless the process ends here. -/
structure Hands (request trips : Nat) (s t : App) : Prop where
  atMost : t.answers request + t.inFlight request ≤ s.answers request + s.inFlight request + 1
  once : t.aborted = false →
    t.answers request + t.inFlight request = s.answers request + s.inFlight request + 1
  trips : t.callsLeft request ≤ s.callsLeft request + trips

namespace Hands

variable {s t u : App} {request k : Nat}

theorem of_once
    (h : t.answers request + t.inFlight request = s.answers request + s.inFlight request + 1)
    (htrips : t.callsLeft request ≤ s.callsLeft request + k) : Hands request k s t :=
  ⟨h.le, fun _ => h, htrips⟩

theorem answered {o : Output} (h : Output.request o = some request) (k : Nat) :
    Hands request k s (s.output o) := by
  refine of_once ?_ (Nat.le_add_right _ k)
  rw [answers_output, if_pos h]
  exact Nat.add_right_comm _ 1 _

theorem passed {operation : Operation} {callback : Callback}
    (h : Callback.request callback = some request) (hk : Callback.trips callback ≤ k) :
    Hands request k s (s.call operation callback) := by
  apply of_once
  · rw [inFlight_call, if_pos h]
    rfl
  · rw [callsLeft_call, Callback.tripsFor, if_pos h]
    exact Nat.add_le_add_left hk _

theorem mono {k' : Nat} (h : Hands request k s t) (hk : k ≤ k') : Hands request k' s t :=
  ⟨h.atMost, h.once, h.trips.trans (Nat.add_le_add_left hk _)⟩

theorem after_untouched (h : Hands request k t u) (hs : Untouched request s t) :
    Hands request k s u := by
  constructor
  · rw [← hs.answers, ← hs.inFlight]
    exact h.atMost
  · intro halive
    rw [h.once halive, hs.answers, hs.inFlight]
  · rw [← hs.callsLeft]
    exact h.trips

theorem saveCompleted (ids : ProverbIdentifiers) (result : Except AppError Proverb) (k : Nat) :
    Hands request k s (s.saveCompleted request ids result) := by
  cases result with
  | ok proverb =>
      exact (answered rfl k).after_untouched
        (Extends.silent_untouched (Extends.output ⟨rfl, rfl⟩))
  | error error => exact answered rfl k

theorem deleteCompleted (ids : ProverbIdentifiers) (error : Option AppError) (k : Nat) :
    Hands request k s (s.deleteCompleted request ids error) := by
  cases error with
  | none =>
      exact (answered rfl k).after_untouched
        (Extends.silent_untouched (Extends.output ⟨rfl, rfl⟩))
  | some error => exact answered rfl k

theorem deleteRemote (ids : ProverbIdentifiers) (proverb : FFavoriteProverb) :
    Hands request 1 s (s.deleteRemote request ids proverb) := by
  unfold App.deleteRemote
  split
  · exact deleteCompleted ids _ 1
  · split
    · exact ⟨Nat.le_succ _, nofun, Nat.le_succ _⟩
    · exact passed rfl (Nat.le_refl _)
    · exact deleteCompleted ids _ 1

theorem favoriteFound (ids : ProverbIdentifiers) (result : Except AppError FFavoriteProverb) :
    Hands request 1 s (s.favoriteFound request ids result) := by
  cases result with
  | ok proverb => exact deleteRemote ids proverb
  | error error => exact deleteCompleted ids (some error) 1

theorem checkAndDeleteRemote (ids : ProverbIdentifiers) {proverb : Proverb}
    (hstorage : ∀ rProverb, proverb = .rProverb rProverb → s.remoteStorage ≠ none) :
    Hands request 2 s (s.checkAndDeleteRemote proverb request ids) := by
  cases proverb with
  | rProverb proverb =>
      simp only [App.checkAndDeleteRemote]
      split
      · rename_i hnone
        exact absurd hnone (hstorage proverb rfl)
      · split
        · exact passed rfl (Nat.le_refl _)
        · exact (favoriteFound ids _).mono (by decide)
  | rFavorite f => exact deleteCompleted ids (some (.manager .isNotFavorite)) 2
  | fFavorite f => exact (deleteRemote ids f).mono (by decide)

theorem chackAndSaveRemote (ids : ProverbIdentifiers) (proverb : Proverb)
    (random : Identifier) (now : Date) :
    Hands request 1 s (s.chackAndSaveRemote proverb request ids random now) := by
  cases proverb with
  | rProverb proverb =>
      simp only [App.chackAndSaveRemote]
      split
      · exact saveCompleted ids _ 1
      · split
        · exact passed rfl (Nat.le_refl _)
        · exact saveCompleted ids _ 1
  | rFavorite f => exact saveCompleted ids (.error (.manager .isFavorite)) 1
  | fFavorite f => exact saveCompleted ids (.error (.manager .isFavorite)) 1

theorem getAll : Hands request 1 s (s.getAll request) := by
  unfold App.getAll
  split
  · split <;> exact answered rfl 1
  · split
    · exact answered rfl 1
    · split
      · exact passed rfl (Nat.le_refl _)
      · exact answered rfl 1

theorem save {proverb : Proverb} {random : Identifier} {now : Date}
    (hs : s.save proverb request random now = some t) : Hands request 1 s t := by
  let called := s.output (.saveCalled request s.isPurchased s.storedCount)
  have hrecorded : Extends (fun _ => False) (fun o => Output.request o = none) s called :=
    Extends.output rfl
  have hcalled : Untouched request s called := by
    apply hrecorded.untouched
    · exact fun _ hcall => hcall.elim
    · exact fun o ho hsame => Option.some_ne_none _ (hsame.symm.trans ho)
  simp only [App.save] at hs
  split at hs
  · split at hs
    · have hlocal : Untouched request called (called.checkAndSaveLocal proverb random now).1 :=
        Extends.silent_untouched (Extends.checkAndSaveLocal proverb random now)
      rw [← Option.some.inj hs]
      exact ((saveCompleted _ _ 1).after_untouched hlocal).after_untouched hcalled
    · rw [← Option.some.inj hs]
      exact (chackAndSaveRemote _ proverb random now).after_untouched hcalled
  · cases hs

theorem delete {proverb : Proverb}
    (hstorage : ∀ rProverb, proverb = .rProverb rProverb → s.isLocalStorage = false →
      s.remoteStorage ≠ none) (hs : s.delete proverb request = some t) : Hands request 2 s t := by
  simp only [App.delete] at hs
  split at hs
  · split at hs
    · obtain ⟨⟨u, error⟩, hu, rfl⟩ := Option.map_eq_some_iff.mp hs
      apply (deleteCompleted _ error 2).after_untouched
      exact Extends.silent_untouched (Extends.checkAndDeleteLocal hu)
    · rename_i hremote
      rw [← Option.some.inj hs]
      refine checkAndDeleteRemote _ fun rProverb h => ?_
      exact hstorage rProverb h (by simpa using hremote)
  · cases hs

theorem isFavorite {proverb : Proverb} {random : Identifier} {now : Date}
    (hs : s.isFavorite proverb (.answer request) random now = some t) : Hands request 1 s t := by
  unfold App.isFavorite at hs
  split at hs
  · rw [← Option.some.inj hs]
    exact answered rfl 1
  · cases proverb with
    | rProverb proverb =>
        simp only [isFavoriteRemote] at hs
        split at hs
        · rw [← Option.some.inj hs]
          exact answered rfl 1
        · split at hs
          · rw [← Option.some.inj hs]
            exact passed rfl (Nat.le_refl _)
          · rw [← Option.some.inj hs]
            exact answered rfl 1
    | rFavorite f =>
        rw [← Option.some.inj hs]
        exact answered rfl 1
    | fFavorite f =>
        rw [← Option.some.inj hs]
        exact answered rfl 1

/-- A callback that is not the one of a toggle answers or passes the request on. -/
theorem called {callback : Callback} (hrequest : Callback.request callback = some request)
    (htrips : Callback.trips callback ≤ 2) {response : Response} {random : Identifier}
    {now : Date} (hs : s.called callback response random now = some t) :
    Hands request (Callback.trips callback - 1) s t := by
  cases callback with
  | getAll other =>
      obtain rfl := Option.some.inj hrequest
      rw [← Option.some.inj hs]
      exact answered rfl 0
  | isFavorite completion =>
      cases completion with
      | answer other =>
          obtain rfl := Option.some.inj hrequest
          rw [← Option.some.inj hs]
          exact answered rfl 0
      | checkAndSaveOrDelete other proverb => exact absurd htrips (Nat.lt_irrefl 2)
  | save other ids proverb =>
      obtain rfl := Option.some.inj hrequest
      rw [← Option.some.inj hs]
      exact saveCompleted ids _ 0
  | getFavorite other ids =>
      obtain rfl := Option.some.inj hrequest
      rw [← Option.some.inj hs]
      exact favoriteFound ids _
  | delete other ids =>
      obtain rfl := Option.some.inj hrequest
      rw [← Option.some.inj hs]
      exact deleteCompleted ids _ 0
  | userDocumentLoaded | userCreated | favoritesFetched | favoritesUploaded =>
      exact absurd hrequest (by simp [Callback.request])

end Hands

/-! ## Steps -/

section Steps

variable {s s' : App} {request : Nat}

theorem Untouched.trans {t : App} (h : Untouched request s s') (h' : Untouched request s' t) :
    Untouched request s t where
  answers := h'.answers.trans h.answers
  inFlight := h'.inFlight.trans h.inFlight
  callsLeft := h'.callsLeft.trans h.callsLeft
  next := h.next.trans h'.next

theorem untouched_takeRequest : Untouched request s s.takeRequest :=
  ⟨rfl, rfl, rfl, Nat.le_succ _⟩

theorem untouched_serve (index : Nat) (outcome : Outcome) :
    Untouched request s (s.serve index outcome) := by
  have hcallbacks : (s.serve index outcome).callbacks = s.callbacks :=
    callbacks_serve s index outcome
  constructor
  · unfold serve
    split <;> rfl
  · rw [inFlight, hcallbacks]
    rfl
  · rw [callsLeft, hcallbacks]
    rfl
  · unfold serve
    split <;> exact Nat.le_refl _

theorem untouched_deliver {index : Nat} {random : Identifier} {now : Date}
    (hback : ¬ CallsBack request s ⟨.deliver index, random, now⟩)
    (h : s.deliver index random now = some s') : Untouched request s s' := by
  unfold deliver at h
  split at h
  · rename_i operation callback response hcall
    have hother : Callback.request callback ≠ some request :=
      fun hrequest => hback (callsBack_iff.mpr ⟨index, _, _, _, rfl, hcall, hrequest⟩)
    obtain ⟨hinFlight, hcallsLeft⟩ := counts_eraseIdx request hcall
    rw [if_neg hother] at hinFlight
    rw [tripsFor_of_ne hother] at hcallsLeft
    let t : App := { s with calls := s.calls.eraseIdx index }
    have herased : Untouched request s t := ⟨rfl, hinFlight, hcallsLeft, Nat.le_refl _⟩
    rcases called_effect h with ⟨other, hrequest, heffect⟩ | ⟨_, hmigrates⟩
    · apply herased.trans (heffect.request_untouched _)
      rintro rfl
      exact hother hrequest
    · exact herased.trans hmigrates.migration_silent.silent_untouched
  · rw [← Option.some.inj h]
    exact ⟨rfl, rfl, rfl, Nat.le_refl _⟩

/-- Only its own callbacks touch a request once its number is drawn. -/
theorem step_untouched {input : Input} (hlt : request < s.nextRequest)
    (hlaunch : isLaunch input.event = false) (hback : ¬ CallsBack request s input)
    (h : step s input = some s') : Untouched request s s' := by
  cases step_effect h with
  | launched throws => simp [isLaunch] at hlaunch
  | requested _ heffect =>
      exact untouched_takeRequest.trans (heffect.request_untouched hlt.ne')
  | account _ heffect =>
      rcases heffect with heffect | heffect
      · exact heffect.account_silent.silent_untouched
      · exact untouched_takeRequest.trans heffect.account_silent.silent_untouched
  | served index outcome _ _ hserve =>
      rw [hserve]
      exact untouched_serve index outcome
  | delivered index _ _ hdeliver => exact untouched_deliver hback hdeliver
  | realmWrites _ _ _ hwrites =>
      rw [hwrites]
      exact ⟨rfl, rfl, rfl, Nat.le_refl _⟩

/-- One of its callbacks keeps the sum, if the process goes on, and uses up a call. -/
theorem step_callsBack {input : Input} (htrips : s.callsLeft request ≤ 2)
    (hback : CallsBack request s input) (hs : step s input = some s') :
    (s'.aborted = false →
        s'.answers request + s'.inFlight request = s.answers request + s.inFlight request) ∧
      s'.callsLeft request + 1 ≤ s.callsLeft request ∧ s.nextRequest ≤ s'.nextRequest := by
  obtain ⟨event, random, now⟩ := input
  obtain ⟨index, operation, callback, response, rfl, hcall, hrequest⟩ := callsBack_iff.mp hback
  let erased : App := { s with calls := s.calls.eraseIdx index }
  have hcounts := counts_eraseIdx request hcall
  rw [Callback.tripsFor, if_pos hrequest, if_pos hrequest] at hcounts
  have hinFlight : erased.inFlight request + 1 = s.inFlight request := hcounts.1
  have hcallsLeft : erased.callsLeft request + Callback.trips callback =
      s.callsLeft request := hcounts.2
  have hpositive : 1 ≤ Callback.trips callback := by
    unfold Callback.trips
    split <;> omega
  have hrun : erased.called callback response random now = some s' := by
    simpa only [step, deliver, hcall] using hs
  have hands := Hands.called hrequest (by omega) hrun
  have hleft := hands.trips
  refine ⟨?_, by omega, ?_⟩
  · intro halive
    rw [hands.once halive, Nat.add_assoc, hinFlight]
    rfl
  · rcases called_effect hrun with ⟨_, _, heffect⟩ | ⟨_, heffect⟩
    · exact heffect.request.ge
    · exact heffect.request.ge

/-- A callback that is not the one of a toggle reads no object of Realm and writes none. -/
theorem crashes_iff_of_callsBack {input : Input} (htrips : s.callsLeft request ≤ 2)
    (hback : CallsBack request s input) :
    s.Crashes input ↔ ∃ identifier ∈ s.addressedBy input, isDocumentPath identifier = false := by
  obtain ⟨event, random, now⟩ := input
  obtain ⟨index, operation, callback, response, rfl, hcall, hrequest⟩ := callsBack_iff.mp hback
  have htripsLeft : Callback.trips callback ≤ s.callsLeft request := by
    rw [← (counts_eraseIdx request hcall).2, Callback.tripsFor, if_pos hrequest]
    exact Nat.le_add_left _ _
  have hnone : s.readByCallback callback response = [] ∧
      s.writtenByCallback callback response = false := by
    cases callback with
    | isFavorite completion =>
        cases completion with
        | answer other => exact ⟨rfl, rfl⟩
        | checkAndSaveOrDelete other proverb =>
            exact absurd (htripsLeft.trans htrips) (Nat.lt_irrefl 2)
    | getAll | save | getFavorite | delete => exact ⟨rfl, rfl⟩
    | userDocumentLoaded | userCreated | favoritesFetched | favoritesUploaded =>
        exact absurd hrequest (by simp [Callback.request])
  simp [Crashes, Traps, readBy, writtenBy, hcall, hnone.1, hnone.2]

end Steps

end Proverbs.App
