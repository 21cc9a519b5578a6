import Proverbs.Managers.RequestAnswers

/-! # How a toggle is answered

A toggle may make three calls of Firestore: it looks for the proverb, for the favourite to
be deleted, and changes the collection. In every state at most one callback or answer of
it exists. It never gets lost as long as a `remoteStorage` is there in remote mode.
-/

namespace Proverbs.App

def Output.completes (request : Nat) : Output → Bool
  | .saved other _ | .deleted other _ => other = request
  | _ => false

def Callback.changes (request : Nat) : Callback → Bool
  | .isFavorite (.checkAndSaveOrDelete other _) => other = request
  | .save other _ _ | .getFavorite other _ | .delete other _ => other = request
  | _ => false

theorem Output.request_of_completes {o : Output} {request : Nat}
    (h : Output.completes request o = true) : Output.request o = some request := by
  cases o with
  | saved other result => exact congrArg some (of_decide_eq_true h)
  | deleted other error => exact congrArg some (of_decide_eq_true h)
  | _ => simp [Output.completes] at h

def completed (s : App) (request : Nat) : Bool := s.outputs.any (Output.completes request)

/-- In remote mode there is a storage to ask. -/
def StorageReady (s : App) : Prop := s.isLocalStorage = false → s.remoteStorage ≠ none

instance (s : App) : Decidable s.StorageReady := inferInstanceAs (Decidable (_ → _))

/-- The change has been answered, or a callback goes on with it. -/
def Owes (request : Nat) (s : App) : Prop :=
  s.completed request = true ∨ ∃ callback ∈ s.callbacks, Callback.changes request callback = true

/-- No request has two answers, or an answer and a callback that may answer it. -/
def AtMostOnce (s : App) : Prop := ∀ request, s.answers request + s.inFlight request ≤ 1

/-! ## What a step leaves -/

section Leaves

variable {s s' : App} {request : Nat} {input : Input}

theorem completed_iff :
    s.completed request = true ↔ ∃ o ∈ s.outputs, Output.completes request o = true :=
  List.any_eq_true

theorem completed_append {outputs : List Output} (h : s'.outputs = s.outputs ++ outputs) :
    s'.completed request = (s.completed request || outputs.any (Output.completes request)) := by
  rw [completed, completed, h, List.any_append]

/-- In this process nothing that has been handed out is taken back. -/
theorem outputs_of_step (hlaunch : isLaunch input.event = false) (hs : step s input = some s') :
    ∃ outputs, s'.outputs = s.outputs ++ outputs := by
  cases step_effect hs with
  | launched throws => simp [isLaunch] at hlaunch
  | requested _ heffect => exact heffect.outputs.imp fun _ h => h.1
  | account _ heffect =>
      rcases heffect with heffect | heffect
      · exact heffect.outputs.imp fun _ h => h.1
      · exact heffect.outputs.imp fun _ h => h.1
  | served index outcome _ _ hserve =>
      refine ⟨[], ?_⟩
      rw [hserve, serve, List.append_nil]
      split <;> rfl
  | delivered index random now hdeliver =>
      unfold deliver at hdeliver
      split at hdeliver
      · rcases called_effect hdeliver with ⟨_, _, heffect⟩ | ⟨_, heffect⟩
        · exact heffect.outputs.imp fun _ h => h.1
        · exact heffect.outputs.imp fun _ h => h.1
      · exact ⟨[], by rw [← Option.some.inj hdeliver, List.append_nil]⟩
  | realmWrites _ _ _ hwrites => exact ⟨[], by rw [hwrites, List.append_nil]⟩

theorem Extends.callbacks_subset {newCall : Call → Prop} {newOutput : Output → Prop}
    (h : Extends newCall newOutput s s') : s.callbacks ⊆ s'.callbacks := by
  obtain ⟨calls, hcalls, _⟩ := h.calls
  intro callback hmem
  rw [callbacks, hcalls, List.map_append]
  exact List.mem_append_left _ hmem

theorem callbacks_of_step (hlaunch : isLaunch input.event = false)
    (hs : step s input = some s') {callback : Callback} (hmem : callback ∈ s.callbacks) :
    callback ∈ s'.callbacks ∨ ∃ index operation response,
      input.event = .deliver index ∧ s.calls[index]? = some ⟨operation, callback, some response⟩ ∧
        { s with calls := s.calls.eraseIdx index }.called callback response input.random
          input.now = some s' := by
  cases step_effect hs with
  | launched throws => simp [isLaunch] at hlaunch
  | requested _ heffect => exact Or.inl (heffect.callbacks_subset hmem)
  | account _ heffect =>
      rcases heffect with heffect | heffect
      · exact Or.inl (heffect.callbacks_subset hmem)
      · exact Or.inl (heffect.callbacks_subset hmem)
  | served index outcome _ _ hserve =>
      refine Or.inl ?_
      rw [hserve, callbacks, callbacks_serve]
      exact hmem
  | delivered index random now hdeliver =>
      unfold deliver at hdeliver
      split at hdeliver
      · rename_i operation ran response hcall
        by_cases hsame : callback = ran
        · exact Or.inr ⟨index, operation, response, rfl, hsame ▸ hcall, hsame ▸ hdeliver⟩
        · refine Or.inl ?_
          have hleft : callback ∈ (s.calls.eraseIdx index).map Call.callback := by
            obtain ⟨call, hcallMem, rfl⟩ := List.mem_map.mp hmem
            refine List.mem_map_of_mem (List.mem_eraseIdx_iff_getElem?.mpr ?_)
            obtain ⟨other, hother⟩ := List.mem_iff_getElem?.mp hcallMem
            refine ⟨other, ?_, hother⟩
            rintro rfl
            rw [hcall] at hother
            exact hsame (Option.some.inj hother ▸ rfl)
          rcases called_effect hdeliver with ⟨_, _, heffect⟩ | ⟨_, heffect⟩
          · exact heffect.callbacks_subset hleft
          · exact heffect.callbacks_subset hleft
      · exact Or.inl (Option.some.inj hdeliver ▸ hmem)
  | realmWrites _ _ _ hwrites =>
      rw [hwrites]
      exact Or.inl hmem

end Leaves

/-! ## Nothing is lost -/

namespace Owes

variable {s t : App} {request : Nat}

theorem output {o : Output} (h : Output.completes request o = true) :
    Owes request (s.output o) :=
  Or.inl (completed_iff.mpr ⟨o, List.mem_append_right _ (List.mem_singleton_self o), h⟩)

theorem call {operation : Operation} {callback : Callback}
    (h : Callback.changes request callback = true) : Owes request (s.call operation callback) := by
  refine Or.inr ⟨callback, ?_, h⟩
  rw [callbacks, App.call, List.map_append]
  exact List.mem_append_right _ (List.mem_singleton_self callback)

theorem saveCompleted (ids : ProverbIdentifiers) (result : Except AppError Proverb) :
    Owes request (s.saveCompleted request ids result) := by
  cases result <;> exact output (decide_eq_true rfl)

theorem deleteCompleted (ids : ProverbIdentifiers) (error : Option AppError) :
    Owes request (s.deleteCompleted request ids error) := by
  cases error <;> exact output (decide_eq_true rfl)

theorem deleteRemote (ids : ProverbIdentifiers) (proverb : FFavoriteProverb)
    (halive : (s.deleteRemote request ids proverb).aborted = false) :
    Owes request (s.deleteRemote request ids proverb) := by
  unfold App.deleteRemote at halive ⊢
  split
  · exact deleteCompleted ids _
  · rename_i remoteStorage hstorage
    simp only [hstorage] at halive
    split
    · rename_i hdelete
      simp [hdelete, abort] at halive
    · exact call (decide_eq_true rfl)
    · exact deleteCompleted ids _

theorem favoriteFound (ids : ProverbIdentifiers) (result : Except AppError FFavoriteProverb)
    (halive : (s.favoriteFound request ids result).aborted = false) :
    Owes request (s.favoriteFound request ids result) := by
  cases result with
  | ok proverb => exact deleteRemote ids proverb halive
  | error error => exact deleteCompleted ids (some error)

theorem checkAndDeleteRemote (ids : ProverbIdentifiers) (proverb : Proverb)
    (hstorage : s.remoteStorage ≠ none)
    (halive : (s.checkAndDeleteRemote proverb request ids).aborted = false) :
    Owes request (s.checkAndDeleteRemote proverb request ids) := by
  cases proverb with
  | rProverb proverb =>
      obtain ⟨remoteStorage, hsome⟩ := Option.ne_none_iff_exists'.mp hstorage
      simp only [App.checkAndDeleteRemote, hsome] at halive ⊢
      cases hlookup : remoteStorage.getFavorite proverb.identifier with
      | sent operation => exact call (decide_eq_true rfl)
      | answered result =>
          rw [hlookup] at halive
          exact favoriteFound ids result halive
  | rFavorite f => exact deleteCompleted ids _
  | fFavorite f => exact deleteRemote ids f halive

theorem chackAndSaveRemote (ids : ProverbIdentifiers) (proverb : Proverb) (random : Identifier)
    (now : Date) : Owes request (s.chackAndSaveRemote proverb request ids random now) := by
  cases proverb with
  | rProverb proverb =>
      simp only [App.chackAndSaveRemote]
      split
      · exact saveCompleted ids _
      · split
        · exact call (decide_eq_true rfl)
        · exact saveCompleted ids _
  | rFavorite f => exact saveCompleted ids _
  | fFavorite f => exact saveCompleted ids _

theorem save {proverb : Proverb} {random : Identifier} {now : Date}
    (hs : s.save proverb request random now = some t) : Owes request t := by
  unfold App.save at hs
  split at hs
  · dsimp only at hs
    split at hs
    · rw [← Option.some.inj hs]
      exact saveCompleted _ _
    · rw [← Option.some.inj hs]
      exact chackAndSaveRemote _ proverb random now
  · cases hs

theorem delete {proverb : Proverb} (hready : s.StorageReady) (halive : t.aborted = false)
    (hs : s.delete proverb request = some t) : Owes request t := by
  unfold App.delete at hs
  split at hs
  · dsimp only at hs
    split at hs
    · obtain ⟨⟨s', error⟩, _, rfl⟩ := Option.map_eq_some_iff.mp hs
      exact deleteCompleted _ error
    · rename_i hremote
      obtain rfl := Option.some.inj hs
      exact checkAndDeleteRemote _ proverb (hready (by simpa using hremote)) halive
  · cases hs

theorem checkCompleted {proverb : Proverb} {result : Bool} {random : Identifier} {now : Date}
    (hready : s.StorageReady) (halive : t.aborted = false)
    (hs : s.checkCompleted (.checkAndSaveOrDelete request proverb) result random now = some t) :
    Owes request t := by
  cases result with
  | true => exact delete hready halive hs
  | false => exact save hs

theorem isFavorite {proverb : Proverb} {random : Identifier} {now : Date}
    (hready : s.StorageReady) (halive : t.aborted = false)
    (hs : s.isFavorite proverb (.checkAndSaveOrDelete request proverb) random now = some t) :
    Owes request t := by
  unfold App.isFavorite at hs
  split at hs
  · exact checkCompleted hready halive hs
  · cases proverb with
    | rProverb proverb =>
        simp only [isFavoriteRemote] at hs
        split at hs
        · exact checkCompleted hready halive hs
        · split at hs
          · rw [← Option.some.inj hs]
            exact call (decide_eq_true rfl)
          · exact checkCompleted hready halive hs
    | rFavorite f =>
        simp only [isFavoriteRemote] at hs
        exact checkCompleted hready halive hs
    | fFavorite f =>
        simp only [isFavoriteRemote] at hs
        exact checkCompleted hready halive hs

theorem called {callback : Callback} {response : Response} {random : Identifier} {now : Date}
    (hchanges : Callback.changes request callback = true) (hready : s.StorageReady)
    (halive : t.aborted = false) (hs : s.called callback response random now = some t) :
    Owes request t := by
  cases callback with
  | isFavorite completion =>
      cases completion with
      | answer other => simp [Callback.changes] at hchanges
      | checkAndSaveOrDelete other proverb =>
          obtain rfl := of_decide_eq_true hchanges
          exact checkCompleted hready halive hs
  | save other ids proverb =>
      obtain rfl := of_decide_eq_true hchanges
      rw [← Option.some.inj hs]
      exact saveCompleted ids _
  | getFavorite other ids =>
      obtain rfl := of_decide_eq_true hchanges
      obtain rfl := Option.some.inj hs
      exact favoriteFound ids _ halive
  | delete other ids =>
      obtain rfl := of_decide_eq_true hchanges
      rw [← Option.some.inj hs]
      exact deleteCompleted ids _
  | _ => simp [Callback.changes] at hchanges

/-- A toggle stays owed, or is answered, as long as the process is there. -/
theorem step {input : Input} (h : Owes request s) (hready : s.StorageReady)
    (halive : t.aborted = false) (hlaunch : isLaunch input.event = false)
    (hs : App.step s input = some t) :
    Owes request t := by
  rcases h with hdone | ⟨callback, hmem, hchanges⟩
  · obtain ⟨outputs, houtputs⟩ := outputs_of_step hlaunch hs
    left
    rw [completed_append houtputs, hdone, Bool.true_or]
  · rcases callbacks_of_step hlaunch hs hmem with hkept | ⟨index, _, _, _, _, hrun⟩
    · exact Or.inr ⟨callback, hkept, hchanges⟩
    · have herased : StorageReady { s with calls := s.calls.eraseIdx index } := hready
      exact called hchanges herased halive hrun

end Owes

/-! ## Nothing is answered twice -/

section Once

variable {s s' t : App} {request : Nat}

/-- A deletion that cannot be carried out leaves everything as it was. -/
theorem once_delete {proverb : Proverb} (hs : s.delete proverb request = some t) :
    t.answers request + t.inFlight request ≤ s.answers request + s.inFlight request + 1 := by
  by_cases hstorage : ∀ rProverb, proverb = .rProverb rProverb → s.isLocalStorage = false →
      s.remoteStorage ≠ none
  · exact (Hands.delete hstorage hs).atMost
  · push Not at hstorage
    obtain ⟨rProverb, rfl, hlocal, hnone⟩ := hstorage
    have hsame : s = t := by
      simpa [delete, readable, hlocal, checkAndDeleteRemote, hnone] using hs
    rw [hsame]
    exact Nat.le_succ _

theorem once_checkCompleted {proverb : Proverb} {result : Bool} {random : Identifier}
    {now : Date}
    (hs : s.checkCompleted (.checkAndSaveOrDelete request proverb) result random now = some t) :
    t.answers request + t.inFlight request ≤ s.answers request + s.inFlight request + 1 := by
  cases result with
  | true => exact once_delete hs
  | false => exact (Hands.save hs).atMost

theorem once_isFavorite {proverb : Proverb} {random : Identifier} {now : Date}
    (hs : s.isFavorite proverb (.checkAndSaveOrDelete request proverb) random now = some t) :
    t.answers request + t.inFlight request ≤ s.answers request + s.inFlight request + 1 := by
  unfold isFavorite at hs
  split at hs
  · exact once_checkCompleted hs
  · cases proverb with
    | rProverb proverb =>
        simp only [isFavoriteRemote] at hs
        split at hs
        · exact once_checkCompleted hs
        · split at hs
          · rename_i operation _
            rw [← Option.some.inj hs]
            have hands : Hands request 3 s (s.call operation
                (.isFavorite (.checkAndSaveOrDelete request (.rProverb proverb)))) :=
              Hands.passed rfl (Nat.le_refl 3)
            exact hands.atMost
          · exact once_checkCompleted hs
    | rFavorite f =>
        simp only [isFavoriteRemote] at hs
        exact once_checkCompleted hs
    | fFavorite f =>
        simp only [isFavoriteRemote] at hs
        exact once_checkCompleted hs

theorem once_called {callback : Callback} {response : Response} {random : Identifier}
    {now : Date} (hrequest : Callback.request callback = some request)
    (hs : s.called callback response random now = some t) :
    t.answers request + t.inFlight request ≤ s.answers request + s.inFlight request + 1 := by
  by_cases htrips : Callback.trips callback ≤ 2
  · exact (Hands.called hrequest htrips hs).atMost
  · cases callback with
    | isFavorite completion =>
        cases completion with
        | answer other => exact absurd (Nat.le_succ 1) htrips
        | checkAndSaveOrDelete other proverb =>
            obtain rfl := Option.some.inj hrequest
            exact once_checkCompleted hs
    | getFavorite other ids => exact absurd (Nat.le_refl 2) htrips
    | _ => exact absurd (Nat.le_succ 1) htrips

/-- A number that has not been drawn yet has neither answers nor callbacks. -/
theorem Numbered.unused_of_le (h : Numbered s) (hle : s.nextRequest ≤ request) :
    s.answers request + s.inFlight request = 0 := by
  have hanswers : s.answers request = 0 := by
    apply List.countP_eq_zero.mpr
    intro o hmem hsame
    exact Nat.not_lt_of_le hle (h.output_lt o hmem _ (of_decide_eq_true hsame))
  have hinFlight : s.inFlight request = 0 := by
    apply List.countP_eq_zero.mpr
    intro callback hmem hsame
    exact Nat.not_lt_of_le hle (h.callback_lt callback hmem _ (of_decide_eq_true hsame))
  omega

theorem Numbered.not_completed (h : Numbered s) : s.completed s.nextRequest = false := by
  rw [Bool.eq_false_iff]
  intro hdone
  obtain ⟨o, hmem, hcompletes⟩ := completed_iff.mp hdone
  exact Nat.lt_irrefl _ (h.output_lt o hmem _ (Output.request_of_completes hcompletes))

theorem once_drawn (h : Numbered s) {input : Input} (hlaunch : isLaunch input.event = false)
    (hs : step s input = some t) :
    t.answers s.nextRequest + t.inFlight s.nextRequest ≤ 1 := by
  have hnew : s.takeRequest.answers s.nextRequest + s.takeRequest.inFlight s.nextRequest = 0 :=
    h.unused_of_le (Nat.le_refl _)
  have hnone : ∀ u : App, Untouched s.nextRequest s u →
      u.answers s.nextRequest + u.inFlight s.nextRequest ≤ 1 := by
    intro u huntouched
    rw [huntouched.answers, huntouched.inFlight, h.unused_of_le (Nat.le_refl _)]
    exact Nat.zero_le 1
  obtain ⟨event, random, now⟩ := input
  cases event with
  | launch throws => simp [isLaunch] at hlaunch
  | getAll =>
      have hands : Hands s.nextRequest 1 s.takeRequest (s.takeRequest.getAll s.nextRequest) :=
        Hands.getAll
      obtain rfl := Option.some.inj hs
      have honce := hands.atMost
      omega
  | isFavorite proverb =>
      have honce := (Hands.isFavorite (s := s.takeRequest) hs).atMost
      omega
  | save proverb =>
      have honce := (Hands.save (s := s.takeRequest) hs).atMost
      omega
  | delete proverb =>
      have honce := once_delete (s := s.takeRequest) hs
      omega
  | checkAndSaveOrDeleteFavorite proverb =>
      have honce := once_isFavorite (s := s.takeRequest) hs
      omega
  | serve index outcome =>
      obtain rfl := Option.some.inj hs
      exact hnone _ (untouched_serve index outcome)
  | deliver index =>
      apply hnone
      apply untouched_deliver ?_ hs
      intro hback
      obtain ⟨index, operation, callback, response, _, hcall, hrequest⟩ :=
        callsBack_iff.mp hback
      have hmem : callback ∈ s.callbacks :=
        List.mem_map_of_mem (f := Call.callback) (List.mem_of_getElem? hcall)
      exact Nat.lt_irrefl _ (h.callback_lt callback hmem _ hrequest)
  | realmWrites throw =>
      obtain rfl := Option.some.inj hs
      exact hnone _ ⟨rfl, rfl, rfl, Nat.le_refl _⟩
  | _ =>
      apply hnone
      rcases effect_step rfl hs with heffect | heffect
      · exact heffect.account_silent.silent_untouched
      · exact untouched_takeRequest.trans heffect.account_silent.silent_untouched

theorem nextRequest_of_step {input : Input} (hs : step s input = some t) :
    s.nextRequest ≤ t.nextRequest ∧ t.nextRequest ≤ s.nextRequest + 1 := by
  have hkept : ∀ {u : App}, u.nextRequest = s.nextRequest →
      s.nextRequest ≤ u.nextRequest ∧ u.nextRequest ≤ s.nextRequest + 1 :=
    fun h => ⟨h.ge, h.le.trans (Nat.le_succ _)⟩
  have hdrawn : ∀ {u : App}, u.nextRequest = s.takeRequest.nextRequest →
      s.nextRequest ≤ u.nextRequest ∧ u.nextRequest ≤ s.nextRequest + 1 :=
    fun h => ⟨(Nat.le_succ _).trans h.ge, h.le⟩
  cases step_effect hs with
  | launched throws _ _ hlaunch =>
      rw [hlaunch]
      exact hkept (effect_launch s throws).account_silent.request
  | requested _ heffect => exact hdrawn heffect.request
  | account _ heffect =>
      rcases heffect with heffect | heffect
      · exact hkept heffect.request
      · exact hdrawn heffect.request
  | served index outcome _ _ hserve =>
      apply hkept
      rw [hserve, serve]
      split <;> rfl
  | delivered index random now hdeliver =>
      apply hkept
      unfold deliver at hdeliver
      split at hdeliver
      · rcases called_effect hdeliver with ⟨_, _, heffect⟩ | ⟨_, heffect⟩
        · exact heffect.request
        · exact heffect.request
      · rw [← Option.some.inj hdeliver]
  | realmWrites _ _ _ hwrites => exact hkept (by rw [hwrites])

theorem AtMostOnce.step {input : Input} (h : AtMostOnce s) (hnumbered : Numbered s)
    (hlaunch : isLaunch input.event = false) (hs : App.step s input = some t) :
    AtMostOnce t := by
  intro request
  rcases Nat.lt_trichotomy request s.nextRequest with hlt | rfl | hgt
  · by_cases hback : CallsBack request s input
    · obtain ⟨event, random, now⟩ := input
      obtain ⟨index, operation, callback, response, rfl, hcall, hrequest⟩ :=
        callsBack_iff.mp hback
      have hs : App.called { s with calls := s.calls.eraseIdx index } callback response
          random now = some t := by
        simpa [App.step, deliver, hcall] using hs
      obtain ⟨hinFlight, -⟩ := counts_eraseIdx request hcall
      rw [if_pos hrequest] at hinFlight
      have honce := once_called hrequest hs
      have hbefore := h request
      have hanswers : ({ s with calls := s.calls.eraseIdx index } : App).answers request =
          s.answers request := rfl
      omega
    · have huntouched := step_untouched hlt hlaunch hback hs
      rw [huntouched.answers, huntouched.inFlight]
      exact h request
  · exact once_drawn hnumbered hlaunch hs
  · have hle : t.nextRequest ≤ request := (nextRequest_of_step hs).2.trans hgt
    rw [(numbered_step hnumbered hs).unused_of_le hle]
    exact Nat.zero_le 1

theorem atMostOnce_launch (s : App) (throws : Bool) : AtMostOnce (s.launch throws) := by
  intro request
  have huntouched : Untouched request s.restarted (s.launch throws) :=
    (effect_launch s throws).account_silent.silent_untouched
  rw [huntouched.answers, huntouched.inFlight]
  exact Nat.zero_le 1

theorem AtMostOnce.of_reachable {device : App} {throws : Bool}
    (h : Transition.Reachable App.step (device.launch throws) s) : AtMostOnce s := by
  have hboth : Numbered s ∧ AtMostOnce s := by
    apply h.invariant (I := fun s => Numbered s ∧ AtMostOnce s)
    · rintro s ⟨event, random, now⟩ t ⟨hnumbered, honce⟩ hs
      refine ⟨numbered_step hnumbered hs, ?_⟩
      cases event with
      | launch throws =>
          obtain rfl := Option.some.inj hs
          exact atMostOnce_launch s throws
      | _ => exact honce.step hnumbered rfl hs
    · exact ⟨numbered_launch device throws, atMostOnce_launch device throws⟩
  exact hboth.2

theorem AtMostOnce.not_completes {outputs : List Output} (h : AtMostOnce t)
    (houtputs : t.outputs = s.outputs ++ outputs) (hdone : s.completed request = true) :
    ∀ o ∈ outputs, Output.completes request o = false := by
  intro o hmem
  by_contra hcompletes
  obtain ⟨first, hfirst, hfirstCompletes⟩ := completed_iff.mp hdone
  have hsecond : Output.completes request o = true := by simpa using hcompletes
  have hone : 0 < s.answers request := List.countP_pos_iff.mpr
    ⟨first, hfirst, decide_eq_true (Output.request_of_completes hfirstCompletes)⟩
  have hother : 0 < outputs.countP fun o => Output.request o = some request :=
    List.countP_pos_iff.mpr ⟨o, hmem, decide_eq_true (Output.request_of_completes hsecond)⟩
  have htotal : t.answers request =
      s.answers request + outputs.countP fun o => Output.request o = some request := by
    rw [answers, houtputs, List.countP_append]
    rfl
  have hle := h request
  omega

end Once

end Proverbs.App
