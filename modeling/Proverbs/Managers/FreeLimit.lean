import Proverbs.Core.InFlight
import Proverbs.Managers.Effects

/-! # The free limit

Only `checkAndSaveLocal` looks at the limit. The remote path is chosen by the
cached plan, so it is open to a user who has lost the purchase as long as the
plan is stale. A save is followed from its call to its answer through the number
of its request, which at most one pending callback carries.
-/

namespace Proverbs.App

/-- A save called without a purchase and answered with success found its storage
below the limit. -/
def FreeLimitKept (s : App) : Prop :=
  ∀ request stored proverb, Output.saveCalled request false stored ∈ s.outputs →
    Output.saved request (.ok proverb) ∈ s.outputs → stored < freeMaxCount

/-- The step calls `save` with a catalogue proverb: directly, or because the query
of a toggle came back without a favourite. -/
def SaveDue (s : App) (input : Input) : Prop :=
  match input.event with
  | .save (.rProverb _) => True
  | .deliver index =>
      ∃ operation request proverb response,
        s.calls[index]? =
          some ⟨operation, .isFavorite (.checkAndSaveOrDelete request (.rProverb proverb)),
            some response⟩ ∧
        FirestoreManager.isFavoriteResult response = false
  | _ => False

def LimitGuarded (s : App) : Prop :=
  s.isPurchased = true ∨ s.isLocalStorage = true ∨ s.remoteCount < freeMaxCount

/-! ## The log of saves -/

def pendingSaves (s : App) : List Nat :=
  (s.calls.map Call.callback).filterMap Callback.saveRequest

/-- What the outputs and the pending callbacks say about each request. -/
structure SaveLog (s : App) : Prop where
  pending_lt : ∀ request ∈ s.pendingSaves, request < s.nextRequest
  nodup : s.pendingSaves.Nodup
  called_lt : ∀ request b n, Output.saveCalled request b n ∈ s.outputs → request < s.nextRequest
  saved_lt : ∀ request result, Output.saved request result ∈ s.outputs → request < s.nextRequest
  unanswered : ∀ request ∈ s.pendingSaves, ∀ proverb,
    Output.saved request (.ok proverb) ∉ s.outputs
  capped : ∀ request n, Output.saveCalled request false n ∈ s.outputs →
    n < freeMaxCount ∨ (request ∉ s.pendingSaves ∧ ∀ proverb,
      Output.saved request (.ok proverb) ∉ s.outputs)

theorem SaveLog.freeLimitKept {s : App} (h : SaveLog s) : FreeLimitKept s := by
  intro request stored proverb hcalled hsaved
  rcases h.capped request stored hcalled with hlt | ⟨_, hnot⟩
  · exact hlt
  · exact absurd hsaved (hnot proverb)

/-- The request is being handled: no callback carries it, and it is still open. -/
structure OpenRequest (request : Nat) (s : App) : Prop where
  lt : request < s.nextRequest
  notPending : request ∉ s.pendingSaves
  notSaved : ∀ proverb, Output.saved request (.ok proverb) ∉ s.outputs
  under : ∀ n, Output.saveCalled request false n ∈ s.outputs → n < freeMaxCount

/-- What may be added to the log for an open request: a callback that carries it,
or an answer, and an answer of success only below the limit. -/
theorem SaveLog.append {s t : App} {request : Nat} (h : SaveLog s) (hopen : OpenRequest request s)
    (os : List Output) (extra : List Nat) (houtputs : t.outputs = s.outputs ++ os)
    (hrequest : t.nextRequest = s.nextRequest) (hpending : t.pendingSaves = s.pendingSaves ++ extra)
    (hextra : extra = [] ∨ extra = [request])
    (hcalled : ∀ r b n, Output.saveCalled r b n ∈ os → r = request)
    (hsaved : ∀ r result, Output.saved r result ∈ os → r = request)
    (hwaits : request ∈ extra → ∀ proverb, Output.saved request (.ok proverb) ∉ os)
    (hlimit : ∀ n, Output.saveCalled request false n ∈ os →
      n < freeMaxCount ∨ (extra = [] ∧ ∀ proverb, Output.saved request (.ok proverb) ∉ os)) :
    SaveLog t := by
  have honly : ∀ r ∈ extra, r = request := by
    rcases hextra with rfl | rfl <;> simp
  constructor
  case pending_lt =>
    intro r hr
    rw [hpending, List.mem_append] at hr
    rw [hrequest]
    rcases hr with hr | hr
    · exact h.pending_lt r hr
    · rw [honly r hr]
      exact hopen.lt
  case nodup =>
    rw [hpending]
    rcases hextra with rfl | rfl
    · simpa using h.nodup
    · refine List.nodup_append.mpr ⟨h.nodup, List.nodup_singleton _, ?_⟩
      intro a ha b hb
      rw [List.mem_singleton.mp hb]
      exact fun e => hopen.notPending (e ▸ ha)
  case called_lt =>
    intro r b n hr
    rw [houtputs, List.mem_append] at hr
    rw [hrequest]
    rcases hr with hr | hr
    · exact h.called_lt r b n hr
    · rw [hcalled r b n hr]
      exact hopen.lt
  case saved_lt =>
    intro r result hr
    rw [houtputs, List.mem_append] at hr
    rw [hrequest]
    rcases hr with hr | hr
    · exact h.saved_lt r result hr
    · rw [hsaved r result hr]
      exact hopen.lt
  case unanswered =>
    intro r hr proverb hout
    rw [hpending, List.mem_append] at hr
    rw [houtputs, List.mem_append] at hout
    rcases hr with hr | hr
    · rcases hout with hout | hout
      · exact h.unanswered r hr proverb hout
      · exact hopen.notPending (hsaved r _ hout ▸ hr)
    · obtain rfl := honly r hr
      rcases hout with hout | hout
      · exact hopen.notSaved proverb hout
      · exact hwaits hr proverb hout
  case capped =>
    intro r n hr
    rw [houtputs, List.mem_append] at hr
    simp only [hpending, houtputs, List.mem_append]
    by_cases hsame : r = request
    · subst hsame
      rcases hr with hr | hr
      · exact Or.inl (hopen.under n hr)
      · rcases hlimit n hr with hlt | ⟨rfl, hnot⟩
        · exact Or.inl hlt
        · refine Or.inr ⟨by simpa using hopen.notPending, ?_⟩
          rintro proverb (hout | hout)
          · exact hopen.notSaved proverb hout
          · exact hnot proverb hout
    · rcases hr with hr | hr
      · rcases h.capped r n hr with hlt | ⟨hnotPending, hnot⟩
        · exact Or.inl hlt
        · refine Or.inr ⟨?_, ?_⟩
          · rintro (hin | hin)
            · exact hnotPending hin
            · exact hsame (honly r hin)
          · rintro proverb (hout | hout)
            · exact hnot proverb hout
            · exact hsame (hsaved r _ hout)
      · exact absurd (hcalled r false n hr) hsame

theorem pendingSaves_of_quiet {s t : App} (h : Quiet s t) : t.pendingSaves = s.pendingSaves := by
  obtain ⟨cs, hcalls, hcs⟩ := h.calls
  have hnone : (cs.map Call.callback).filterMap Callback.saveRequest = [] := by
    rw [List.filterMap_map]
    exact List.filterMap_eq_nil_iff.mpr hcs
  rw [pendingSaves, hcalls, List.map_append, List.filterMap_append, hnone, List.append_nil]
  rfl

theorem SaveLog.quiet {s t : App} (h : SaveLog s) (hq : Quiet s t) : SaveLog t := by
  obtain ⟨os, houtputs, hos⟩ := hq.outputs
  have hpending := pendingSaves_of_quiet hq
  have hsaved : ∀ r result, Output.saved r result ∈ t.outputs →
      Output.saved r result ∈ s.outputs := by
    intro r result hr
    rw [houtputs, List.mem_append] at hr
    rcases hr with hr | hr
    · exact hr
    · exact absurd (hos _ hr) (by simp [isSaveOutput])
  have hcalled : ∀ r b n, Output.saveCalled r b n ∈ t.outputs →
      Output.saveCalled r b n ∈ s.outputs := by
    intro r b n hr
    rw [houtputs, List.mem_append] at hr
    rcases hr with hr | hr
    · exact hr
    · exact absurd (hos _ hr) (by simp [isSaveOutput])
  constructor
  · rw [hpending, hq.request]
    exact h.pending_lt
  · rw [hpending]
    exact h.nodup
  · intro r b n hr
    rw [hq.request]
    exact h.called_lt r b n (hcalled r b n hr)
  · intro r result hr
    rw [hq.request]
    exact h.saved_lt r result (hsaved r result hr)
  · intro r hr proverb hout
    rw [hpending] at hr
    exact h.unanswered r hr proverb (hsaved r _ hout)
  · intro r n hr
    rw [hpending]
    rcases h.capped r n (hcalled r false n hr) with hlt | ⟨hnotPending, hnot⟩
    · exact Or.inl hlt
    · exact Or.inr ⟨hnotPending, fun proverb hout => hnot proverb (hsaved r _ hout)⟩

/-! ## Requests that are being handled -/

theorem SaveLog.takeRequest {s : App} (h : SaveLog s) :
    SaveLog s.takeRequest ∧ OpenRequest s.nextRequest s.takeRequest := by
  constructor
  · constructor
    · intro r hr
      exact Nat.lt_succ_of_lt (h.pending_lt r hr)
    · exact h.nodup
    · intro r b n hr
      exact Nat.lt_succ_of_lt (h.called_lt r b n hr)
    · intro r result hr
      exact Nat.lt_succ_of_lt (h.saved_lt r result hr)
    · exact h.unanswered
    · exact h.capped
  · constructor
    · exact Nat.lt_succ_self _
    · exact fun hr => Nat.lt_irrefl _ (h.pending_lt _ hr)
    · exact fun proverb hr => Nat.lt_irrefl _ (h.saved_lt _ _ hr)
    · exact fun n hr => absurd (h.called_lt _ _ _ hr) (Nat.lt_irrefl _)

theorem SaveLog.eraseIdx {s : App} (h : SaveLog s) {index : Nat} {call : Call}
    (hcall : s.calls[index]? = some call) :
    SaveLog { s with calls := s.calls.eraseIdx index } ∧
      ∀ request, Callback.saveRequest call.callback = some request →
        OpenRequest request { s with calls := s.calls.eraseIdx index } := by
  let t : App := { s with calls := s.calls.eraseIdx index }
  have hsublist : t.pendingSaves.Sublist s.pendingSaves :=
    ((List.eraseIdx_sublist s.calls index).map _).filterMap _
  constructor
  · constructor
    · exact fun r hr => h.pending_lt r (hsublist.subset hr)
    · exact h.nodup.sublist hsublist
    · exact h.called_lt
    · exact h.saved_lt
    · exact fun r hr => h.unanswered r (hsublist.subset hr)
    · intro r n hr
      rcases h.capped r n hr with hlt | ⟨hnotPending, hnot⟩
      · exact Or.inl hlt
      · exact Or.inr ⟨fun hin => hnotPending (hsublist.subset hin), hnot⟩
  · intro request hrequest
    have hperm : s.pendingSaves.Perm (request :: t.pendingSaves) := by
      have hcalls := ((InFlight.perm_eraseIdx hcall).symm.map Call.callback).filterMap
        Callback.saveRequest
      rw [List.map_cons, List.filterMap_cons, hrequest] at hcalls
      exact hcalls
    have hmem : request ∈ s.pendingSaves := hperm.mem_iff.mpr List.mem_cons_self
    constructor
    · exact h.pending_lt request hmem
    · exact (List.nodup_cons.mp (hperm.nodup_iff.mp h.nodup)).1
    · exact h.unanswered request hmem
    · intro n hr
      rcases h.capped request n hr with hlt | ⟨hnotPending, _⟩
      · exact hlt
      · exact absurd hmem hnotPending

/-! ## Saving -/

section Save

variable {s s' : App} {request : Nat} {random : Identifier} {now : Date}

theorem checkAndSaveLocal_log (proverb : Proverb) (random : Identifier) (now : Date) :
    (s.checkAndSaveLocal proverb random now).1.calls = s.calls ∧
      (s.checkAndSaveLocal proverb random now).1.outputs = s.outputs ∧
      (s.checkAndSaveLocal proverb random now).1.nextRequest = s.nextRequest ∧
      ∀ p, (s.checkAndSaveLocal proverb random now).2 = .ok p →
        s.isPurchased = true ∨ s.getLocalCount < freeMaxCount := by
  cases proverb with
  | rFavorite f => exact ⟨rfl, rfl, rfl, by simp [checkAndSaveLocal]⟩
  | fFavorite f => exact ⟨rfl, rfl, rfl, by simp [checkAndSaveLocal]⟩
  | rProverb proverb =>
      simp only [checkAndSaveLocal]
      split
      · exact ⟨rfl, rfl, rfl, by simp⟩
      · rename_i hroom
        refine ⟨?_, ?_, ?_, fun p _ => ?_⟩
        · split <;> rfl
        · split <;> rfl
        · split <;> rfl
        · cases hp : s.isPurchased with
          | true => exact Or.inl rfl
          | false =>
              right
              simpa [hasRestriction, hp] using hroom

theorem SaveLog.answered (h : SaveLog s) (hopen : OpenRequest request s)
    (ids : ProverbIdentifiers) (result : Except AppError Proverb) {b : Bool} {n : Nat} {t : App}
    (hcalls : t.calls = s.calls) (houtputs : t.outputs = s.outputs ++ [.saveCalled request b n])
    (hrequest : t.nextRequest = s.nextRequest)
    (hlimit : ∀ p, result = .ok p → b = false → n < freeMaxCount) :
    SaveLog (t.saveCompleted request ids result) := by
  have hpending : t.pendingSaves = s.pendingSaves ++ [] := by
    rw [List.append_nil, pendingSaves, hcalls]
    rfl
  have hcalledOnce : ∀ os, (∀ r c m, Output.saveCalled r c m ∉ os) →
      ∀ r c m, Output.saveCalled r c m ∈ Output.saveCalled request b n :: os →
        r = request ∧ c = b ∧ m = n := by
    intro os hnone r c m hm
    rcases List.mem_cons.mp hm with hcalled | hlater
    · exact Output.saveCalled.inj hcalled
    · exact absurd hlater (hnone r c m)
  cases result with
  | ok p =>
      have hcalled := hcalledOnce [.didSave ids, .saved request (.ok p)] (by simp)
      refine h.append hopen _ [] ?_ hrequest hpending (Or.inl rfl)
        (fun r c m hm => (hcalled r c m hm).1) ?_ ?_ ?_
      · simp [saveCompleted, output, houtputs]
      · simp
      · simp
      · intro m hm
        obtain ⟨_, hb, hm⟩ := hcalled request false m hm
        rw [hm]
        exact Or.inl (hlimit p rfl hb.symm)
  | error error =>
      have hcalled := hcalledOnce [.saved request (.error error)] (by simp)
      refine h.append hopen _ [] ?_ hrequest hpending (Or.inl rfl)
        (fun r c m hm => (hcalled r c m hm).1) ?_ ?_ ?_
      · simp [saveCompleted, output, houtputs]
      · simp
      · simp
      · intro m _
        exact Or.inr ⟨rfl, by simp⟩

/-- The remote path waits for a write; nothing has compared the count. -/
theorem SaveLog.chackAndSaveRemote (h : SaveLog s) (hopen : OpenRequest request s)
    (ids : ProverbIdentifiers) (proverb : Proverb) {b : Bool} {n : Nat}
    (hlimit : (∃ p, proverb = .rProverb p) → b = false → n < freeMaxCount) :
    SaveLog ((s.output (.saveCalled request b n)).chackAndSaveRemote proverb request ids
      random now) := by
  let t := s.output (.saveCalled request b n)
  have herror : ∀ error : AppError, SaveLog (t.saveCompleted request ids (.error error)) := by
    intro error
    exact h.answered hopen ids (.error error) rfl rfl rfl (by simp)
  cases proverb with
  | rFavorite f => exact herror _
  | fFavorite f => exact herror _
  | rProverb proverb =>
      simp only [App.chackAndSaveRemote]
      split
      · exact herror _
      · rename_i manager hm
        cases hcollection : manager.favoritesCollection with
        | none =>
            simp only [FirestoreManager.save, hcollection]
            exact herror _
        | some user =>
            simp only [FirestoreManager.save, hcollection]
            refine h.append hopen [.saveCalled request b n] [request] rfl rfl ?_ (Or.inr rfl)
              ?_ ?_ ?_ ?_
            · simp [pendingSaves, call, output, Callback.saveRequest]
            · intro r c m hm
              simp only [List.mem_singleton, Output.saveCalled.injEq] at hm
              exact hm.1
            · simp
            · simp
            · intro m hm
              simp only [List.mem_singleton, Output.saveCalled.injEq, true_and] at hm
              rw [hm.2]
              exact Or.inl (hlimit ⟨proverb, rfl⟩ hm.1.symm)

theorem SaveLog.save (h : SaveLog s) (hopen : OpenRequest request s) {proverb : Proverb}
    (hguard : (∃ p, proverb = .rProverb p) → LimitGuarded s)
    (hs : s.save proverb request random now = some s') : SaveLog s' := by
  simp only [App.save] at hs
  split at hs
  · split at hs
    · rename_i hlocal
      rw [← Option.some.inj hs]
      let t := s.output (.saveCalled request s.isPurchased s.storedCount)
      obtain ⟨hcalls, houtputs, hrequest, hroom⟩ :=
        checkAndSaveLocal_log (s := t) proverb random now
      have hstored : s.storedCount = s.getLocalCount := if_pos hlocal
      refine h.answered hopen _ _ hcalls houtputs hrequest fun p hp hpurchase => ?_
      rcases hroom p hp with hpurchased | hlt
      · have hsame : s.isPurchased = true := hpurchased
        simp [hpurchase] at hsame
      · rw [hstored]
        exact hlt
    · rename_i hremote
      rw [← Option.some.inj hs]
      have hremote' : ¬ s.isLocalStorage = true := hremote
      have hstored : s.storedCount = s.remoteCount := if_neg hremote'
      refine h.chackAndSaveRemote hopen _ proverb fun hp hpurchase => ?_
      rcases hguard hp with hpurchased | hlocal | hlt
      · simp [hpurchase] at hpurchased
      · exact absurd hlocal hremote'
      · rw [hstored]
        exact hlt
  · simp at hs

theorem SaveLog.saveCompleted (h : SaveLog s) (hopen : OpenRequest request s)
    (ids : ProverbIdentifiers) (result : Except AppError Proverb) :
    SaveLog (s.saveCompleted request ids result) := by
  cases result with
  | ok p =>
      refine h.append hopen [.didSave ids, .saved request (.ok p)] [] ?_ rfl ?_ (Or.inl rfl)
        ?_ ?_ ?_ ?_
      · simp [App.saveCompleted, output]
      · rw [List.append_nil]
        rfl
      all_goals simp
  | error error =>
      refine h.append hopen [.saved request (.error error)] [] rfl rfl ?_ (Or.inl rfl)
        ?_ ?_ ?_ ?_
      · rw [List.append_nil]
        rfl
      all_goals simp

/-- A toggle goes on with a delete or, where no favourite was found, with a save. -/
theorem SaveLog.checkAndSaveOrDelete (h : SaveLog s) (hopen : OpenRequest request s)
    {proverb : Proverb} {result : Bool}
    (hguard : result = false → (∃ p, proverb = .rProverb p) → LimitGuarded s)
    (hs : s.checkCompleted (.checkAndSaveOrDelete request proverb) result random now = some s') :
    SaveLog s' := by
  simp only [checkCompleted] at hs
  split at hs
  · exact h.quiet (quiet_delete hs).quietRequest_quiet
  · rename_i hfalse
    exact h.save hopen (hguard (by simpa using hfalse)) hs

/-- A toggle that is answered at once in remote mode has no collection to write to. -/
theorem SaveLog.toggle (h : SaveLog s) (hopen : OpenRequest request s) {proverb : Proverb}
    (hs : s.isFavorite proverb (.checkAndSaveOrDelete request proverb) random now = some s') :
    SaveLog s' := by
  unfold isFavorite at hs
  split at hs
  · rename_i hlocal
    exact h.checkAndSaveOrDelete hopen (fun _ _ => Or.inr (Or.inl hlocal)) hs
  · cases proverb with
    | rFavorite f =>
        unfold isFavoriteRemote at hs
        exact h.checkAndSaveOrDelete hopen (by simp) hs
    | fFavorite f =>
        unfold isFavoriteRemote at hs
        exact h.checkAndSaveOrDelete hopen (by simp) hs
    | rProverb proverb =>
        have hnone : s.remoteCollection = none → LimitGuarded s := by
          intro hcollection
          right; right
          simp [remoteCount, hcollection, freeMaxCount]
        simp only [isFavoriteRemote] at hs
        split at hs
        · rename_i hm
          exact h.checkAndSaveOrDelete hopen
            (fun _ _ => hnone (by simp [remoteCollection, hm])) hs
        · rename_i manager hm
          cases hcollection : manager.favoritesCollection with
          | none =>
              simp only [FirestoreManager.isFavorite, hcollection] at hs
              exact h.checkAndSaveOrDelete hopen
                (fun _ _ => hnone (by simp [remoteCollection, hm, hcollection])) hs
          | some user =>
              simp only [FirestoreManager.isFavorite, hcollection] at hs
              rw [← Option.some.inj hs]
              refine h.append hopen [] [request] (by simp [call]) rfl ?_ (Or.inr rfl) ?_ ?_ ?_ ?_
              · simp [pendingSaves, call, Callback.saveRequest]
              all_goals simp

theorem quiet_isFavorite_answer {proverb : Proverb}
    (hs : s.isFavorite proverb (.answer request) random now = some s') : Quiet s s' := by
  have hanswer : ∀ result, s.checkCompleted (.answer request) result random now = some s' →
      Quiet s s' := by
    intro result hc
    rw [← Option.some.inj hc]
    exact Extends.output rfl
  unfold isFavorite at hs
  split at hs
  · exact hanswer _ hs
  · cases proverb with
    | rFavorite f => exact hanswer _ hs
    | fFavorite f => exact hanswer _ hs
    | rProverb proverb =>
        simp only [isFavoriteRemote] at hs
        split at hs
        · exact hanswer _ hs
        · split at hs
          · rw [← Option.some.inj hs]
            exact Extends.call rfl
          · exact hanswer _ hs

end Save

/-! ## Every step -/

section Step

variable {s s' : App} {random : Identifier} {now : Date}

theorem SaveLog.of_same (h : SaveLog s) (hpending : s'.pendingSaves = s.pendingSaves)
    (houtputs : s'.outputs = s.outputs) (hrequest : s'.nextRequest = s.nextRequest) :
    SaveLog s' := by
  constructor
  · rw [hpending, hrequest]
    exact h.pending_lt
  · rw [hpending]
    exact h.nodup
  · rw [houtputs, hrequest]
    exact h.called_lt
  · rw [houtputs, hrequest]
    exact h.saved_lt
  · rw [hpending, houtputs]
    exact h.unanswered
  · rw [hpending, houtputs]
    exact h.capped

theorem SaveLog.serve (h : SaveLog s) (index : Nat) (outcome : Outcome) :
    SaveLog (s.serve index outcome) := by
  refine h.of_same ?_ ?_ ?_
  · rw [pendingSaves, callbacks_serve]
    rfl
  · unfold App.serve
    split <;> rfl
  · unfold App.serve
    split <;> rfl

theorem SaveLog.deliver (h : SaveLog s) {index : Nat}
    (hguard : SaveDue s ⟨.deliver index, random, now⟩ → LimitGuarded s)
    (hs : s.deliver index random now = some s') : SaveLog s' := by
  unfold App.deliver at hs
  split at hs
  · rename_i operation callback response hcall
    obtain ⟨herase, hopen⟩ := h.eraseIdx hcall
    cases callback with
    | isFavorite completion =>
        cases completion with
        | answer request => exact herase.quiet (quiet_called rfl hs)
        | checkAndSaveOrDelete request proverb =>
            refine herase.checkAndSaveOrDelete (hopen request rfl) ?_ hs
            rintro hnot ⟨p, rfl⟩
            exact hguard ⟨operation, request, p, response, hcall, hnot⟩
    | save request ids proverb =>
        rw [← Option.some.inj hs]
        exact herase.saveCompleted (hopen request rfl) ids _
    | _ => exact herase.quiet (quiet_called rfl hs)
  · rw [← Option.some.inj hs]
    exact h

theorem saveLog_launch (s : App) (throws : Bool) : SaveLog (s.launch throws) := by
  refine SaveLog.quiet ?_ (effect_launch s throws).account_silent.silent_quiet
  constructor <;> simp [pendingSaves]

/-- Every step keeps the log, provided a save that is due is guarded. -/
theorem saveLog_step {input : Input} (h : SaveLog s)
    (hguard : SaveDue s input → LimitGuarded s) (hs : step s input = some s') : SaveLog s' := by
  obtain ⟨event, random, now⟩ := input
  obtain ⟨htake, hopen⟩ := h.takeRequest
  cases event with
  | launch throws =>
      rw [← Option.some.inj hs]
      exact saveLog_launch s throws
  | getAll =>
      rw [← Option.some.inj hs]
      exact htake.quiet (quiet_getAll _).quietRequest_quiet
  | isFavorite proverb => exact htake.quiet (quiet_isFavorite_answer hs)
  | save proverb =>
      refine htake.save hopen ?_ hs
      rintro ⟨p, rfl⟩
      exact hguard trivial
  | delete proverb => exact htake.quiet (quiet_delete hs).quietRequest_quiet
  | checkAndSaveOrDeleteFavorite proverb => exact htake.toggle hopen hs
  | serve index outcome =>
      rw [← Option.some.inj hs]
      exact h.serve index outcome
  | deliver index => exact h.deliver hguard hs
  | realmWrites throw =>
      rw [← Option.some.inj hs]
      exact h.quiet (.of_same rfl rfl rfl rfl)
  | _ =>
      rcases effect_step rfl hs with heffect | heffect
      · exact h.quiet heffect.account_silent.silent_quiet
      · exact htake.quiet heffect.account_silent.silent_quiet

end Step

/-- In every run from a launch in which each save of a catalogue proverb is called
with a purchase, on the local storage, or on a collection below the limit, the
free limit is kept in every state. -/
theorem free_limit_along (device : App) (throws : Bool) (inputs : List Input)
    (hguarded : Transition.Along step (fun s input => SaveDue s input → LimitGuarded s)
      (device.launch throws) inputs) :
    Transition.Along step (fun s _ => FreeLimitKept s) (device.launch throws) inputs ∧
      ∀ t, Transition.run step (device.launch throws) inputs = some t → FreeLimitKept t := by
  have hkeep : ∀ s input s', SaveLog s → (SaveDue s input → LimitGuarded s) →
      step s input = some s' → SaveLog s' := fun _ _ _ hs hguard h => saveLog_step hs hguard h
  have hlaunch := saveLog_launch device throws
  constructor
  · exact Transition.along_of_invariant hkeep (fun _ _ hs _ => hs.freeLimitKept) hlaunch hguarded
  · intro t ht
    exact (Transition.run_invariant hkeep hlaunch hguarded ht).freeLimitKept

def sixLocalSaves : List Input :=
  ["a", "b", "c", "d", "e", "f"].map fun name =>
    ⟨.save (.rProverb ⟨name, 0, "", "", "", false⟩), name, 0⟩

/-- The sixth one is refused. -/
theorem free_limit_along_sixth_save :
    ∃ t, Transition.run step (installed.launch false) sixLocalSaves = some t ∧
      t.getLocalCount = freeMaxCount ∧
      Output.saved 5 (.error (.manager (.maxLimit freeMaxCount))) ∈ t.outputs ∧
      FreeLimitKept t := by
  have hlocal : Transition.Along step (fun s _ => s.isLocalStorage = true)
      (installed.launch false) sixLocalSaves := by decide
  have hguarded := hlocal.mono (P := fun s input => SaveDue s input → LimitGuarded s)
    fun _ _ h _ => Or.inr (Or.inl h)
  exact ⟨_, rfl, by decide, by decide,
    (free_limit_along installed false sixLocalSaves hguarded).2 _ rfl⟩

/-- A save of a proverb that is written and answered at once. -/
def savedAtOnce (name : String) : List Input :=
  [⟨.save (.rProverb ⟨name, 0, "", "", "", false⟩), name, 0⟩, ⟨.serve 0 .success, "", 0⟩,
    ⟨.deliver 0, "", 0⟩]

/-- A purchase and a sign-in, five saves, a failed transaction, and one more save. -/
def sixRemoteSaves : List Input :=
  ([.purchaseCompleted true, .signIn .google, .didSignInFor .authentication,
    .firebaseAuthenticated 0 (.user "user"), .serve 0 .success, .deliver 0, .serve 0 .success,
    .deliver 0].map fun event => ⟨event, "", 0⟩) ++
  ["a", "b", "c", "d", "e"].flatMap savedAtOnce ++
  [⟨.completeTransactions [.failed], "", 0⟩] ++ savedAtOnce "f"

/-- The sixth save is called without a purchase and succeeds on five favourites. -/
theorem stale_plan_exceeds_free_limit :
    ¬ ∀ t, Transition.run step (installed.launch false) sixRemoteSaves = some t →
      FreeLimitKept t := by
  intro h
  have hkept := h _ rfl 6 5 (.fFavorite ⟨"f", "f", 0, ""⟩) (by decide) (by decide)
  exact absurd hkept (by decide)

end Proverbs.App
