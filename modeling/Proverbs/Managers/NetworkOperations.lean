import Proverbs.Core.InFlight
import Proverbs.Core.Transition
import Proverbs.Managers.NetworkActivityIndicatorManager

/-! # Counted operations

The count is right as long as every call that starts an operation is sure of a callback
that finishes it. Two paths are not: a restore that SwiftyStoreKit ignores, and a
callback of Google whose closure is no longer in the slot. A deletion of what is no
document starts an operation and ends the process.
-/

namespace Proverbs

namespace NetworkActivity

/-! ## Counting -/

/-- Firebase's part of a sign-in with Facebook or Twitter is not counted. -/
def SDKCall.counted : SDKCall → Bool
  | .firebaseAuth google => google
  | _ => true

def countedCalls (s : NetworkActivity) : Nat := s.outstanding.countP SDKCall.counted

/-- The count is the number of counted calls outstanding, and the indicator visible
while there is one. -/
def Exact (s : NetworkActivity) : Prop := s.indicator.Shows s.countedCalls

/-- A restore finds none pending, the callback of Google a closure in its slot, and a deletion
a document to address. -/
def Paired (s : NetworkActivity) (event : Event) : Prop :=
  match event with
  | .delete manager proverb =>
      manager.userDocument ≠ none → isDocumentPath proverb.identifier = true
  | .restore => .restorePurchases ∉ s.outstanding
  | .callback index _ =>
      s.outstanding[index]? = some .googleSignIn → s.googleCompletion = true
  | _ => True

section Counting

variable {s : NetworkActivity} {n : Nat}

theorem countedCalls_send (call : SDKCall) :
    (s.send call).countedCalls = s.countedCalls + if SDKCall.counted call then 1 else 0 := by
  simp [countedCalls, send, List.countP_append, List.countP_cons]

theorem Exact.start (h : Exact s) {call : SDKCall} (hcounted : SDKCall.counted call = true) :
    Exact (s.networkOperationStarted.send call) := by
  unfold Exact
  rw [countedCalls_send, if_pos hcounted]
  exact h.started

theorem Exact.request {α : Type} (h : Exact s) (r : Request α) : Exact (s.request r) := by
  cases r with
  | sent operation => exact h.start rfl
  | answered result => exact h

theorem Exact.delete_iff (h : Exact s) (manager : FirestoreManager) (proverb : FFavoriteProverb) :
    (∃ s', s.delete manager proverb = some s' ∧ Exact s') ↔
      (manager.userDocument ≠ none → isDocumentPath proverb.identifier = true) := by
  rw [← FirestoreManager.delete_isSome_iff, NetworkActivity.delete]
  cases manager.delete proverb with
  | none => simp
  | some request => exact iff_of_true ⟨_, rfl, h.request request⟩ rfl

theorem Exact.signIn (h : Exact s) (option : Login) (canSignIn : Bool) :
    Exact (s.signIn option canSignIn) := by
  unfold NetworkActivity.signIn
  split
  · exact h
  · cases option with
    | facebook | twitter => exact h.start rfl
    | google =>
        have hslot : Exact { s with googleCompletion := true } := h
        exact hslot.start rfl

theorem Exact.restore_iff (h : Exact s) :
    Exact s.restore ↔ .restorePurchases ∉ s.outstanding := by
  by_cases hpending : .restorePurchases ∈ s.outstanding
  · have hignored : s.restore = s.networkOperationStarted := if_pos hpending
    have hcount : ¬ Exact s.restore := by
      intro hexact
      rw [hignored] at hexact
      have hsame : s.countedCalls + 1 = s.countedCalls := h.started.unique hexact
      omega
    exact iff_of_false hcount fun hnot => hnot hpending
  · have hsent : s.restore = s.networkOperationStarted.send .restorePurchases := if_neg hpending
    rw [hsent]
    exact iff_of_true (h.start rfl) hpending

/-- The state while a callback runs: its call is gone, its operation still counted. -/
def Behind (s : NetworkActivity) : Prop := s.indicator.Shows (s.countedCalls + 1)

theorem Behind.finish (h : Behind s) : Exact s.networkOperationFinished := h.finished

theorem Behind.send (h : Behind s) {call : SDKCall} (hcounted : SDKCall.counted call = true) :
    Exact (s.send call) := by
  unfold Exact
  rw [countedCalls_send, if_pos hcounted]
  exact h

theorem Exact.send_uncounted (h : Exact s) : Exact (s.send (.firebaseAuth false)) := by
  unfold Exact
  rw [countedCalls_send]
  exact h

theorem Behind.firestoreCalledBack (h : Behind s) (operation : Operation) (reply : SDKReply) :
    Exact (s.firestoreCalledBack operation reply) := by
  unfold NetworkActivity.firestoreCalledBack
  split
  · exact h.send rfl
  · exact h.finish

theorem Behind.internalCompletion (h : Behind s) (authCredentials : Bool) :
    Exact (s.internalCompletion authCredentials) := by
  cases authCredentials with
  | false => exact h.finish
  | true => exact h.finish.send_uncounted

/-- With a closure in the slot the operation goes on or is finished; without one the
callback traps or leaves it counted. -/
theorem Behind.didSignInFor_iff (h : Behind s) (reply : SDKReply) :
    (∃ s', s.didSignInFor reply = some s' ∧ Exact s') ↔ s.googleCompletion = true := by
  unfold didSignInFor
  cases hslot : s.googleCompletion with
  | true =>
      apply iff_of_true
      · cases reply with
        | success => exact ⟨_, rfl, h.send rfl⟩
        | error | nothing => exact ⟨_, rfl, h.finish⟩
      · rfl
  | false =>
      have hbehind : ¬ Exact s := by
        intro hexact
        have hsame : s.countedCalls + 1 = s.countedCalls := NetworkIndicator.Shows.unique h hexact
        omega
      apply iff_of_false
      · cases reply with
        | success => simp
        | error | nothing =>
            rintro ⟨s', hs, hexact⟩
            exact hbehind (Option.some.inj hs ▸ hexact)
      · exact Bool.false_ne_true

/-- The callback of a call other than Google's keeps the count right. -/
theorem Behind.calledBack_iff (h : Behind s) (call : SDKCall)
    (hcounted : SDKCall.counted call = true) (reply : SDKReply) :
    (∃ s', s.calledBack call reply = some s' ∧ Exact s') ↔
      (call = .googleSignIn → s.googleCompletion = true) := by
  cases call with
  | firestore operation =>
      exact iff_of_true ⟨_, rfl, h.firestoreCalledBack operation reply⟩ (by simp)
  | purchaseProduct | restorePurchases => exact iff_of_true ⟨_, rfl, h.finish⟩ (by simp)
  | facebookLogIn =>
      refine iff_of_true ?_ (by simp)
      simp only [calledBack]
      split
      · exact ⟨_, rfl, h.send rfl⟩
      · exact ⟨_, rfl, h.internalCompletion false⟩
  | graphRequest | twitterLogIn =>
      exact iff_of_true ⟨_, rfl, h.internalCompletion _⟩ (by simp)
  | googleSignIn =>
      rw [forall_prop_of_true rfl]
      exact h.didSignInFor_iff reply
  | firebaseAuth google =>
      cases google with
      | true => exact iff_of_true ⟨_, rfl, h.finish⟩ (by simp)
      | false => exact absurd hcounted (by decide)

/-- A step runs and leaves the count right exactly if it is paired. -/
theorem Exact.step_iff (h : Exact s) (event : Event) :
    (∃ s', step s event = some s' ∧ Exact s') ↔ Paired s event := by
  cases event with
  | loadOrCreateUserDocument manager => exact iff_of_true ⟨_, rfl, h.start rfl⟩ trivial
  | getAllFavoriteProverbs manager => exact iff_of_true ⟨_, rfl, h.request _⟩ trivial
  | getFavorite manager identifier => exact iff_of_true ⟨_, rfl, h.request _⟩ trivial
  | saveAll manager proverbs => exact iff_of_true ⟨_, rfl, h.request _⟩ trivial
  | save manager proverb => exact iff_of_true ⟨_, rfl, h.request _⟩ trivial
  | delete manager proverb => exact h.delete_iff manager proverb
  | isFavorite manager identifier => exact iff_of_true ⟨_, rfl, h.request _⟩ trivial
  | purchase => exact iff_of_true ⟨_, rfl, h.start rfl⟩ trivial
  | restore =>
      simp only [step, Option.some.injEq, exists_eq_left']
      exact h.restore_iff
  | signIn option canSignIn => exact iff_of_true ⟨_, rfl, h.signIn option canSignIn⟩ trivial
  | callback index reply =>
      simp only [step, Paired]
      cases hcall : s.outstanding[index]? with
      | none => exact iff_of_true ⟨s, rfl, h⟩ (by simp)
      | some call =>
          let t : NetworkActivity := { s with outstanding := s.outstanding.eraseIdx index }
          have hcount : t.countedCalls + (if SDKCall.counted call then 1 else 0) =
              s.countedCalls := InFlight.countP_eraseIdx_add SDKCall.counted hcall
          rw [Option.some.injEq]
          cases hcounted : SDKCall.counted call with
          | true =>
              have hbehind : Behind t := by
                rw [hcounted, if_pos rfl] at hcount
                unfold Behind
                rw [hcount]
                exact h
              exact hbehind.calledBack_iff call hcounted reply
          | false =>
              have hexact : Exact t := by
                rw [hcounted, if_neg Bool.false_ne_true] at hcount
                unfold Exact at h ⊢
                rw [← hcount] at h
                exact h
              have hfirebase : call = .firebaseAuth false := by
                cases call with
                | firebaseAuth google => rw [SDKCall.counted] at hcounted; rw [hcounted]
                | _ => simp [SDKCall.counted] at hcounted
              subst hfirebase
              exact iff_of_true ⟨t, rfl, hexact⟩ (by simp)

end Counting

/-- In every process, for all orders of calls and callbacks: the count is exact at the
start, and every step runs and leaves it exact if and only if no restore is requested
while one is pending, no callback of Google finds the slot empty, and nothing is deleted
that is no document. -/
theorem counts_exactly_iff (events : List Event) :
    Exact launched ∧
      (Transition.Along step (fun s event => ∃ s', step s event = some s' ∧ Exact s')
          launched events ↔
        Transition.Along step Paired launched events) := by
  have hstart : Exact launched := ⟨rfl, by decide⟩
  refine ⟨hstart, ?_⟩
  apply Transition.along_congr (I := Exact)
  · intro s event _ s' hs hpaired hstep
    obtain ⟨t, ht, hexact⟩ := (hs.step_iff event).mpr hpaired
    rw [hstep, Option.some.injEq] at ht
    exact ht ▸ hexact
  · exact fun s event _ hs => hs.step_iff event
  · exact hstart

/-- The second restore is ignored and counted, and never finished. -/
theorem ignored_restore_stays_counted :
    ¬ ∀ t, Transition.run step launched [.restore, .restore, .callback 0 .success] = some t →
      Exact t := by
  intro h
  exact absurd (h _ rfl).loadingCount (by decide)

/-! ## One sign-in with Google at a time -/

/-- The user starts no restore beside another, and no sign-in with Google while the
dialog of another is open; what is deleted is a document. -/
def OneAtATime (s : NetworkActivity) (event : Event) : Prop :=
  match event with
  | .delete _ proverb => isDocumentPath proverb.identifier = true
  | .restore => .restorePurchases ∉ s.outstanding
  | .signIn option canSignIn =>
      option = .google → canSignIn = true → .googleSignIn ∉ s.outstanding
  | _ => True

def SlotFilled (s : NetworkActivity) : Prop :=
  s.outstanding.count .googleSignIn = if s.googleCompletion then 1 else 0

section OneAtATime

variable {s s' : NetworkActivity}

theorem SlotFilled.send (h : SlotFilled s) {call : SDKCall} (hne : call ≠ .googleSignIn) :
    SlotFilled (s.send call) := by
  unfold SlotFilled NetworkActivity.send
  rw [List.count_append, List.count_singleton, if_neg (by simpa using hne), Nat.add_zero]
  exact h

theorem SlotFilled.request {α : Type} (h : SlotFilled s) (r : Request α) :
    SlotFilled (s.request r) := by
  cases r with
  | sent operation =>
      have hstarted : SlotFilled s.networkOperationStarted := h
      exact hstarted.send (by simp)
  | answered result => exact h

theorem SlotFilled.signIn (h : SlotFilled s) {option : Login} {canSignIn : Bool}
    (hone : option = .google → canSignIn = true → .googleSignIn ∉ s.outstanding) :
    SlotFilled (s.signIn option canSignIn) := by
  unfold NetworkActivity.signIn
  split
  · exact h
  · rename_i haccepted
    have hstarted : SlotFilled s.networkOperationStarted := h
    cases option with
    | facebook | twitter => exact hstarted.send (by simp)
    | google =>
        have hnone := List.count_eq_zero_of_not_mem (hone rfl (by simpa using haccepted))
        simp [SlotFilled, NetworkActivity.send, networkOperationStarted, hnone]

theorem SlotFilled.firestoreCalledBack (h : SlotFilled s) (operation : Operation)
    (reply : SDKReply) : SlotFilled (s.firestoreCalledBack operation reply) := by
  unfold NetworkActivity.firestoreCalledBack
  split
  · exact h.send (by simp)
  · exact h

theorem SlotFilled.internalCompletion (h : SlotFilled s) (authCredentials : Bool) :
    SlotFilled (s.internalCompletion authCredentials) := by
  have hfinished : SlotFilled s.networkOperationFinished := h
  cases authCredentials with
  | false => exact hfinished
  | true => exact hfinished.send (by simp)

theorem slotFilled_didSignInFor (hnone : s.outstanding.count .googleSignIn = 0)
    {reply : SDKReply} (hs : s.didSignInFor reply = some s') : SlotFilled s' := by
  unfold didSignInFor at hs
  split at hs
  · simp at hs
  · rw [← Option.some.inj hs]
    simp [SlotFilled, NetworkActivity.send, hnone]
  · rw [← Option.some.inj hs]
    exact hnone
  · rename_i hslot
    rw [← Option.some.inj hs, SlotFilled, hslot]
    exact hnone

theorem SlotFilled.calledBack (h : SlotFilled s) {call : SDKCall} (hne : call ≠ .googleSignIn)
    {reply : SDKReply} (hs : s.calledBack call reply = some s') : SlotFilled s' := by
  cases call with
  | firestore operation =>
      rw [← Option.some.inj hs]
      exact h.firestoreCalledBack operation reply
  | purchaseProduct | restorePurchases =>
      rw [← Option.some.inj hs]
      exact h
  | facebookLogIn =>
      simp only [NetworkActivity.calledBack] at hs
      split at hs
      · rw [← Option.some.inj hs]
        exact h.send (by simp)
      · rw [← Option.some.inj hs]
        exact h.internalCompletion false
  | graphRequest | twitterLogIn =>
      rw [← Option.some.inj hs]
      exact h.internalCompletion _
  | googleSignIn => exact absurd rfl hne
  | firebaseAuth google =>
      rw [← Option.some.inj hs]
      cases google <;> exact h

theorem SlotFilled.step {event : Event} (h : SlotFilled s) (hone : OneAtATime s event)
    (hs : step s event = some s') : SlotFilled s' := by
  have hstarted : SlotFilled s.networkOperationStarted := h
  cases event with
  | loadOrCreateUserDocument manager | purchase =>
      rw [← Option.some.inj hs]
      exact hstarted.send (by simp)
  | getAllFavoriteProverbs manager =>
      rw [← Option.some.inj hs]
      exact h.request _
  | getFavorite manager identifier | isFavorite manager identifier =>
      rw [← Option.some.inj hs]
      exact h.request _
  | saveAll manager proverbs =>
      rw [← Option.some.inj hs]
      exact h.request _
  | save manager proverb =>
      rw [← Option.some.inj hs]
      exact h.request _
  | delete manager proverb =>
      obtain ⟨request, _, hrequest⟩ := Option.map_eq_some_iff.mp hs
      rw [← hrequest]
      exact h.request request
  | restore =>
      have hsent : s.restore = s.networkOperationStarted.send .restorePurchases := if_neg hone
      rw [← Option.some.inj hs, hsent]
      exact hstarted.send (by simp)
  | signIn option canSignIn =>
      rw [← Option.some.inj hs]
      exact h.signIn hone
  | callback index reply =>
      simp only [NetworkActivity.step] at hs
      split at hs
      · rename_i call hcall
        let t : NetworkActivity := { s with outstanding := s.outstanding.eraseIdx index }
        have hcount : t.outstanding.count .googleSignIn +
            (if call == .googleSignIn then 1 else 0) = s.outstanding.count .googleSignIn :=
          InFlight.countP_eraseIdx_add (· == SDKCall.googleSignIn) hcall
        by_cases hgoogle : call = .googleSignIn
        · have hle : s.outstanding.count .googleSignIn ≤ 1 := by
            rw [h]
            split <;> omega
          have hnone : t.outstanding.count .googleSignIn = 0 := by
            rw [hgoogle, beq_self_eq_true, if_pos rfl] at hcount
            omega
          rw [hgoogle] at hs
          exact slotFilled_didSignInFor hnone hs
        · have hsame : SlotFilled t := by
            rw [if_neg (by simpa using hgoogle), Nat.add_zero] at hcount
            exact hcount.trans h
          exact hsame.calledBack hgoogle hs
      · rw [← Option.some.inj hs]
        exact h

theorem SlotFilled.paired {event : Event} (h : SlotFilled s) (hone : OneAtATime s event) :
    Paired s event := by
  cases event with
  | delete manager proverb => exact fun _ => hone
  | restore => exact hone
  | callback index reply =>
      intro hcall
      have hpositive : 0 < s.outstanding.count .googleSignIn :=
        List.count_pos_iff.mpr (List.mem_of_getElem? hcall)
      rw [h] at hpositive
      by_contra hempty
      rw [if_neg hempty] at hpositive
      exact Nat.lt_irrefl 0 hpositive
  | _ => trivial

end OneAtATime

theorem paired_of_oneAtATime {events : List Event}
    (h : Transition.Along step OneAtATime launched events) :
    Transition.Along step Paired launched events :=
  Transition.along_of_invariant (I := SlotFilled) (fun _ _ _ hs hone => hs.step hone)
    (fun _ _ hs hone => hs.paired hone) rfl h

end NetworkActivity

end Proverbs
