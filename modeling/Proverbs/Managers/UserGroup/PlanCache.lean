import Mathlib.Data.List.Induction
import Proverbs.Managers.UserGroup.AccountStep
import Proverbs.Managers.UserGroup.PurchaseFlag

/-! # The cached plan

`currentPlan` caches two flags that belong to other objects. Every end of a
sign-in or sign-out refreshes it, and so does a purchase; setting `isPurchased`
to false does not. The plan is therefore right along a run exactly when no event
of the store takes the purchase away.
-/

namespace Proverbs.App

/-- The cached plan is the one the two flags stand for. -/
def PlanFresh (s : App) : Prop :=
  (s.currentPlan = .paidRegistered ↔ s.isSignedIn ∧ s.isPurchased) ∧
    (s.currentPlan = .paid ↔ s.isPurchased ∧ ¬ s.isSignedIn) ∧
    (s.currentPlan = .free ↔ ¬ s.isPurchased)

theorem planFresh_iff {s : App} : PlanFresh s ↔ s.currentPlan = s.plan := by
  unfold PlanFresh plan updateCurrentPlan
  cases hs : s.isSignedIn <;> cases hp : s.isPurchased <;> cases s.currentPlan <;> simp

@[simp] theorem planFresh_output {s : App} {o : Output} :
    PlanFresh (s.output o) ↔ PlanFresh s := Iff.rfl

theorem planFresh_step {s s' : App} {input : Input} (hstore : isStoreEvent input.event = false)
    (hs : PlanFresh s) (h : step s input = some s') : PlanFresh s' := by
  rw [planFresh_iff] at hs ⊢
  obtain ⟨hpurchase, haccount⟩ := step_account hstore h
  cases haccount with
  | kept huser hremote hplan hflag => rw [hplan, hs, plan_of_account huser hpurchase]
  | signOutFailed hevent huser hremote hplan hflag =>
      rw [hplan, hs, plan_of_account huser hpurchase]
  | refreshed huser hremote hplan hflag => exact hplan
  | signedIn attempt identifier hevent huser hremote hplan hflag => exact hplan
  | signedOut hevent huser hremote hplan hflag => exact hplan
  | started throws hevent hsame hplan hflag => exact hplan
  | launched throws hevent hsame hremote hplan hflag => exact hplan

/-! ## The store's events -/

theorem planFresh_setPurchased_true (s : App) : PlanFresh (s.setPurchased true) :=
  planFresh_iff.mpr rfl

/-- Clearing the flag leaves the plan as it was, so it has to be free already. -/
theorem planFresh_setPurchased_false (s : App) :
    PlanFresh (s.setPurchased false) ↔ s.currentPlan = .free := by
  have hfree : (s.setPurchased false).plan = .free := by
    simp [plan, updateCurrentPlan]
  rw [planFresh_iff, hfree]
  exact Iff.rfl

theorem planFresh_free {s : App} (h : PlanFresh s) :
    s.currentPlan = .free ↔ s.isPurchased = false := by
  rw [h.2.2, Bool.not_eq_true]

theorem completeTransaction_of_writes (s : App) (transaction : TransactionState) :
    s.completeTransaction transaction =
      match transaction.writes with
      | some value => s.setPurchased value
      | none => s := by
  cases transaction <;> rfl

theorem completeTransactions_concat (s : App) (before : List TransactionState)
    (transaction : TransactionState) :
    s.completeTransactions (before ++ [transaction]) =
      (s.completeTransactions before).completeTransaction transaction := by
  rw [completeTransactions_append]
  rfl

/-- Only a transaction that sets the flag moves the plan away from free. -/
theorem currentPlan_completeTransactions_free (s : App) (purchases : List TransactionState) :
    (s.completeTransactions purchases).currentPlan = .free ↔
      s.currentPlan = .free ∧ true ∉ purchases.filterMap TransactionState.writes := by
  induction purchases using List.reverseRecOn with
  | nil => simp [completeTransactions]
  | append_singleton before transaction ih =>
      rw [completeTransactions_concat, completeTransaction_of_writes]
      cases hw : transaction.writes with
      | none => simp [ih, hw]
      | some value =>
          cases value with
          | false =>
              have hplan : ((s.completeTransactions before).setPurchased false).currentPlan =
                  (s.completeTransactions before).currentPlan := rfl
              simp [hplan, ih, hw]
          | true =>
              have hplan : ((s.completeTransactions before).setPurchased true).currentPlan ≠
                  .free := by
                rw [Ne, planFresh_free (planFresh_setPurchased_true _)]
                simp
              simp [hplan, hw]

/-- The event does not take a purchase away. For a batch the last transaction
that writes the flag decides. -/
def KeepsPurchase (s : App) (event : Event) : Prop :=
  match event with
  | .purchaseCompleted success => success = false → s.isPurchased = false
  | .restoreCompleted results => results.restoredPurchases = 0 → s.isPurchased = false
  | .completeTransactions purchases =>
      (purchases.filterMap TransactionState.writes).getLast? = some false →
        s.isPurchased = false ∧ true ∉ purchases.filterMap TransactionState.writes
  | _ => True

theorem planFresh_completeTransactions {s : App} (h : PlanFresh s)
    (purchases : List TransactionState) :
    PlanFresh (s.completeTransactions purchases) ↔
      KeepsPurchase s (.completeTransactions purchases) := by
  unfold KeepsPurchase
  induction purchases using List.reverseRecOn with
  | nil => simpa [completeTransactions] using h
  | append_singleton before transaction ih =>
      rw [completeTransactions_concat, completeTransaction_of_writes]
      cases hw : transaction.writes with
      | none => simpa [hw] using ih
      | some value =>
          cases value with
          | false =>
              simp [planFresh_setPurchased_false, currentPlan_completeTransactions_free,
                planFresh_free h, hw]
          | true => simp [planFresh_setPurchased_true, hw]

theorem planFresh_step_iff {s : App} (hs : PlanFresh s) (input : Input) :
    (∀ s', step s input = some s' → PlanFresh s') ↔ KeepsPurchase s input.event := by
  have hfalse : PlanFresh (s.setPurchased false) ↔ s.isPurchased = false := by
    rw [planFresh_setPurchased_false, planFresh_free hs]
  obtain ⟨event, random, now⟩ := input
  cases event with
  | purchaseCompleted success =>
      cases success with
      | true =>
          have hfresh := planFresh_setPurchased_true s
          simpa [step, purchaseCompleted, KeepsPurchase] using hfresh
      | false =>
          simpa [step, purchaseCompleted, KeepsPurchase] using hfalse
  | restoreCompleted results =>
      by_cases hr : results.restoredPurchases = 0
      · simpa [step, restoreCompleted, KeepsPurchase, hr] using hfalse
      · have hfresh := planFresh_setPurchased_true s
        simpa [step, restoreCompleted, KeepsPurchase, hr] using hfresh
  | completeTransactions purchases =>
      simpa [step] using planFresh_completeTransactions hs purchases
  | _ =>
      exact ⟨fun _ => trivial, fun _ s' h => planFresh_step rfl hs h⟩

/-- The plan never goes stale along a run exactly when the store never takes a
purchase away in it. -/
theorem plan_fresh_along_iff (s : App) (throws : Bool) (inputs : List Input) :
    PlanFresh (s.userManagerStart throws) ∧
      (Transition.Along step (fun s input => ∀ s', step s input = some s' → PlanFresh s')
          (s.userManagerStart throws) inputs ↔
        Transition.Along step (fun s input => KeepsPurchase s input.event)
          (s.userManagerStart throws) inputs) := by
  have hstart : PlanFresh (s.userManagerStart throws) := planFresh_iff.mpr rfl
  refine ⟨hstart, ?_⟩
  apply Transition.along_congr (I := PlanFresh)
  · intro s input _ s' hs hkeep h
    exact (planFresh_step_iff hs input).mpr hkeep s' h
  · intro s input _ hs
    exact planFresh_step_iff hs input
  · exact hstart

/-- A failed transaction left in the queue clears the flag and leaves the paid plan. -/
theorem queued_failure_leaves_plan_stale :
    ¬ Transition.Along step (fun s input => ∀ s', step s input = some s' → PlanFresh s')
      (installed.userManagerStart false)
      [⟨.purchaseCompleted true, "", 0⟩, ⟨.completeTransactions [.failed], "", 0⟩] := by
  intro h
  have hstale := (h.2 _ rfl).1 _ rfl
  exact absurd (hstale.2.2.mpr (by decide)) (by decide)

end Proverbs.App
