import Proverbs.Core.LastWrite
import Proverbs.Managers.Machine

/-! # The purchase flag over runs of the store

A batch of transactions overwrites `isPurchased` transaction by transaction, and
the two other handlers overwrite it once. A failure writes false whatever the
flag was, so a purchase survives a run exactly when every failure in it arrives
while nothing has been purchased yet.
-/

namespace Proverbs

/-- What a transaction writes into `isPurchased`. -/
def TransactionState.writes : TransactionState → Option Bool
  | .purchased | .restored => some true
  | .failed | .purchasing | .deferred => some false
  | .unknown => none

/-- The transactions a store event is allowed to carry in the statements below. -/
def TransactionState.delivered : TransactionState → Bool
  | .purchased | .restored | .failed | .deferred => true
  | .purchasing | .unknown => false

def TransactionState.unsuccessful : TransactionState → Bool
  | .failed | .deferred => true
  | _ => false

namespace App

/-! ## The flag after a batch -/

@[simp] theorem isPurchased_setPurchased (s : App) (newValue : Bool) :
    (s.setPurchased newValue).isPurchased = newValue := by
  cases newValue <;> rfl

theorem isPurchased_completeTransaction (s : App) (transaction : TransactionState) :
    (s.completeTransaction transaction).isPurchased =
      (transaction.writes).getD s.isPurchased := by
  cases transaction <;> simp [completeTransaction, TransactionState.writes]

theorem completeTransactions_append (s : App) (ps qs : List TransactionState) :
    s.completeTransactions (ps ++ qs) = (s.completeTransactions ps).completeTransactions qs :=
  List.foldl_append

theorem isPurchased_completeTransactions (s : App) (purchases : List TransactionState) :
    (s.completeTransactions purchases).isPurchased =
      LastWrite.register TransactionState.writes s.isPurchased purchases := by
  induction purchases generalizing s with
  | nil => rfl
  | cons transaction purchases ih =>
      have hcons : s.completeTransactions (transaction :: purchases) =
          (s.completeTransaction transaction).completeTransactions purchases := rfl
      rw [hcons, ih, isPurchased_completeTransaction, LastWrite.register_cons]

/-! ## Purchases that survive -/

/-- No failure in the event takes the flag from true to false, and the outcome of
a batch does not depend on its order. -/
def PurchaseSurvives (s : App) (event : Event) : Prop :=
  match event with
  | .purchaseCompleted false => s.isPurchased → (s.purchaseCompleted false).isPurchased
  | .restoreCompleted results =>
      0 < results.restoreFailedPurchases → s.isPurchased → (s.restoreCompleted results).isPurchased
  | .completeTransactions purchases =>
      (∀ before transaction after, purchases = before ++ transaction :: after →
        transaction.unsuccessful → (s.completeTransactions before).isPurchased →
          (s.completeTransactions (before ++ [transaction])).isPurchased) ∧
      ∀ reordered, reordered.Perm purchases →
        (s.completeTransactions reordered).isPurchased =
          (s.completeTransactions purchases).isPurchased
  | _ => True

/-- A failure arrives only while nothing has been purchased, and a batch that
holds one holds no purchase. -/
def FailsUnpurchased (s : App) (event : Event) : Prop :=
  match event with
  | .purchaseCompleted success => success = false → s.isPurchased = false
  | .restoreCompleted results =>
      results.restoredPurchases = 0 → 0 < results.restoreFailedPurchases → s.isPurchased = false
  | .completeTransactions purchases =>
      (∃ transaction ∈ purchases, transaction.unsuccessful) →
        s.isPurchased = false ∧ ∀ transaction ∈ purchases, transaction.unsuccessful
  | _ => True

def DeliveredBatch : Event → Prop
  | .completeTransactions purchases => ∀ transaction ∈ purchases, transaction.delivered
  | _ => True

theorem writes_of_unsuccessful {transaction : TransactionState}
    (h : transaction.unsuccessful) : transaction.writes = some false := by
  cases transaction <;> simp_all [TransactionState.unsuccessful, TransactionState.writes]

theorem writes_of_delivered {transaction : TransactionState} (hd : transaction.delivered)
    (h : ¬ transaction.unsuccessful) : transaction.writes = some true := by
  cases transaction <;>
    simp_all [TransactionState.unsuccessful, TransactionState.delivered, TransactionState.writes]

theorem isPurchased_concat_unsuccessful (s : App) (before : List TransactionState)
    {transaction : TransactionState} (h : transaction.unsuccessful) :
    (s.completeTransactions (before ++ [transaction])).isPurchased = false := by
  rw [isPurchased_completeTransactions]
  exact LastWrite.register_concat (writes_of_unsuccessful h) _ _

theorem isPurchased_all_unsuccessful {s : App} {purchases : List TransactionState}
    (hs : s.isPurchased = false) (h : ∀ transaction ∈ purchases, transaction.unsuccessful) :
    (s.completeTransactions purchases).isPurchased = false := by
  have hagree : ∀ t ∈ purchases, ∀ w, t.writes = some w → w = false := by
    intro t ht w hw
    rw [writes_of_unsuccessful (h t ht)] at hw
    exact (Option.some.inj hw).symm
  rw [isPurchased_completeTransactions, LastWrite.register_of_agree hagree, hs]
  simp

theorem batch_survives_iff {s : App} {purchases : List TransactionState}
    (hdelivered : ∀ transaction ∈ purchases, transaction.delivered) :
    PurchaseSurvives s (.completeTransactions purchases) ↔
      FailsUnpurchased s (.completeTransactions purchases) := by
  simp only [PurchaseSurvives, FailsUnpurchased]
  constructor
  · rintro ⟨hkeep, horder⟩ ⟨bad, hbad, hfailed⟩
    simp only [isPurchased_completeTransactions] at horder
    have hagree := (LastWrite.register_perm_iff s.isPurchased).mp horder
    have hall : ∀ transaction ∈ purchases, transaction.unsuccessful := by
      intro transaction hmem
      by_contra hgood
      have hvalue := hagree transaction hmem bad hbad true false
        (writes_of_delivered (hdelivered transaction hmem) hgood) (writes_of_unsuccessful hfailed)
      simp at hvalue
    refine ⟨?_, hall⟩
    cases hs : s.isPurchased with
    | false => rfl
    | true =>
        cases purchases with
        | nil => simp at hbad
        | cons first rest =>
            have hfirst := hall first List.mem_cons_self
            have htrue := hkeep [] first rest rfl hfirst hs
            rw [isPurchased_concat_unsuccessful s [] hfirst] at htrue
            exact absurd htrue (by simp)
  · intro hcondition
    constructor
    · intro before transaction after hsplit hfailed hflag
      have hmem : transaction ∈ purchases := by simp [hsplit]
      obtain ⟨hs, hall⟩ := hcondition ⟨transaction, hmem, hfailed⟩
      have hbefore : ∀ t ∈ before, t.unsuccessful := by
        intro t ht
        exact hall t (by simp [hsplit, ht])
      rw [isPurchased_all_unsuccessful hs hbefore] at hflag
      simp at hflag
    · simp only [isPurchased_completeTransactions]
      rw [LastWrite.register_perm_iff]
      intro t ht u hu v w hv hw
      by_cases hbad : ∃ transaction ∈ purchases, transaction.unsuccessful
      · have hall := (hcondition hbad).2
        rw [writes_of_unsuccessful (hall t ht)] at hv
        rw [writes_of_unsuccessful (hall u hu)] at hw
        rw [← Option.some.inj hv, ← Option.some.inj hw]
      · have hgood : ∀ r ∈ purchases, r.writes = some true := by
          intro r hr
          exact writes_of_delivered (hdelivered r hr) fun hf => hbad ⟨r, hr, hf⟩
        rw [hgood t ht] at hv
        rw [hgood u hu] at hw
        rw [← Option.some.inj hv, ← Option.some.inj hw]

theorem purchaseSurvives_iff {s : App} {event : Event} (h : DeliveredBatch event) :
    PurchaseSurvives s event ↔ FailsUnpurchased s event := by
  cases event with
  | purchaseCompleted success =>
      cases success with
      | true => simp [PurchaseSurvives, FailsUnpurchased]
      | false => simp [PurchaseSurvives, FailsUnpurchased, purchaseCompleted, output]
  | restoreCompleted results =>
      by_cases hr : results.restoredPurchases = 0
      · simp [PurchaseSurvives, FailsUnpurchased, restoreCompleted, hr, output]
      · simp [PurchaseSurvives, FailsUnpurchased, restoreCompleted, hr, output]
  | completeTransactions purchases => exact batch_survives_iff h
  | _ => exact Iff.rfl

/-- Over a run of any length, purchases survive exactly when no failure follows one. -/
theorem purchases_survive_iff (s : App) (inputs : List Input)
    (hdelivered : ∀ input ∈ inputs, DeliveredBatch input.event) :
    Transition.Along step (fun s input => PurchaseSurvives s input.event) s inputs ↔
      Transition.Along step (fun s input => FailsUnpurchased s input.event) s inputs :=
  Transition.along_congr (I := fun _ => True) (fun _ _ _ _ _ _ _ => trivial)
    (fun _ input hinput _ => purchaseSurvives_iff (hdelivered input hinput)) trivial

theorem purchases_survive_delivered_batch :
    Transition.Along step (fun s input => PurchaseSurvives s input.event) installed
      [⟨.completeTransactions [.failed, .deferred], "", 0⟩,
        ⟨.completeTransactions [.purchased, .restored], "", 0⟩] := by
  refine (purchases_survive_iff installed _ ?_).mpr ?_
  · simp [DeliveredBatch, TransactionState.delivered]
  · simp [FailsUnpurchased, TransactionState.unsuccessful, installed]

/-- A failed transaction left in the queue takes back a completed purchase. -/
theorem queued_failure_loses_purchase :
    ¬ Transition.Along step (fun s input => PurchaseSurvives s input.event) installed
      [⟨.purchaseCompleted true, "", 0⟩, ⟨.completeTransactions [.failed], "", 0⟩] := by
  intro h
  have hbatch := (h.2 _ rfl).1
  have hkept := hbatch.1 [] .failed [] rfl rfl rfl
  exact absurd hkept (by decide)

end App

end Proverbs
