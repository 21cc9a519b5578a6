import Proverbs.Managers.UserGroup.UserManager

/-! # IAPController

The purchase flag and its three writers. Setting the flag to true posts
`DidPurchase`, which `UserManager` observes; setting it to false posts nothing.
-/

namespace Proverbs

/-- `SKPaymentTransactionState`, with a case the app does not know. -/
inductive TransactionState where
  | purchasing
  | purchased
  | failed
  | restored
  | deferred
  | unknown
deriving DecidableEq, Repr

structure RestoreResults where
  restoredPurchases : Nat
  restoreFailedPurchases : Nat
deriving DecidableEq, Repr

namespace App

def userDidPurchase (s : App) : App := s.updateCurrentPlan

def setPurchased (s : App) (newValue : Bool) : App :=
  let s := { s with isPurchased := newValue }
  if newValue then s.userDidPurchase else s

def completeTransaction (s : App) (transaction : TransactionState) : App :=
  match transaction with
  | .purchased | .restored => s.setPurchased true
  | .failed | .purchasing | .deferred => s.setPurchased false
  | .unknown => s

/-- The handler `start` passes to `completeTransactions`. -/
def completeTransactions (s : App) (purchases : List TransactionState) : App :=
  purchases.foldl completeTransaction s

/-- The handler of `purchaseProduct`. -/
def purchaseCompleted (s : App) (success : Bool) : App :=
  if success then (s.setPurchased true).output (.purchased true)
  else (s.setPurchased false).output (.purchased false)

/-- The handler of `restorePurchases`. -/
def restoreCompleted (s : App) (results : RestoreResults) : App :=
  if results.restoredPurchases ≤ 0 then (s.setPurchased false).output (.restored false)
  else (s.setPurchased true).output (.restored true)

end App

end Proverbs
