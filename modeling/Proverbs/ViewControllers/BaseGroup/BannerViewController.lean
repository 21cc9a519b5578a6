import Proverbs.Managers.UserGroup.AccountStep
import Proverbs.Managers.UserGroup.PurchaseFlag

/-! # What is offered to those who have not purchased

The place of the ads on the screens with a banner, and the two buttons of the settings
screen. The screens whose views are loaded observe `DidPurchase`; a purchase that is taken
back posts nothing, so a screen that is open then has no way to know.
-/

namespace Proverbs

/-! ## The screens -/

/-- The values of `alpha` that are set; the storyboard gives the holder a half. -/
inductive Alpha where
  | clear
  | half
  | full
deriving DecidableEq, Repr

structure BannerViewController where
  bannerHolderAlpha : Alpha
  /-- The alpha of `bannerView`, once it has been created. -/
  bannerAlpha : Option Alpha
deriving DecidableEq, Repr

namespace BannerViewController

/-- A fade sets the alpha it ends at. -/
def showBannerHolder (c : BannerViewController) (visible : Bool) : BannerViewController :=
  let alpha : Alpha := if visible then .full else .clear
  if c.bannerHolderAlpha = alpha then c else { c with bannerHolderAlpha := alpha }

def checkAndUpdateBannerVisibility (c : BannerViewController) (isPurchased : Bool) :
    BannerViewController :=
  c.showBannerHolder (!isPurchased)

def checkAndCreateBanner (c : BannerViewController) (isPurchased : Bool) :
    BannerViewController :=
  if isPurchased then c else { c with bannerAlpha := some .clear }

def banner (c : BannerViewController) (visible : Bool) : BannerViewController :=
  let alpha : Alpha := if visible then .full else .clear
  if c.bannerAlpha = some alpha then c
  else { c with bannerAlpha := c.bannerAlpha.map fun _ => alpha }

def adViewDidReceiveAd (c : BannerViewController) : BannerViewController := c.banner true

def adViewDidFailToReceiveAd (c : BannerViewController) : BannerViewController := c.banner false

/-- `viewDidLoad`, with the `setupViews` it calls. -/
def viewDidLoad (isPurchased : Bool) : BannerViewController :=
  (checkAndCreateBanner ⟨.half, none⟩ isPurchased).checkAndUpdateBannerVisibility isPurchased

def showsAd (c : BannerViewController) : Bool :=
  c.bannerHolderAlpha = .full && c.bannerAlpha = some .full

end BannerViewController

/-- The two buttons of `SettingsViewController`. -/
structure PurchaseButtons where
  purchaseButtonIsHidden : Bool
  restoreButtonIsHidden : Bool
deriving DecidableEq, Repr

namespace PurchaseButtons

def checkPurchasesAndUpdateUI (b : PurchaseButtons) (isPurchased : Bool) : PurchaseButtons :=
  if isPurchased then ⟨true, true⟩ else b

def viewDidLoad (isPurchased : Bool) : PurchaseButtons :=
  checkPurchasesAndUpdateUI ⟨false, false⟩ isPurchased

end PurchaseButtons

inductive OfferScreen where
  | banner (controller : BannerViewController)
  | settings (buttons : PurchaseButtons)
deriving DecidableEq, Repr

namespace OfferScreen

/-- `didUpdatePurchases(_:)` of the two controllers. -/
def didUpdatePurchases (isPurchased : Bool) : OfferScreen → OfferScreen
  | .banner c => .banner (c.checkAndUpdateBannerVisibility isPurchased)
  | .settings b => .settings (b.checkPurchasesAndUpdateUI isPurchased)

/-- Only the controllers with a banner look at the purchase again. -/
def viewWillAppear (isPurchased : Bool) : OfferScreen → OfferScreen
  | .banner c => .banner (c.checkAndUpdateBannerVisibility isPurchased)
  | .settings b => .settings b

def adCallback (received : Bool) : OfferScreen → OfferScreen
  | .banner c =>
      .banner (if received then c.adViewDidReceiveAd else c.adViewDidFailToReceiveAd)
  | .settings b => .settings b

/-- Something of it is there for those who have not purchased. -/
def offers : OfferScreen → Bool
  | .banner c => c.bannerHolderAlpha ≠ .clear
  | .settings b => !b.purchaseButtonIsHidden || !b.restoreButtonIsHidden

def showsAd : OfferScreen → Bool
  | .banner c => c.showsAd
  | .settings _ => false

end OfferScreen

/-! ## The app with its screens -/

structure PurchaseScreens where
  app : App
  screens : Nat → Option OfferScreen
  nextScreen : Nat

inductive PurchaseEvent where
  | openBanner
  | openSettings
  | viewWillAppear (screen : Nat)
  | adCallback (screen : Nat) (received : Bool)
  | closed (screen : Nat)
  | turn (input : Input)
deriving DecidableEq, Repr

namespace PurchaseScreens

/-! ### IAPController with its observers -/

def post (w : PurchaseScreens) : PurchaseScreens :=
  { w with
    screens := fun screen =>
      (w.screens screen).map (OfferScreen.didUpdatePurchases w.app.isPurchased) }

def setPurchased (w : PurchaseScreens) (newValue : Bool) : PurchaseScreens :=
  let w := { w with app := w.app.setPurchased newValue }
  if newValue then w.post else w

def completeTransaction (w : PurchaseScreens) (transaction : TransactionState) :
    PurchaseScreens :=
  match transaction with
  | .purchased | .restored => w.setPurchased true
  | .failed | .purchasing | .deferred => w.setPurchased false
  | .unknown => w

def completeTransactions (w : PurchaseScreens) (purchases : List TransactionState) :
    PurchaseScreens :=
  purchases.foldl completeTransaction w

def output (w : PurchaseScreens) (o : Output) : PurchaseScreens :=
  { w with app := w.app.output o }

def purchaseCompleted (w : PurchaseScreens) (success : Bool) : PurchaseScreens :=
  if success then (w.setPurchased true).output (.purchased true)
  else (w.setPurchased false).output (.purchased false)

def restoreCompleted (w : PurchaseScreens) (results : RestoreResults) : PurchaseScreens :=
  if results.restoredPurchases ≤ 0 then (w.setPurchased false).output (.restored false)
  else (w.setPurchased true).output (.restored true)

/-! ### Steps -/

def launched (app : App) (signOutThrows : Bool) : PurchaseScreens :=
  ⟨app.launch signOutThrows, fun _ => none, 0⟩

def turn (w : PurchaseScreens) (input : Input) : Option PurchaseScreens :=
  match input.event with
  | .launch throws => some (launched w.app throws)
  | .purchaseCompleted success => some (w.purchaseCompleted success)
  | .restoreCompleted results => some (w.restoreCompleted results)
  | .completeTransactions purchases => some (w.completeTransactions purchases)
  | _ => (App.step w.app input).map fun app => { w with app := app }

/-- The view of a new controller is loaded; it observes from then on. -/
def opened (w : PurchaseScreens) (c : OfferScreen) : PurchaseScreens :=
  { w with
    screens := Function.update w.screens w.nextScreen (some c)
    nextScreen := w.nextScreen + 1 }

def update (w : PurchaseScreens) (screen : Nat) (f : OfferScreen → OfferScreen) :
    PurchaseScreens :=
  { w with screens := Function.update w.screens screen ((w.screens screen).map f) }

def close (w : PurchaseScreens) (screen : Nat) : PurchaseScreens :=
  { w with screens := Function.update w.screens screen none }

def step (w : PurchaseScreens) : PurchaseEvent → Option PurchaseScreens
  | .openBanner => some (w.opened (.banner (.viewDidLoad w.app.isPurchased)))
  | .openSettings => some (w.opened (.settings (.viewDidLoad w.app.isPurchased)))
  | .viewWillAppear screen => some (w.update screen (.viewWillAppear w.app.isPurchased))
  | .adCallback screen received => some (w.update screen (.adCallback received))
  | .closed screen => some (w.close screen)
  | .turn input => w.turn input

end PurchaseScreens

end Proverbs
