import Proverbs.Managers.Requests
import Proverbs.ViewControllers.BaseGroup.BannerViewController

/-! # A purchase reaches every screen, and is never taken back there

While the app is purchased no open screen offers anything, however purchases, failures and
the openings of screens come one after the other. What a screen offers depends on the
purchase when it was last looked at and on the purchases since, never on the failures.
-/

namespace Proverbs

def Event.buys : Event → Bool
  | .purchaseCompleted success => success
  | .restoreCompleted results => 0 < results.restoredPurchases
  | .completeTransactions purchases =>
      purchases.any fun transaction => transaction.writes = some true
  | _ => false

namespace PurchaseEvent

def buys : PurchaseEvent → Bool
  | .turn input => input.event.buys
  | _ => false

/-- The screen stays open, and is not shown again. -/
def keeps (screen : Nat) : PurchaseEvent → Bool
  | .viewWillAppear other | .closed other => other ≠ screen
  | .turn input => !App.isLaunch input.event
  | _ => true

end PurchaseEvent

/-! ## The screens -/

namespace OfferScreen

section Screens

variable {c : OfferScreen}

theorem bannerHolderAlpha_show (c : BannerViewController) (visible : Bool) :
    (c.showBannerHolder visible).bannerHolderAlpha = if visible then .full else .clear := by
  by_cases h : c.bannerHolderAlpha = if visible then .full else .clear
  · rw [BannerViewController.showBannerHolder, if_pos h, h]
  · rw [BannerViewController.showBannerHolder, if_neg h]

theorem bannerHolderAlpha_banner (c : BannerViewController) (visible : Bool) :
    (c.banner visible).bannerHolderAlpha = c.bannerHolderAlpha := by
  by_cases h : c.bannerAlpha = some (if visible then .full else .clear)
  · rw [BannerViewController.banner, if_pos h]
  · rw [BannerViewController.banner, if_neg h]

theorem offers_check (c : BannerViewController) (isPurchased : Bool) :
    offers (.banner (c.checkAndUpdateBannerVisibility isPurchased)) = !isPurchased := by
  rw [offers, BannerViewController.checkAndUpdateBannerVisibility, bannerHolderAlpha_show]
  cases isPurchased <;> rfl

theorem offers_didUpdatePurchases (c : OfferScreen) :
    (c.didUpdatePurchases true).offers = false := by
  cases c with
  | banner c => exact offers_check c true
  | settings b => rfl

theorem offers_adCallback (c : OfferScreen) (received : Bool) :
    (c.adCallback received).offers = c.offers := by
  cases c with
  | banner c =>
      have hsame : ∀ visible, offers (.banner (c.banner visible)) = offers (.banner c) :=
        fun visible => by rw [offers, offers, bannerHolderAlpha_banner]
      cases received with
      | true => exact hsame true
      | false => exact hsame false
  | settings b => rfl

theorem showsAd_of_offers (h : c.offers = false) : c.showsAd = false := by
  cases c with
  | banner c =>
      have hclear : c.bannerHolderAlpha = .clear := by simpa [offers] using h
      simp [showsAd, BannerViewController.showsAd, hclear]
  | settings b => rfl

theorem offers_settings (isPurchased : Bool) :
    offers (.settings (.viewDidLoad isPurchased)) = !isPurchased := by
  cases isPurchased <;> rfl

end Screens

end OfferScreen

/-! ## One turn of the app -/

namespace PurchaseScreens

section Turns

variable {w w' : PurchaseScreens} {input : Input}

/-- Where a purchase was written, every screen has been told. -/
structure Told (w : PurchaseScreens) (bought : Bool) (w' : PurchaseScreens) : Prop where
  next : w'.nextScreen = w.nextScreen
  screens : ∀ screen, (w'.screens screen).map OfferScreen.offers =
    (w.screens screen).map fun c => c.offers && !bought
  purchased : w'.app.isPurchased = true → w.app.isPurchased = true ∨ bought = true

theorem Told.refl (w : PurchaseScreens) : Told w false w where
  next := rfl
  screens := by simp
  purchased := Or.inl

theorem Told.trans {w'' : PurchaseScreens} {a b : Bool} (h : Told w a w') (h' : Told w' b w'') :
    Told w (a || b) w'' where
  next := h'.next.trans h.next
  screens := by
    intro screen
    have hmap : ∀ c : Option OfferScreen, (c.map fun c => c.offers && !b) =
        (c.map OfferScreen.offers).map fun offers => offers && !b := by
      intro c
      rw [Option.map_map]
      rfl
    rw [h'.screens, hmap, h.screens, Option.map_map]
    congr 1
    funext c
    rw [Function.comp_apply, Bool.not_or, Bool.and_assoc]
  purchased := by
    intro hp
    rcases h'.purchased hp with hp | hb
    · rcases h.purchased hp with hp | ha
      · exact Or.inl hp
      · exact Or.inr (by rw [ha, Bool.true_or])
    · exact Or.inr (by rw [hb, Bool.or_true])

theorem Told.output {bought : Bool} (h : Told w bought w') (o : Output) :
    Told w bought (w'.output o) :=
  ⟨h.next, h.screens, h.purchased⟩

theorem told_setPurchased (w : PurchaseScreens) (newValue : Bool) :
    Told w newValue (w.setPurchased newValue) := by
  cases newValue with
  | false => exact ⟨rfl, by simp [setPurchased], fun hp => by cases hp⟩
  | true =>
      refine ⟨rfl, fun screen => ?_, fun _ => Or.inr rfl⟩
      have hpost : (w.setPurchased true).screens screen =
          (w.screens screen).map (OfferScreen.didUpdatePurchases true) := rfl
      rw [hpost, Option.map_map]
      congr 1
      funext c
      rw [Function.comp_apply, OfferScreen.offers_didUpdatePurchases]
      simp

theorem told_completeTransaction (w : PurchaseScreens) (transaction : TransactionState) :
    Told w (transaction.writes = some true) (w.completeTransaction transaction) := by
  cases transaction with
  | purchased => exact told_setPurchased w true
  | restored => exact told_setPurchased w true
  | failed => exact told_setPurchased w false
  | purchasing => exact told_setPurchased w false
  | deferred => exact told_setPurchased w false
  | unknown => exact Told.refl w

theorem told_completeTransactions (w : PurchaseScreens) (purchases : List TransactionState) :
    Told w (purchases.any fun transaction => transaction.writes = some true)
      (w.completeTransactions purchases) := by
  induction purchases generalizing w with
  | nil => exact Told.refl w
  | cons transaction purchases ih =>
      rw [List.any_cons]
      exact (told_completeTransaction w transaction).trans (ih (w.completeTransaction transaction))

theorem told_turn (hlaunch : App.isLaunch input.event = false) (hs : w.turn input = some w') :
    Told w input.event.buys w' := by
  obtain ⟨event, random, now⟩ := input
  have hother : ∀ app, App.isStoreEvent event = false →
      App.step w.app ⟨event, random, now⟩ = some app → Told w false { w with app := app } := by
    intro app hstore happ
    obtain ⟨hpurchased, -⟩ := App.step_account hstore happ
    exact ⟨rfl, by simp, fun hp => Or.inl (hpurchased ▸ hp)⟩
  cases event with
  | launch throws => cases hlaunch
  | purchaseCompleted success =>
      rw [← Option.some.inj hs]
      cases success with
      | true => exact (told_setPurchased w true).output (.purchased true)
      | false => exact (told_setPurchased w false).output (.purchased false)
  | restoreCompleted results =>
      rw [← Option.some.inj hs]
      simp only [restoreCompleted, Event.buys]
      by_cases hnone : results.restoredPurchases ≤ 0
      · rw [if_pos hnone, decide_eq_false (by omega)]
        exact (told_setPurchased w false).output (.restored false)
      · rw [if_neg hnone, decide_eq_true (by omega)]
        exact (told_setPurchased w true).output (.restored true)
  | completeTransactions purchases =>
      rw [← Option.some.inj hs]
      exact told_completeTransactions w purchases
  | _ =>
      simp only [turn] at hs
      obtain ⟨app, happ, rfl⟩ := Option.map_eq_some_iff.mp hs
      exact hother app rfl happ

/-- Seen without its screens, the app is the one of the managers. -/
theorem app_turn (w : PurchaseScreens) (input : Input) :
    (w.turn input).map PurchaseScreens.app = App.step w.app input := by
  have hset : ∀ (w : PurchaseScreens) newValue,
      (w.setPurchased newValue).app = w.app.setPurchased newValue :=
    fun w newValue => by cases newValue <;> rfl
  obtain ⟨event, random, now⟩ := input
  cases event with
  | purchaseCompleted success => cases success <;> rfl
  | restoreCompleted results =>
      simp only [turn, App.step, restoreCompleted, App.restoreCompleted]
      split <;> rfl
  | completeTransactions purchases =>
      have hone : ∀ (w : PurchaseScreens) transaction,
          (w.completeTransaction transaction).app = w.app.completeTransaction transaction :=
        fun w transaction => by cases transaction <;> rfl
      have hall : (w.completeTransactions purchases).app =
          w.app.completeTransactions purchases := by
        induction purchases generalizing w with
        | nil => rfl
        | cons transaction purchases ih =>
            have hrest := ih (w.completeTransaction transaction)
            rw [hone] at hrest
            exact hrest
      exact congrArg some hall
  | launch throws => rfl
  | _ => simp [turn, Option.map_map, Function.comp_def]

end Turns

/-! ## The screens over a run -/

/-- No screen has a number to come, and none offers what has been purchased. -/
structure Honest (w : PurchaseScreens) : Prop where
  fresh : ∀ screen, w.nextScreen ≤ screen → w.screens screen = none
  withdrawn : w.app.isPurchased = true →
    ∀ screen c, w.screens screen = some c → c.offers = false

section Runs

variable {w w' : PurchaseScreens} {screen : Nat} {c : OfferScreen} {event : PurchaseEvent}

theorem screens_opened (w : PurchaseScreens) (c : OfferScreen) (screen : Nat) :
    (w.opened c).screens screen = if screen = w.nextScreen then some c else w.screens screen :=
  Function.update_apply w.screens w.nextScreen (some c) screen

theorem screens_update (w : PurchaseScreens) (f : OfferScreen → OfferScreen)
    (screen other : Nat) :
    (w.update screen f).screens other =
      if other = screen then (w.screens screen).map f else w.screens other :=
  Function.update_apply w.screens screen _ other

theorem screens_close (w : PurchaseScreens) (screen other : Nat) :
    (w.close screen).screens other = if other = screen then none else w.screens other :=
  Function.update_apply w.screens screen none other

theorem honest_launched (app : App) (throws : Bool) : Honest (launched app throws) :=
  ⟨fun _ _ => rfl, fun _ _ _ hc => by cases hc⟩

theorem Told.exists_screen {bought : Bool} (h : Told w bought w')
    (hc : w.screens screen = some c) :
    ∃ c', w'.screens screen = some c' ∧ c'.offers = (c.offers && !bought) := by
  have hscreens := h.screens screen
  rw [hc, Option.map_some] at hscreens
  exact Option.map_eq_some_iff.mp hscreens

theorem Told.honest {bought : Bool} (h : Told w bought w') (hw : Honest w) : Honest w' where
  fresh := by
    intro screen hle
    have hscreens := h.screens screen
    rw [hw.fresh screen (h.next ▸ hle)] at hscreens
    exact Option.map_eq_none_iff.mp hscreens
  withdrawn := by
    intro hp screen c hc
    have hscreens := h.screens screen
    rw [hc] at hscreens
    obtain ⟨old, hold, hoffers⟩ := Option.map_eq_some_iff.mp hscreens.symm
    rw [← hoffers]
    rcases h.purchased hp with hp | hbought
    · rw [hw.withdrawn hp screen old hold, Bool.false_and]
    · rw [hbought, Bool.not_true, Bool.and_false]

theorem Honest.opened (h : Honest w) (hc : c.offers = !w.app.isPurchased) :
    Honest (w.opened c) where
  fresh := by
    intro screen hle
    have hne : screen ≠ w.nextScreen := (Nat.lt_of_succ_le hle).ne'
    rw [screens_opened, if_neg hne]
    exact h.fresh screen (Nat.le_of_succ_le hle)
  withdrawn := by
    intro hp screen other hother
    have hp : w.app.isPurchased = true := hp
    by_cases hsame : screen = w.nextScreen
    · rw [screens_opened, if_pos hsame] at hother
      rw [← Option.some.inj hother, hc, hp, Bool.not_true]
    · rw [screens_opened, if_neg hsame] at hother
      exact h.withdrawn hp screen other hother

theorem Honest.update (h : Honest w) {f : OfferScreen → OfferScreen}
    (hf : ∀ c, w.app.isPurchased = true → c.offers = false → (f c).offers = false) :
    Honest (w.update screen f) where
  fresh := by
    intro other hle
    by_cases hsame : other = screen
    · rw [screens_update, if_pos hsame, ← hsame, h.fresh other hle, Option.map_none]
    · rw [screens_update, if_neg hsame]
      exact h.fresh other hle
  withdrawn := by
    intro hp other changed hchanged
    have hp : w.app.isPurchased = true := hp
    by_cases hsame : other = screen
    · rw [screens_update, if_pos hsame] at hchanged
      obtain ⟨c, hc, rfl⟩ := Option.map_eq_some_iff.mp hchanged
      exact hf c hp (h.withdrawn hp screen c hc)
    · rw [screens_update, if_neg hsame] at hchanged
      exact h.withdrawn hp other changed hchanged

theorem honest_step (h : Honest w) (hs : step w event = some w') : Honest w' := by
  cases event with
  | openBanner =>
      rw [← Option.some.inj hs]
      exact h.opened (OfferScreen.offers_check _ _)
  | openSettings =>
      rw [← Option.some.inj hs]
      exact h.opened (OfferScreen.offers_settings _)
  | viewWillAppear screen =>
      rw [← Option.some.inj hs]
      refine h.update fun c hp hc => ?_
      cases c with
      | banner c => rw [OfferScreen.viewWillAppear, OfferScreen.offers_check, hp, Bool.not_true]
      | settings b => exact hc
  | adCallback screen received =>
      rw [← Option.some.inj hs]
      exact h.update fun c _ hc => (OfferScreen.offers_adCallback c received).trans hc
  | closed screen =>
      rw [← Option.some.inj hs]
      refine ⟨fun other hle => ?_, fun hp other c hc => ?_⟩
      · rw [screens_close]
        split
        · rfl
        · exact h.fresh other hle
      · rw [screens_close] at hc
        split at hc
        · cases hc
        · exact h.withdrawn hp other c hc
  | turn input =>
      cases hlaunch : App.isLaunch input.event with
      | false => exact (told_turn hlaunch hs).honest h
      | true =>
          obtain ⟨event, random, now⟩ := input
          cases event with
          | launch throws =>
              rw [← Option.some.inj hs]
              exact honest_launched w.app throws
          | _ => cases hlaunch

/-- An open screen gives up what it offers for a purchase, and for nothing else. -/
theorem offers_step (h : Honest w) (hkeeps : event.keeps screen = true)
    (hc : w.screens screen = some c) (hs : step w event = some w') :
    ∃ c', w'.screens screen = some c' ∧ c'.offers = (c.offers && !event.buys) := by
  have hkept : w'.screens screen = w.screens screen → event.buys = false →
      ∃ c', w'.screens screen = some c' ∧ c'.offers = (c.offers && !event.buys) :=
    fun hsame hbuys => ⟨c, hsame.trans hc, by rw [hbuys, Bool.not_false, Bool.and_true]⟩
  have hopen : screen ≠ w.nextScreen := by
    rintro rfl
    rw [h.fresh _ (Nat.le_refl _)] at hc
    cases hc
  cases event with
  | openBanner =>
      rw [← Option.some.inj hs] at hkept ⊢
      exact hkept (by rw [screens_opened, if_neg hopen]) rfl
  | openSettings =>
      rw [← Option.some.inj hs] at hkept ⊢
      exact hkept (by rw [screens_opened, if_neg hopen]) rfl
  | viewWillAppear other =>
      have hne : screen ≠ other := (of_decide_eq_true hkeeps).symm
      rw [← Option.some.inj hs] at hkept ⊢
      exact hkept (by rw [screens_update, if_neg hne]) rfl
  | closed other =>
      have hne : screen ≠ other := (of_decide_eq_true hkeeps).symm
      rw [← Option.some.inj hs] at hkept ⊢
      exact hkept (by rw [screens_close, if_neg hne]) rfl
  | adCallback other received =>
      rw [← Option.some.inj hs] at hkept ⊢
      by_cases hsame : screen = other
      · refine ⟨c.adCallback received, ?_, ?_⟩
        · rw [screens_update, if_pos hsame, ← hsame, hc, Option.map_some]
        · have hbuys : (PurchaseEvent.adCallback other received).buys = false := rfl
          rw [OfferScreen.offers_adCallback, hbuys, Bool.not_false, Bool.and_true]
      · exact hkept (by rw [screens_update, if_neg hsame]) rfl
  | turn input =>
      have hlaunch : App.isLaunch input.event = false := by
        simpa [PurchaseEvent.keeps] using hkeeps
      exact (told_turn hlaunch hs).exists_screen hc

theorem reachable_app {device : App} {throws : Bool}
    (hw : Transition.Reachable step (launched device throws) w) :
    Transition.Reachable App.step (device.launch throws) w.app := by
  refine Transition.Reachable.invariant
    (I := fun w => Transition.Reachable App.step (device.launch throws) w.app) ?_ hw
    (Transition.Reachable.refl _)
  intro w event w' hreached hs
  cases event with
  | turn input =>
      have happ := app_turn w input
      rw [show w.turn input = some w' from hs, Option.map_some] at happ
      exact hreached.trans (Transition.Reachable.of_step happ.symm)
  | _ => exact Option.some.inj hs ▸ hreached

theorem offers_run {later : List PurchaseEvent} (h : Honest w)
    (hkeeps : ∀ event ∈ later, event.keeps screen = true) (hc : w.screens screen = some c)
    (hs : Transition.run step w later = some w') :
    ∃ c', w'.screens screen = some c' ∧
      c'.offers = (c.offers && !later.any PurchaseEvent.buys) := by
  induction later generalizing w c with
  | nil =>
      rw [← Option.some.inj hs]
      exact ⟨c, hc, by simp⟩
  | cons event later ih =>
      obtain ⟨next, hnext, hrest⟩ := Transition.run_cons_eq_some.mp hs
      obtain ⟨c₁, hc₁, hoffers₁⟩ := offers_step h (hkeeps event List.mem_cons_self) hc hnext
      have hkeeps' := fun event hmem => hkeeps event (List.mem_cons_of_mem _ hmem)
      obtain ⟨c', hc', hoffers'⟩ := ih (honest_step h hnext) hkeeps' hc₁ hrest
      refine ⟨c', hc', ?_⟩
      rw [hoffers', hoffers₁, List.any_cons, Bool.not_or, Bool.and_assoc]

/-- The event makes the screen look at the purchase: its view is loaded, or a controller
with a banner appears. -/
def LooksAt (w : PurchaseScreens) (screen : Nat) : PurchaseEvent → Prop
  | .openBanner | .openSettings => screen = w.nextScreen
  | .viewWillAppear other => other = screen ∧ ∃ c, w.screens screen = some (.banner c)
  | _ => False

theorem offers_looksAt (hlooks : w.LooksAt screen event) (hs : step w event = some w') :
    ∃ c, w'.screens screen = some c ∧ c.offers = !w.app.isPurchased := by
  cases event with
  | openBanner =>
      have hnew : screen = w.nextScreen := hlooks
      rw [← Option.some.inj hs, screens_opened, if_pos hnew]
      exact ⟨_, rfl, OfferScreen.offers_check _ _⟩
  | openSettings =>
      have hnew : screen = w.nextScreen := hlooks
      rw [← Option.some.inj hs, screens_opened, if_pos hnew]
      exact ⟨_, rfl, OfferScreen.offers_settings _⟩
  | viewWillAppear other =>
      obtain ⟨rfl, c, hc⟩ := hlooks
      rw [← Option.some.inj hs, screens_update, if_pos rfl, hc]
      exact ⟨_, rfl, OfferScreen.offers_check c _⟩
  | _ => exact hlooks.elim

end Runs

/-- However purchases, restorations and failures come between the openings of screens:
while the app is purchased no open screen offers anything or shows an ad. And as long as a
screen stays open, it offers something exactly if the app was not purchased when the screen
last looked and nothing has been bought since, whatever has failed. -/
theorem offers_until_purchase {device : App} {throws : Bool} {before : List PurchaseEvent}
    {w : PurchaseScreens} (hw : Transition.run step (launched device throws) before = some w) :
    (w.app.isPurchased = true → ∀ screen c, w.screens screen = some c →
      c.offers = false ∧ c.showsAd = false) ∧
    ∀ event screen shown later w', w.LooksAt screen event → step w event = some shown →
      (∀ event ∈ later, event.keeps screen = true) →
      Transition.run step shown later = some w' →
        ∃ c, w'.screens screen = some c ∧
          c.offers = (!w.app.isPurchased && !later.any PurchaseEvent.buys) := by
  have honest : Honest w :=
    Transition.Reachable.invariant (fun _ _ _ h hs => honest_step h hs) ⟨before, hw⟩
      (honest_launched device throws)
  constructor
  · intro hp screen c hc
    have hoffers := honest.withdrawn hp screen c hc
    exact ⟨hoffers, OfferScreen.showsAd_of_offers hoffers⟩
  · intro event screen shown later w' hlooks hshown hkeeps hs
    obtain ⟨c, hc, hoffers⟩ := offers_looksAt hlooks hshown
    obtain ⟨c', hc', hoffers'⟩ := offers_run (honest_step honest hshown) hkeeps hc hs
    exact ⟨c', hc', by rw [hoffers', hoffers]⟩

/-- The settings screen is open while the queue brings a purchase and then a failure. -/
theorem offers_until_purchase_queued_failure :
    ∃ w shown w', Transition.run step (launched App.installed false) [.openBanner] = some w ∧
      step w .openSettings = some shown ∧
      Transition.run step shown
        [.turn ⟨.completeTransactions [.purchased, .failed], "", 0⟩] = some w' ∧
      w'.app.isPurchased = false ∧ ∃ c, w'.screens 1 = some c ∧ c.offers = false := by
  have hrun : ∃ w shown w',
      Transition.run step (launched App.installed false) [.openBanner] = some w ∧
      w.LooksAt 1 .openSettings ∧ step w .openSettings = some shown ∧
      Transition.run step shown
        [.turn ⟨.completeTransactions [.purchased, .failed], "", 0⟩] = some w' ∧
      w'.app.isPurchased = false := ⟨_, _, _, rfl, rfl, rfl, rfl, rfl⟩
  obtain ⟨w, shown, w', hw, hlooks, hshown, hs, hlost⟩ := hrun
  obtain ⟨c, hc, hoffers⟩ :=
    (offers_until_purchase hw).2 .openSettings 1 shown _ w' hlooks hshown (by decide) hs
  refine ⟨w, shown, w', hw, hshown, hs, hlost, c, hc, ?_⟩
  rw [hoffers]
  exact Bool.and_false _

end PurchaseScreens

end Proverbs
