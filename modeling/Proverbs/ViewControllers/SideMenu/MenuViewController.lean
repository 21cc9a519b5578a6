import Proverbs.Managers.OnDevice
import Proverbs.ViewControllers.BaseGroup.BaseViewController

/-! # MenuViewController

The menu and the one controller it embeds, with the share flow below them. An item that is
locked only shows an alert. While the app is not purchased the list of all proverbs stays
out of reach until five shares were reported, and the app keeps to the device.
-/

namespace Proverbs

/-! ## MenuListViewController -/

inductive MenuItem where
  | random
  | allList
  | settings
  | login
deriving DecidableEq, Repr

inductive UnlockableType where
  | pay
  | payOrShare
  | free
deriving DecidableEq, Repr

inductive EmbeddedController where
  | randomProverb
  | allProverbs
  | settings
deriving DecidableEq, Repr

namespace MenuItem

def itemsList : List MenuItem := [.random, .allList, .settings, .login]

def title : MenuItem → String
  | .random => "Random"
  | .allList => "All List"
  | .settings => "Settings"
  | .login => "Sign In"

def viewController : MenuItem → Option EmbeddedController
  | .random => some .randomProverb
  | .allList => some .allProverbs
  | .settings => some .settings
  | .login => none

def unlockType : MenuItem → UnlockableType
  | .allList => .payOrShare
  | .login => .pay
  | _ => .free

def canBePerformed (item : MenuItem) (isPurchased isUnlocked : Bool) : Bool :=
  match item.unlockType with
  | .pay => isPurchased
  | .payOrShare => isPurchased || isUnlocked
  | .free => true

end MenuItem

/-! ## MenuViewController -/

structure MenuViewController where
  base : BaseViewController
  currentEmbeddedViewController : EmbeddedController
  /-- `sideViewController` is set, and on the screen. -/
  isMenuVisible : Bool
  /-- The list's animations that will end in `sideViewController = nil`. -/
  dismissals : Nat
  signInSheet : Bool

inductive MenuEvent where
  | showMenu
  | hideMenu
  | menuDismissed
  | buttonPushed (tag : Nat) (signOutThrows : Bool)
  /-- An item of the sheet "Sign In with"; without an option, "Cancel". -/
  | signInOption (option : Option Login)
  | share (serviceType : ContentShareServiceType) (proverb : Proverb)
  | dialogClosed (result : ShareResult)
  | fetched (request : Nat) (result : ReferenceTimeResult) (deviceDate : Date)
  | app (input : Input)
deriving DecidableEq, Repr

namespace MenuViewController

/-- A turn of the managers. With a new process the screens are new as well; the share
counter is in the user defaults, and what was recorded of the screens is kept. -/
def appStep (zone : TimeZone) (s : MenuViewController) (input : Input) :
    Option MenuViewController :=
  (App.step s.base.app input).map fun app =>
    match input.event with
    | .launch _ =>
        { base := { s.base with
            app := app
            shareToUnlock := s.base.shareToUnlock.handle zone .launch
            shareHelper := none }
          currentEmbeddedViewController := .randomProverb
          isMenuVisible := false
          dismissals := 0
          signInSheet := false }
    | _ => { s with base := { s.base with app := app } }

/-- The alerts and the sheet are presented on the list, if it is there. -/
def present (s : MenuViewController) (output : ScreenOutput) : MenuViewController :=
  if s.isMenuVisible then { s with base := s.base.output output } else s

def dismiss (s : MenuViewController) : MenuViewController :=
  if s.isMenuVisible then { s with dismissals := s.dismissals + 1 } else s

def hide (s : MenuViewController) : MenuViewController :=
  if s.isMenuVisible then s.dismiss else s

def checkAndSignInUser (zone : TimeZone) (s : MenuViewController) (signOutThrows : Bool) :
    Option MenuViewController :=
  if s.base.app.isSignedIn then s.appStep zone ⟨.signOut signOutThrows, "", Date.zero⟩
  else some { s.present .signInSheet with signInSheet := s.signInSheet || s.isMenuVisible }

def didSelect (zone : TimeZone) (s : MenuViewController) (item : MenuItem)
    (signOutThrows : Bool) : Option MenuViewController :=
  if !item.canBePerformed s.base.app.isPurchased s.base.shareToUnlock.isUnlocked then
    match item.unlockType with
    | .pay => some (s.present (.alert .purchase))
    | .payOrShare =>
        some (s.present (.alert (.purchaseOrUnlock s.base.shareToUnlock.daysLeftToUnlock)))
    | .free => some s
  else if item = .login then s.checkAndSignInUser zone signOutThrows
  else
    match item.viewController with
    | none => some s
    | some newViewController =>
        if newViewController = s.currentEmbeddedViewController then some s.hide
        else some { s with currentEmbeddedViewController := newViewController }.dismiss

def buttonPushed (zone : TimeZone) (s : MenuViewController) (tag : Nat) (signOutThrows : Bool) :
    Option MenuViewController :=
  match MenuItem.itemsList[tag]? with
  | none => some s
  | some item => s.didSelect zone item signOutThrows

def signInOption (zone : TimeZone) (s : MenuViewController) (option : Option Login) :
    Option MenuViewController :=
  if s.signInSheet then
    let s := { s with signInSheet := false }
    match option with
    | none => some s
    | some option => s.appStep zone ⟨.signIn option, "", Date.zero⟩
  else some s

def step (zone : TimeZone) (s : MenuViewController) (event : MenuEvent) :
    Option MenuViewController :=
  match event with
  | .showMenu => some { s with isMenuVisible := true }
  | .hideMenu => some s.hide
  | .menuDismissed =>
      if 0 < s.dismissals then
        some { s with isMenuVisible := false, dismissals := s.dismissals - 1 }
      else some s
  | .buttonPushed tag signOutThrows => s.buttonPushed zone tag signOutThrows
  | .signInOption option => s.signInOption zone option
  | .share serviceType proverb =>
      (s.base.share serviceType proverb).map fun base => { s with base := base }
  | .dialogClosed result => some { s with base := s.base.dialogClosed zone result }
  | .fetched request result deviceDate =>
      some { s with base := s.base.shareStep zone (.fetched request result deviceDate) }
  | .app input => s.appStep zone input

def installed (firestore : Firestore) : MenuViewController where
  base :=
    { app := { App.installed with firestore := firestore }
      shareToUnlock := ShareToUnlock.installed
      shareHelper := none
      pasteboard := none
      outputs := [] }
  currentEmbeddedViewController := .randomProverb
  isMenuVisible := false
  dismissals := 0
  signInSheet := false

/-! ## The free version -/

/-- What holds of the app as long as it is not purchased. -/
structure Free (firestore : Firestore) (s : MenuViewController) : Prop where
  counted : s.base.Counted
  onDevice : s.base.app.OnDevice
  kept : s.base.app.firestore = firestore
  locked : s.currentEmbeddedViewController = .allProverbs →
    5 ≤ s.base.shareToUnlock.currentShareCount
  noSheet : s.signInSheet = false ∧ ScreenOutput.signInSheet ∉ s.base.outputs

section Free

variable {zone : TimeZone} {firestore : Firestore} {s s' : MenuViewController}

theorem free_installed (firestore : Firestore) : Free firestore (installed firestore) where
  counted :=
    { shared := Nat.zero_le _
      unlocked := show false = true ↔ 5 ≤ 0 by decide
      days := fun _ h => absurd h List.not_mem_nil }
  onDevice := ⟨rfl, rfl, rfl, rfl, rfl⟩
  kept := rfl
  locked := fun h => by cases h
  noSheet := ⟨rfl, List.not_mem_nil⟩

theorem Free.of_base (h : Free firestore s) (hbase : s'.base = s.base)
    (hembedded : s'.currentEmbeddedViewController = s.currentEmbeddedViewController)
    (hsheet : s'.signInSheet = s.signInSheet) : Free firestore s' := by
  constructor
  · rw [hbase]
    exact h.counted
  · rw [hbase]
    exact h.onDevice
  · rw [hbase]
    exact h.kept
  · rw [hbase, hembedded]
    exact h.locked
  · rw [hbase, hsheet]
    exact h.noSheet

theorem Free.appStep (h : Free firestore s) {input : Input}
    (hfree : s.base.app.isPurchased = false) (hs : s.appStep zone input = some s') :
    Free firestore s' := by
  obtain ⟨app, happ, rfl⟩ := Option.map_eq_some_iff.mp hs
  obtain ⟨honDevice, hfirestore⟩ := h.onDevice.step (fun _ _ => hfree) happ
  split
  · refine ⟨⟨?_, h.counted.unlocked, h.counted.days⟩, honDevice, hfirestore.trans h.kept,
      (fun hembedded => nomatch hembedded), rfl, h.noSheet.2⟩
    exact (Nat.le_add_right _ _).trans h.counted.shared
  · exact ⟨⟨h.counted.shared, h.counted.unlocked, h.counted.days⟩, honDevice,
      hfirestore.trans h.kept, h.locked, h.noSheet⟩

theorem Free.present (h : Free firestore s) {output : ScreenOutput}
    (hdays : BaseViewController.NamesDays output) (hother : output ≠ .signInSheet) :
    Free firestore (s.present output) := by
  unfold MenuViewController.present
  split
  · refine ⟨h.counted.output hdays, h.onDevice, h.kept, h.locked, ⟨h.noSheet.1, fun hmem => ?_⟩⟩
    rcases List.mem_append.mp hmem with hmem | hmem
    · exact h.noSheet.2 hmem
    · exact hother (List.mem_singleton.mp hmem).symm
  · exact h

theorem Free.dismiss (h : Free firestore s) : Free firestore s.dismiss := by
  unfold MenuViewController.dismiss
  split
  · exact h.of_base rfl rfl rfl
  · exact h

theorem Free.hide (h : Free firestore s) : Free firestore s.hide := by
  unfold MenuViewController.hide
  split
  · exact h.dismiss
  · exact h

/-- An item that can be performed in the free version is no sign-in, and is the list
only after five shares. -/
theorem Free.didSelect (h : Free firestore s) (hfree : s.base.app.isPurchased = false)
    {item : MenuItem} {throws : Bool} (hs : s.didSelect zone item throws = some s') :
    Free firestore s' := by
  have hlocked : s.base.shareToUnlock.isUnlocked = false →
      BaseViewController.NamesDays
        (.alert (.purchaseOrUnlock s.base.shareToUnlock.daysLeftToUnlock)) := by
    intro hlocked alert halert days hdays
    obtain rfl := ScreenOutput.alert.inj halert
    obtain rfl := Option.some.inj hdays
    exact BaseViewController.daysLeftToUnlock_bounds hlocked h.counted.unlocked
  have hnoDays : BaseViewController.NamesDays (.alert .purchase) := by
    intro alert halert days hdays
    obtain rfl := ScreenOutput.alert.inj halert
    cases hdays
  cases item with
  | login =>
      simp only [MenuViewController.didSelect, MenuItem.canBePerformed, MenuItem.unlockType, hfree,
        Bool.not_false, if_true, Option.some.injEq] at hs
      rw [← hs]
      exact h.present hnoDays fun heq => by cases heq
  | allList =>
      simp only [MenuViewController.didSelect, MenuItem.canBePerformed, MenuItem.unlockType, hfree,
        Bool.false_or] at hs
      cases hunlocked : s.base.shareToUnlock.isUnlocked with
      | false =>
          simp only [hunlocked, Bool.not_false, if_true, Option.some.injEq] at hs
          rw [← hs]
          exact h.present (hlocked hunlocked) fun heq => by cases heq
      | true =>
          have hcount := h.counted.unlocked.mp hunlocked
          simp only [hunlocked, Bool.not_true, Bool.false_eq_true, if_false, reduceCtorEq,
            MenuItem.viewController] at hs
          split at hs
          · rw [← Option.some.inj hs]
            exact h.hide
          · rw [← Option.some.inj hs]
            apply Free.dismiss
            exact ⟨h.counted, h.onDevice, h.kept, fun _ => hcount, h.noSheet⟩
  | random | settings =>
      simp only [MenuViewController.didSelect, MenuItem.canBePerformed, MenuItem.unlockType,
        Bool.not_true, Bool.false_eq_true, if_false, reduceCtorEq,
        MenuItem.viewController] at hs
      split at hs
      · rw [← Option.some.inj hs]
        exact h.hide
      · rw [← Option.some.inj hs]
        apply Free.dismiss
        exact ⟨h.counted, h.onDevice, h.kept, (fun hembedded => nomatch hembedded), h.noSheet⟩

theorem Free.shareTurn (h : Free firestore s) {base : BaseViewController}
    (hcounted : base.Counted) (hturn : BaseViewController.ShareTurn s.base base) :
    Free firestore { s with base := base } := by
  refine ⟨hcounted, ?_, ?_, ?_, h.noSheet.1, ?_⟩
  · rw [hturn.app]
    exact h.onDevice
  · rw [hturn.app]
    exact h.kept
  · exact fun hembedded => (h.locked hembedded).trans hturn.count
  · exact fun hmem => h.noSheet.2 (hturn.sheet hmem)

theorem Free.step (h : Free firestore s) {event : MenuEvent}
    (hfree : s.base.app.isPurchased = false) (hs : s.step zone event = some s') :
    Free firestore s' := by
  cases event with
  | showMenu =>
      rw [← Option.some.inj hs]
      exact h.of_base rfl rfl rfl
  | hideMenu =>
      rw [← Option.some.inj hs]
      exact h.hide
  | menuDismissed =>
      rw [MenuViewController.step] at hs
      split at hs
      · rw [← Option.some.inj hs]
        exact h.of_base rfl rfl rfl
      · rw [← Option.some.inj hs]
        exact h
  | buttonPushed tag throws =>
      rw [MenuViewController.step, MenuViewController.buttonPushed] at hs
      split at hs
      · rw [← Option.some.inj hs]
        exact h
      · exact h.didSelect hfree hs
  | signInOption option =>
      rw [MenuViewController.step, MenuViewController.signInOption, h.noSheet.1] at hs
      rw [← Option.some.inj hs]
      exact h
  | share serviceType proverb =>
      obtain ⟨base, hbase, rfl⟩ := Option.map_eq_some_iff.mp hs
      exact h.shareTurn (h.counted.share hbase) (BaseViewController.shareTurn_share hbase)
  | dialogClosed result =>
      rw [← Option.some.inj hs]
      exact h.shareTurn (h.counted.dialogClosed result)
        (BaseViewController.shareTurn_dialogClosed h.counted result)
  | fetched request result deviceDate =>
      rw [← Option.some.inj hs]
      exact h.shareTurn (h.counted.shareStep _ h.counted.shared)
        (BaseViewController.shareTurn_shareStep zone h.counted.unlocked _)
  | app input => exact h.appStep hfree hs

end Free

/-- In every run in which the app is not purchased: the list of all proverbs is embedded
only after five shares on Facebook or Twitter were reported, every alert that names days
names one to five, nobody is asked to sign in or signed in, no call is sent, and Firestore
stays as it was. -/
theorem free_version (zone : TimeZone) (firestore : Firestore) {events : List MenuEvent}
    (hfree : Transition.Along (step zone) (fun s _ => s.base.app.isPurchased = false)
      (installed firestore) events)
    {s : MenuViewController}
    (hs : Transition.run (step zone) (installed firestore) events = some s) :
    (s.currentEmbeddedViewController = .allProverbs → 5 ≤ s.base.shares) ∧
      (∀ alert, ScreenOutput.alert alert ∈ s.base.outputs →
        ∀ days, alert.daysLeft = some days → 1 ≤ days ∧ days ≤ 5) ∧
      ScreenOutput.signInSheet ∉ s.base.outputs ∧ s.base.app.currentUser = none ∧
      s.base.app.calls = [] ∧ s.base.app.firestore = firestore := by
  have hend : Free firestore s :=
    Transition.run_invariant (fun _ _ _ h hfree hs => h.step hfree hs) (free_installed firestore)
      hfree hs
  refine ⟨fun hembedded => ?_, fun alert halert => ?_, hend.noSheet.2, hend.onDevice.currentUser,
    hend.onDevice.calls, hend.kept⟩
  · have hcount := hend.locked hembedded
    exact hcount.trans ((Nat.le_add_right _ _).trans hend.counted.shared)
  · exact hend.counted.days _ halert alert rfl

/-- The list is locked at first; a proverb is shared on five days, and then it opens. -/
def fiveDays : List MenuEvent :=
  [.showMenu, .buttonPushed 1 false] ++
    (List.range 5).flatMap (fun day =>
      [.share .facebook (.rProverb ⟨"p", 0, "Text", "Meaning", "A", false⟩), .dialogClosed .done,
        .fetched day (.success (90000 * day)) (90000 * day)]) ++
    [.buttonPushed 1 false, .menuDismissed]

theorem free_version_fiveDays :
    ∃ s, Transition.run (step ShareToUnlock.greenwich) (installed App.installed.firestore)
        fiveDays = some s ∧
      s.currentEmbeddedViewController = .allProverbs ∧ 5 ≤ s.base.shares := by
  have hfree : Transition.Along (step ShareToUnlock.greenwich)
      (fun s _ => s.base.app.isPurchased = false) (installed App.installed.firestore)
      fiveDays := by
    decide
  refine ⟨_, rfl, rfl, ?_⟩
  exact (free_version ShareToUnlock.greenwich App.installed.firestore hfree rfl).1 rfl

end MenuViewController

end Proverbs
