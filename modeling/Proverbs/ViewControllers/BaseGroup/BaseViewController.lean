import Proverbs.Managers.Machine
import Proverbs.Managers.ShareToUnlock

/-! # BaseViewController

The share flow of the screens: an item of the sheet makes a helper, which hands its link
to a dialog or to the pasteboard; a dialog that ends with a share is counted by
`ShareToUnlock`, unless the app is purchased. Reading a favourite that has been deleted
from Realm traps.
-/

namespace Proverbs

/-! ## ContentShareHelper -/

inductive ContentShareServiceType where
  | facebook
  | twitter
  | clipboard
deriving DecidableEq, Repr

structure ContentShareHelper where
  serviceType : ContentShareServiceType
  proverb : Proverb
deriving DecidableEq, Repr

/-- The link `share()` hands on; a favourite is shared under its origin. -/
def ContentShareHelper.shareURLString (helper : ContentShareHelper) : String :=
  let baseURLString := "https://www.saypro.me/share/"
  let identifier := (helper.proverb.originIdentifier?).getD helper.proverb.identifier
  baseURLString ++ identifier ++ ".html"

/-- How a dialog of Facebook or Twitter ends. -/
inductive ShareResult where
  | done
  | cancelled
  | failed
deriving DecidableEq, Repr

/-! ## Alerts -/

inductive ScreenAlert where
  | purchase
  | purchaseOrUnlock (daysLeftToUnlock : Int)
  | leftDays (daysLeftToUnlock : Int)
  | congratulation
deriving DecidableEq, Repr

def ScreenAlert.daysLeft : ScreenAlert → Option Int
  | .purchaseOrUnlock daysLeftToUnlock | .leftDays daysLeftToUnlock => some daysLeftToUnlock
  | _ => none

/-- What the screens show. `didShare` records, for the statements below, the calls of
`contentShareHelperDidShare`. -/
inductive ScreenOutput where
  | alert (alert : ScreenAlert)
  | dialog (serviceType : ContentShareServiceType) (link : String)
  | signInSheet
  | didShare (serviceType : ContentShareServiceType)
deriving DecidableEq, Repr

/-! ## The share flow -/

structure BaseViewController where
  app : App
  shareToUnlock : ShareToUnlock
  shareHelper : Option ContentShareHelper
  pasteboard : Option String
  outputs : List ScreenOutput

namespace BaseViewController

def output (s : BaseViewController) (o : ScreenOutput) : BaseViewController :=
  { s with outputs := s.outputs ++ [o] }

/-- `share(withLink:)` of the three helpers. -/
def shareLink (s : BaseViewController) (serviceType : ContentShareServiceType) (link : String) :
    BaseViewController :=
  match serviceType with
  | .facebook | .twitter => s.output (.dialog serviceType link)
  | .clipboard => { s with pasteboard := some link }

def share (s : BaseViewController) (serviceType : ContentShareServiceType) (proverb : Proverb) :
    Option BaseViewController :=
  if s.app.readable proverb then
    let helper : ContentShareHelper := ⟨serviceType, proverb⟩
    some ({ s with shareHelper := some helper }.shareLink serviceType helper.shareURLString)
  else none

/-- The completion handed to `checkAndChangeCounter`, run with its answer. -/
def counterChanged (t : ShareToUnlock) : ShareOutput → Option ScreenOutput
  | .completed _ true =>
      some (.alert (if t.isUnlocked then .congratulation else .leftDays t.daysLeftToUnlock))
  | _ => none

def shareStep (zone : TimeZone) (s : BaseViewController) (event : ShareEvent) :
    BaseViewController :=
  let shareToUnlock := s.shareToUnlock.handle zone event
  let answers := shareToUnlock.outputs.drop s.shareToUnlock.outputs.length
  { s with
    shareToUnlock := shareToUnlock
    outputs := s.outputs ++ answers.filterMap (counterChanged shareToUnlock) }

def contentShareHelperDidShare (zone : TimeZone) (s : BaseViewController)
    (helper : ContentShareHelper) : BaseViewController :=
  let s := { s with shareHelper := none }.output (.didShare helper.serviceType)
  if s.app.isPurchased then s
  else if helper.serviceType = .facebook ∨ helper.serviceType = .twitter then
    s.shareStep zone .checkAndChangeCounter
  else s

/-- The dialog of the helper ends; the pasteboard has none. -/
def dialogClosed (zone : TimeZone) (s : BaseViewController) (result : ShareResult) :
    BaseViewController :=
  match s.shareHelper with
  | none => s
  | some helper =>
      if helper.serviceType = .clipboard then s
      else
        match result with
        | .done => s.contentShareHelperDidShare zone helper
        | .cancelled | .failed => { s with shareHelper := none }

/-! ## Shares and the count -/

def shares (s : BaseViewController) : Nat :=
  s.outputs.countP fun output =>
    output = .didShare .facebook ∨ output = .didShare .twitter

/-- An alert names no day but those that are left of the five. -/
def NamesDays (output : ScreenOutput) : Prop :=
  ∀ alert, output = .alert alert → ∀ days, alert.daysLeft = some days → 1 ≤ days ∧ days ≤ 5

/-- What is counted, or waits for the time to be counted, was shared; five counted
shares unlock. -/
structure Counted (s : BaseViewController) : Prop where
  shared : s.shareToUnlock.currentShareCount + s.shareToUnlock.fetches.length ≤ s.shares
  unlocked : s.shareToUnlock.isUnlocked = true ↔ 5 ≤ s.shareToUnlock.currentShareCount
  days : ∀ output ∈ s.outputs, NamesDays output

section Counter

variable {zone : TimeZone} {t : ShareToUnlock}

theorem daysLeftToUnlock_bounds (hlocked : t.isUnlocked = false)
    (hunlocked : t.isUnlocked = true ↔ 5 ≤ t.currentShareCount) :
    1 ≤ t.daysLeftToUnlock ∧ t.daysLeftToUnlock ≤ 5 := by
  have hcount : ¬ 5 ≤ t.currentShareCount := by
    rw [← hunlocked, hlocked]
    exact Bool.false_ne_true
  unfold ShareToUnlock.daysLeftToUnlock ShareToUnlock.requiredShareDays
  omega

theorem counterChanged_spec (hunlocked : t.isUnlocked = true ↔ 5 ≤ t.currentShareCount)
    {answer : ShareOutput} {output : ScreenOutput} (h : counterChanged t answer = some output) :
    NamesDays output ∧ ∃ alert, output = .alert alert := by
  unfold counterChanged at h
  split at h
  · obtain rfl := Option.some.inj h
    refine ⟨fun alert halert days hdays => ?_, _, rfl⟩
    obtain rfl := ScreenOutput.alert.inj halert
    cases hlocked : t.isUnlocked with
    | true => simp [hlocked, ScreenAlert.daysLeft] at hdays
    | false =>
        simp only [hlocked, Bool.false_eq_true, if_false, ScreenAlert.daysLeft,
          Option.some.injEq] at hdays
        rw [← hdays]
        exact daysLeftToUnlock_bounds hlocked hunlocked
  · cases h

def newShares : ShareEvent → Nat
  | .checkAndChangeCounter => 1
  | _ => 0

theorem pending_currentDateObtained (zone : TimeZone) (request : Nat)
    (currentDate deviceDate : Date) :
    (t.currentDateObtained zone request currentDate deviceDate).currentShareCount ≤
        t.currentShareCount + 1 ∧
      (t.currentDateObtained zone request currentDate deviceDate).fetches = t.fetches := by
  by_cases hnew : ShareToUnlock.IsNewShare zone t currentDate deviceDate
  · rw [ShareToUnlock.currentDateObtained_of_new hnew]
    exact ⟨le_refl _, ShareToUnlock.fetches_updateLastShareDate currentDate⟩
  · rw [ShareToUnlock.currentDateObtained_of_not_new hnew]
    exact ⟨Nat.le_add_right _ _, rfl⟩

/-- The counted shares and those that wait never become more than the calls. -/
theorem pending_handle (zone : TimeZone) (t : ShareToUnlock) (event : ShareEvent) :
    (t.handle zone event).currentShareCount + (t.handle zone event).fetches.length ≤
      t.currentShareCount + t.fetches.length + newShares event := by
  cases event with
  | launch =>
      simp only [ShareToUnlock.handle, List.length_nil, newShares]
      omega
  | checkAndChangeCounter =>
      simp only [ShareToUnlock.handle, ShareToUnlock.checkAndChangeCounter, newShares]
      split
      · exact Nat.le_add_right _ _
      · simp only [List.length_append, List.length_singleton]
        omega
  | fetched request result deviceDate =>
      by_cases hpending : request ∈ t.fetches
      · rw [ShareToUnlock.handle_fetched hpending]
        obtain ⟨hcount, hfetches⟩ := pending_currentDateObtained (t := t.answered request) zone
          request (ShareToUnlock.obtainedDate result deviceDate) deviceDate
        have hlength : (t.answered request).fetches.length + 1 = t.fetches.length :=
          List.length_erase_add_one hpending
        have hanswered : (t.answered request).currentShareCount = t.currentShareCount := rfl
        rw [hfetches]
        omega
      · simp only [ShareToUnlock.handle, ShareToUnlock.referenceTimeFetched, if_neg hpending]
        exact Nat.le_add_right _ _

theorem currentShareCount_le_handle (event : ShareEvent) :
    t.currentShareCount ≤ (t.handle zone event).currentShareCount := by
  cases event with
  | launch => exact le_refl _
  | checkAndChangeCounter =>
      simp only [ShareToUnlock.handle, ShareToUnlock.checkAndChangeCounter]
      split
      · exact le_refl _
      · exact le_refl _
  | fetched request result deviceDate =>
      by_cases hpending : request ∈ t.fetches
      · rw [ShareToUnlock.handle_fetched hpending]
        by_cases hnew : ShareToUnlock.IsNewShare zone (t.answered request)
            (ShareToUnlock.obtainedDate result deviceDate) deviceDate
        · rw [ShareToUnlock.currentDateObtained_of_new hnew]
          exact Nat.le_succ _
        · rw [ShareToUnlock.currentDateObtained_of_not_new hnew]
          exact le_refl _
      · simp only [ShareToUnlock.handle, ShareToUnlock.referenceTimeFetched, if_neg hpending]
        exact le_refl _

theorem unlocked_currentDateObtained (h : t.isUnlocked = true ↔ 5 ≤ t.currentShareCount)
    (request : Nat) (currentDate deviceDate : Date) :
    (t.currentDateObtained zone request currentDate deviceDate).isUnlocked = true ↔
      5 ≤ (t.currentDateObtained zone request currentDate deviceDate).currentShareCount := by
  by_cases hnew : ShareToUnlock.IsNewShare zone t currentDate deviceDate
  · rw [ShareToUnlock.currentDateObtained_of_new hnew]
    show (t.updateLastShareDate currentDate).isUnlocked = true ↔ 5 ≤ t.currentShareCount + 1
    rw [ShareToUnlock.isUnlocked_updateLastShareDate, Bool.or_eq_true, decide_eq_true_iff, h,
      ShareToUnlock.requiredShareDays]
    omega
  · rw [ShareToUnlock.currentDateObtained_of_not_new hnew]
    exact h

/-- The list is unlocked as soon as five shares are counted, and not before. -/
theorem unlocked_handle (zone : TimeZone)
    (h : t.isUnlocked = true ↔ 5 ≤ t.currentShareCount) (event : ShareEvent) :
    (t.handle zone event).isUnlocked = true ↔ 5 ≤ (t.handle zone event).currentShareCount := by
  cases event with
  | launch => exact h
  | checkAndChangeCounter =>
      simp only [ShareToUnlock.handle, ShareToUnlock.checkAndChangeCounter]
      split
      · exact h
      · exact h
  | fetched request result deviceDate =>
      by_cases hpending : request ∈ t.fetches
      · rw [ShareToUnlock.handle_fetched hpending]
        exact unlocked_currentDateObtained (t := t.answered request) h request _ deviceDate
      · simp only [ShareToUnlock.handle, ShareToUnlock.referenceTimeFetched, if_neg hpending]
        exact h

end Counter

section Flow

variable {zone : TimeZone} {s : BaseViewController}

theorem shares_append (outputs : List ScreenOutput) :
    { s with outputs := s.outputs ++ outputs }.shares =
      s.shares + { s with outputs := outputs }.shares := by
  simp [shares, List.countP_append]

theorem Counted.output (h : Counted s) {o : ScreenOutput} (hdays : NamesDays o) :
    Counted (s.output o) := by
  refine ⟨?_, h.unlocked, ?_⟩
  · have hshares : (s.output o).shares = s.shares + { s with outputs := [o] }.shares :=
      shares_append [o]
    have hshared : (s.output o).shareToUnlock.currentShareCount +
        (s.output o).shareToUnlock.fetches.length ≤ s.shares := h.shared
    omega
  · intro other hother
    rcases List.mem_append.mp hother with hother | hother
    · exact h.days other hother
    · obtain rfl := List.mem_singleton.mp hother
      exact hdays

/-- A turn of `ShareToUnlock` that asks for the time needs a share that is not counted. -/
theorem Counted.shareStep (h : Counted s) (event : ShareEvent)
    (hshared : s.shareToUnlock.currentShareCount + s.shareToUnlock.fetches.length +
      newShares event ≤ s.shares) : Counted (s.shareStep zone event) := by
  have hunlocked := unlocked_handle zone h.unlocked event
  refine ⟨?_, hunlocked, ?_⟩
  · have hpending := pending_handle zone s.shareToUnlock event
    have hshares : s.shares ≤ (s.shareStep zone event).shares := by
      rw [show (s.shareStep zone event).shares = _ from
        shares_append (s := { s with shareToUnlock := s.shareToUnlock.handle zone event }) _]
      exact Nat.le_add_right _ _
    exact (hpending.trans hshared).trans hshares
  · intro output houtput
    rcases List.mem_append.mp houtput with houtput | houtput
    · exact h.days output houtput
    · obtain ⟨answer, -, hanswer⟩ := List.mem_filterMap.mp houtput
      exact (counterChanged_spec hunlocked hanswer).1

theorem Counted.contentShareHelperDidShare (h : Counted s) (helper : ContentShareHelper) :
    Counted (s.contentShareHelperDidShare zone helper) := by
  have hreported : Counted ({ s with shareHelper := none }.output (.didShare helper.serviceType)) :=
    Counted.output (s := { s with shareHelper := none }) ⟨h.shared, h.unlocked, h.days⟩
      fun alert halert => by cases halert
  simp only [BaseViewController.contentShareHelperDidShare]
  generalize hnext : { s with shareHelper := none }.output (.didShare helper.serviceType) = next
    at hreported
  by_cases hpurchased : next.app.isPurchased = true
  · rw [if_pos hpurchased]
    exact hreported
  · rw [if_neg hpurchased]
    by_cases hservice : helper.serviceType = .facebook ∨ helper.serviceType = .twitter
    · rw [if_pos hservice]
      refine hreported.shareStep .checkAndChangeCounter ?_
      have hshares : next.shares = s.shares + 1 := by
        rw [← hnext]
        rcases hservice with hservice | hservice
        · simp [shares, BaseViewController.output, hservice]
        · simp [shares, BaseViewController.output, hservice]
      have hunchanged : next.shareToUnlock = s.shareToUnlock := by
        rw [← hnext]
        rfl
      rw [hshares, hunchanged]
      exact Nat.add_le_add_right h.shared 1
    · rw [if_neg hservice]
      exact hreported

theorem Counted.dialogClosed (h : Counted s) (result : ShareResult) :
    Counted (s.dialogClosed zone result) := by
  unfold BaseViewController.dialogClosed
  split
  · exact h
  · split
    · exact h
    · cases result with
      | done => exact h.contentShareHelperDidShare _
      | cancelled => exact ⟨h.shared, h.unlocked, h.days⟩
      | failed => exact ⟨h.shared, h.unlocked, h.days⟩

theorem Counted.share (h : Counted s) {serviceType : ContentShareServiceType} {proverb : Proverb}
    {t : BaseViewController} (ht : s.share serviceType proverb = some t) : Counted t := by
  unfold BaseViewController.share at ht
  split at ht
  · obtain rfl := Option.some.inj ht
    have hhelper : Counted { s with shareHelper := some ⟨serviceType, proverb⟩ } :=
      ⟨h.shared, h.unlocked, h.days⟩
    cases serviceType with
    | facebook => exact hhelper.output fun alert halert => by cases halert
    | twitter => exact hhelper.output fun alert halert => by cases halert
    | clipboard => exact ⟨h.shared, h.unlocked, h.days⟩
  · cases ht

/-- What the share flow leaves alone. -/
structure ShareTurn (s t : BaseViewController) : Prop where
  app : t.app = s.app
  count : s.shareToUnlock.currentShareCount ≤ t.shareToUnlock.currentShareCount
  sheet : .signInSheet ∈ t.outputs → .signInSheet ∈ s.outputs

theorem shareTurn_output {o : ScreenOutput} (hother : o ≠ .signInSheet) :
    ShareTurn s (s.output o) := by
  refine ⟨rfl, le_refl _, fun hmem => ?_⟩
  rcases List.mem_append.mp hmem with hmem | hmem
  · exact hmem
  · exact absurd (List.mem_singleton.mp hmem).symm hother

theorem shareTurn_shareStep (zone : TimeZone) (hunlocked : s.shareToUnlock.isUnlocked = true ↔
      5 ≤ s.shareToUnlock.currentShareCount) (event : ShareEvent) :
    ShareTurn s (s.shareStep zone event) := by
  refine ⟨rfl, currentShareCount_le_handle event, fun hmem => ?_⟩
  rcases List.mem_append.mp hmem with hmem | hmem
  · exact hmem
  · obtain ⟨answer, -, hanswer⟩ := List.mem_filterMap.mp hmem
    obtain ⟨alert, halert⟩ := (counterChanged_spec (unlocked_handle zone hunlocked event) hanswer).2
    cases halert

theorem shareTurn_contentShareHelperDidShare (h : Counted s) (helper : ContentShareHelper) :
    ShareTurn s (s.contentShareHelperDidShare zone helper) := by
  have hreported : ShareTurn s
      ({ s with shareHelper := none }.output (.didShare helper.serviceType)) := by
    obtain ⟨happ, hcount, hsheet⟩ := shareTurn_output (s := { s with shareHelper := none })
      (o := .didShare helper.serviceType) (fun heq => by cases heq)
    exact ⟨happ, hcount, hsheet⟩
  simp only [BaseViewController.contentShareHelperDidShare]
  split
  · exact hreported
  · split
    · obtain ⟨happ, hcount, hsheet⟩ := shareTurn_shareStep zone
        (s := { s with shareHelper := none }.output (.didShare helper.serviceType)) h.unlocked
        .checkAndChangeCounter
      exact ⟨happ, hcount, fun hmem => hreported.sheet (hsheet hmem)⟩
    · exact hreported

theorem shareTurn_dialogClosed (h : Counted s) (result : ShareResult) :
    ShareTurn s (s.dialogClosed zone result) := by
  unfold BaseViewController.dialogClosed
  split
  · exact ⟨rfl, le_refl _, fun hmem => hmem⟩
  · split
    · exact ⟨rfl, le_refl _, fun hmem => hmem⟩
    · cases result with
      | done => exact shareTurn_contentShareHelperDidShare h _
      | cancelled => exact ⟨rfl, le_refl _, fun hmem => hmem⟩
      | failed => exact ⟨rfl, le_refl _, fun hmem => hmem⟩

theorem shareTurn_share {serviceType : ContentShareServiceType} {proverb : Proverb}
    {t : BaseViewController} (ht : s.share serviceType proverb = some t) : ShareTurn s t := by
  unfold BaseViewController.share at ht
  split at ht
  · obtain rfl := Option.some.inj ht
    cases serviceType with
    | facebook | twitter =>
        obtain ⟨happ, hcount, hsheet⟩ := shareTurn_output
          (s := { s with shareHelper := some ⟨_, proverb⟩ }) (o := .dialog _ _)
          (fun heq => by cases heq)
        exact ⟨happ, hcount, hsheet⟩
    | clipboard => exact ⟨rfl, le_refl _, fun hmem => hmem⟩
  · cases ht

end Flow

end BaseViewController

end Proverbs
