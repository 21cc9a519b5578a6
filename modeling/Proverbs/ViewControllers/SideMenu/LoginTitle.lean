import Proverbs.Managers.Requests
import Proverbs.Managers.UserGroup.AccountStep
import Proverbs.ViewControllers.SideMenu.MenuListViewController

/-! # What the login button says

The title of the login button follows the sign-in state as long as a sign-in that succeeds
was asked from the list that is open when Firebase answers. If the menu was closed and
opened again in between, the answer sets the title of a list that is gone; the button then
says "Sign In" to somebody it signs out.
-/

namespace Proverbs

theorem loginButtonTitle_inj {a b : Bool} : loginButtonTitle a = loginButtonTitle b ↔ a = b := by
  cases a <;> cases b <;> decide

/-! ## One list -/

namespace MenuListViewController

/-- The list after it has appeared. -/
def appeared (title : String) : MenuListViewController where
  menuItems := MenuItem.itemsList
  elementsViews := [⟨681, none⟩, ⟨0, some "Random"⟩, ⟨1, some "All List"⟩, ⟨2, some "Settings"⟩,
    ⟨3, some title⟩]
  shown := true

/-- The lists there are. -/
inductive Formed : MenuListViewController → Prop where
  | loaded : Formed viewDidLoad
  | appeared (title : String) : Formed (appeared title)

section Lists

variable {list : MenuListViewController}

theorem viewDidAppear_viewDidLoad (isSignedIn : Bool) :
    viewDidLoad.viewDidAppear isSignedIn = appeared (loginButtonTitle isSignedIn) := rfl

theorem checkAndUpdate_appeared (title : String) (isSignedIn : Bool) :
    (appeared title).checkAndUpdateLoginButtonTitle isSignedIn =
      appeared (loginButtonTitle isSignedIn) := rfl

theorem Formed.viewDidAppear (h : list.Formed) (isSignedIn : Bool) :
    (list.viewDidAppear isSignedIn).Formed := by
  cases h with
  | loaded =>
      rw [viewDidAppear_viewDidLoad]
      exact .appeared _
  | appeared title => exact .appeared title

theorem Formed.checkAndUpdate (h : list.Formed) (isSignedIn : Bool) :
    (list.checkAndUpdateLoginButtonTitle isSignedIn).Formed := by
  cases h with
  | loaded => exact .loaded
  | appeared title =>
      rw [checkAndUpdate_appeared]
      exact .appeared _

theorem Formed.loginTitle_checkAndUpdate (h : list.Formed) (isSignedIn : Bool) :
    (list.checkAndUpdateLoginButtonTitle isSignedIn).loginTitle =
      list.loginTitle.map fun _ => loginButtonTitle isSignedIn := by
  cases h with
  | loaded => rfl
  | appeared title => rfl

theorem Formed.loginTitle_viewDidAppear (h : list.Formed) (isSignedIn : Bool) :
    (list.viewDidAppear isSignedIn).loginTitle =
      some (list.loginTitle.getD (loginButtonTitle isSignedIn)) := by
  cases h with
  | loaded => rfl
  | appeared title => rfl

end Lists

end MenuListViewController

/-! ## The list that is open -/

namespace MenuScreens

def titleOf (w : MenuScreens) (number : Nat) : Option String :=
  w.lists[number]?.bind MenuListViewController.loginTitle

def loginTitle (w : MenuScreens) : Option String := w.sideViewController.bind w.titleOf

def Right (w : MenuScreens) : Prop :=
  ∀ title ∈ w.loginTitle, title = loginButtonTitle w.app.isSignedIn

instance (w : MenuScreens) : Decidable w.Right :=
  inferInstanceAs (Decidable (∀ title ∈ w.loginTitle, _))

/-- After the event the button says what it should. -/
def Tells (zone : TimeZone) (w : MenuScreens) (event : MenuScreenEvent) : Prop :=
  ∀ w' ∈ step zone w event, w'.Right

instance (zone : TimeZone) (w : MenuScreens) (event : MenuScreenEvent) :
    Decidable (w.Tells zone event) :=
  inferInstanceAs (Decidable (∀ w' ∈ step zone w event, w'.Right))

/-- If Firebase signs in while nobody was and a title is on the screen, the attempt was made
from this list. -/
def AnsweredHere (w : MenuScreens) (event : MenuScreenEvent) : Prop :=
  match event with
  | .menu (.app ⟨.firebaseAuthenticated attempt (.user _), _, _⟩) =>
      ⟨attempt, .firebaseAuth⟩ ∈ w.app.signIns → w.app.isSignedIn = false →
        w.loginTitle.isSome → ∀ number ∈ w.sideViewController, w.captured attempt number
  | _ => True

instance (w : MenuScreens) (event : MenuScreenEvent) : Decidable (w.AnsweredHere event) := by
  unfold AnsweredHere
  split <;> infer_instance

/-- Only the menu signs in and out, apart from the start of a process. -/
def FromMenu : MenuScreenEvent → Prop
  | .menu (.app input) =>
      match input.event with
      | .signIn _ | .signOut _ | .userManagerStart _ => False
      | _ => True
  | _ => True

instance (event : MenuScreenEvent) : Decidable (FromMenu event) := by
  unfold FromMenu
  split
  · split <;> infer_instance
  · infer_instance

/-- The lists are as they are made, and one is there if the menu is open. -/
structure Listed (w : MenuScreens) : Prop where
  formed : ∀ list ∈ w.lists, list.Formed
  opened : w.menu.isMenuVisible = true → w.lists ≠ []

section Titles

variable {w w' : MenuScreens} {menu : MenuViewController} {number : Nat}

def answers (w : MenuScreens) (number : Nat) : Output → Bool
  | .signedIn attempt _ => w.captured attempt number
  | _ => false

/-- A closure changes titles only. -/
structure Received (w w' : MenuScreens) : Prop where
  menu : w'.menu = w.menu
  completions : w'.completions = w.completions
  sheetList : w'.sheetList = w.sheetList
  length : w'.lists.length = w.lists.length

theorem received_receive (w : MenuScreens) (o : Output) : Received w (w.receive o) := by
  cases o with
  | signedIn attempt result => exact ⟨rfl, rfl, rfl, List.length_mapIdx⟩
  | _ => exact ⟨rfl, rfl, rfl, rfl⟩

theorem Received.sideViewController (h : Received w w') :
    w'.sideViewController = w.sideViewController := by
  rw [MenuScreens.sideViewController, MenuScreens.sideViewController, h.menu, h.length]

theorem Received.app (h : Received w w') : w'.app = w.app := by
  rw [MenuScreens.app, MenuScreens.app, h.menu]

theorem getElem?_receive (w : MenuScreens) (o : Output) (number : Nat) :
    (w.receive o).lists[number]? = w.lists[number]?.map fun list =>
      if w.answers number o then list.checkAndUpdateLoginButtonTitle w.app.isSignedIn
      else list := by
  cases o with
  | signedIn attempt result => exact List.getElem?_mapIdx
  | _ => simp [receive, answers]

theorem formed_receive (h : ∀ list ∈ w.lists, list.Formed) (o : Output) :
    ∀ list ∈ (w.receive o).lists, list.Formed := by
  intro list hmem
  obtain ⟨number, hnumber⟩ := List.mem_iff_getElem?.mp hmem
  rw [getElem?_receive] at hnumber
  obtain ⟨old, hold, rfl⟩ := Option.map_eq_some_iff.mp hnumber
  have hformed := h old (List.mem_of_getElem? hold)
  split
  · exact hformed.checkAndUpdate _
  · exact hformed

theorem titleOf_receive (h : ∀ list ∈ w.lists, list.Formed) (o : Output) (number : Nat) :
    (w.receive o).titleOf number =
      if w.answers number o then
        (w.titleOf number).map fun _ => loginButtonTitle w.app.isSignedIn
      else w.titleOf number := by
  rw [titleOf, getElem?_receive, titleOf]
  cases hlist : w.lists[number]? with
  | none => simp
  | some list =>
      have hformed := h list (List.mem_of_getElem? hlist)
      split
      · exact hformed.loginTitle_checkAndUpdate _
      · rfl

theorem receiveAll_spec (h : ∀ list ∈ w.lists, list.Formed) (outputs : List Output) :
    Received w (outputs.foldl receive w) ∧
      (∀ list ∈ (outputs.foldl receive w).lists, list.Formed) ∧
      ∀ number, (outputs.foldl receive w).titleOf number =
        if outputs.any (w.answers number) then
          (w.titleOf number).map fun _ => loginButtonTitle w.app.isSignedIn
        else w.titleOf number := by
  induction outputs generalizing w with
  | nil => exact ⟨⟨rfl, rfl, rfl, rfl⟩, h, by simp⟩
  | cons o outputs ih =>
      have hfirst := received_receive w o
      obtain ⟨hrest, hformed, htitles⟩ := ih (formed_receive h o)
      refine ⟨⟨hrest.menu.trans hfirst.menu, hrest.completions.trans hfirst.completions,
        hrest.sheetList.trans hfirst.sheetList, hrest.length.trans hfirst.length⟩, hformed,
        fun number => ?_⟩
      have hanswers : (w.receive o).answers number = w.answers number := by
        funext other
        unfold answers captured
        rw [hfirst.completions]
      rw [List.foldl_cons, htitles, hanswers, titleOf_receive h, hfirst.app, List.any_cons]
      cases w.answers number o <;> cases outputs.any (w.answers number) <;>
        simp [Function.comp_def]

theorem loginTitle_eq (hnumber : w.sideViewController = some number) :
    w.loginTitle = w.titleOf number := by
  rw [loginTitle, hnumber, Option.bind_some]

theorem right_of_hidden (h : w.menu.isMenuVisible = false) : w.Right := by
  intro title htitle
  simp [loginTitle, sideViewController, h] at htitle

theorem Listed.exists_list (h : Listed w) (hnumber : w.sideViewController = some number) :
    ∃ list, w.lists[number]? = some list ∧ list.Formed := by
  rw [sideViewController] at hnumber
  split at hnumber
  · rename_i hvisible
    have hlast : w.lists.length - 1 < w.lists.length :=
      Nat.sub_one_lt (List.length_pos_iff.mpr (h.opened hvisible)).ne'
    rw [← Option.some.inj hnumber, List.getElem?_eq_getElem hlast]
    exact ⟨_, rfl, h.formed _ (List.getElem_mem hlast)⟩
  · cases hnumber

theorem moved_spec (h : Listed w)
    (hvisible : menu.isMenuVisible = true → w.menu.isMenuVisible = true) :
    Listed (w.moved menu) ∧ (w.moved menu).menu = menu ∧
      ∀ number, (w.moved menu).sideViewController = some number →
        w.sideViewController = some number ∧
        (w.moved menu).loginTitle =
          if (menu.base.app.outputs.drop w.app.outputs.length).any (w.answers number) then
            w.loginTitle.map fun _ => loginButtonTitle menu.base.app.isSignedIn
          else w.loginTitle := by
  obtain ⟨hreceived, hformed, htitles⟩ :=
    receiveAll_spec (w := { w with menu := menu }) h.formed
      (menu.base.app.outputs.drop w.app.outputs.length)
  refine ⟨⟨hformed, fun hopen => ?_⟩, hreceived.menu, fun number hnumber => ?_⟩
  · rw [moved, hreceived.menu] at hopen
    rw [moved, ← List.length_pos_iff, hreceived.length, List.length_pos_iff]
    exact h.opened (hvisible hopen)
  · have hthere := hnumber
    rw [moved, hreceived.sideViewController, sideViewController] at hthere
    split at hthere
    · rename_i hopen
      have hbefore : w.sideViewController = some number := by
        rw [sideViewController, if_pos (hvisible hopen)]
        exact hthere
      rw [loginTitle_eq hnumber, loginTitle_eq hbefore]
      exact ⟨hbefore, htitles number⟩
    · cases hthere

theorem sideViewController_moved (h : ∀ list ∈ w.lists, list.Formed)
    (hvisible : menu.isMenuVisible = w.menu.isMenuVisible) :
    (w.moved menu).sideViewController = w.sideViewController := by
  obtain ⟨hreceived, -, -⟩ := receiveAll_spec (w := { w with menu := menu }) h
    (menu.base.app.outputs.drop w.app.outputs.length)
  rw [moved, hreceived.sideViewController, sideViewController, sideViewController, hvisible]

theorem Right.moved (hright : w.Right) (h : Listed w)
    (hvisible : menu.isMenuVisible = true → w.menu.isMenuVisible = true)
    (hsame : menu.base.app.isSignedIn = w.app.isSignedIn) : (w.moved menu).Right := by
  obtain ⟨-, hmenu, htitle⟩ := moved_spec h hvisible
  intro title hmem
  have happ : (w.moved menu).app = menu.base.app := congrArg (·.base.app) hmenu
  cases hnumber : (w.moved menu).sideViewController with
  | none => simp [loginTitle, hnumber] at hmem
  | some number =>
      rw [(htitle number hnumber).2] at hmem
      rw [happ]
      split at hmem
      · obtain ⟨_, -, rfl⟩ := Option.map_eq_some_iff.mp hmem
        rfl
      · rw [hsame]
        exact hright title hmem

end Titles

/-! ## The menu -/

section Menu

variable {zone : TimeZone} {menu menu' : MenuViewController}

/-- The push of the login button by somebody who is signed in. -/
def SignsOut (menu : MenuViewController) (tag : Nat) : Prop :=
  MenuItem.itemsList[tag]? = some .login ∧ menu.base.app.isPurchased = true ∧
    menu.base.app.isSignedIn = true

theorem visible_appStep {input : Input} (hlaunch : App.isLaunch input.event = false)
    (hs : menu.appStep zone input = some menu') :
    menu'.isMenuVisible = menu.isMenuVisible ∧
      App.step menu.base.app input = some menu'.base.app := by
  obtain ⟨app, happ, rfl⟩ := Option.map_eq_some_iff.mp hs
  split
  · rename_i throws hevent
    rw [hevent] at hlaunch
    cases hlaunch
  · exact ⟨rfl, happ⟩

theorem visible_dismiss (menu : MenuViewController) :
    menu.dismiss.isMenuVisible = menu.isMenuVisible ∧ menu.dismiss.base.app = menu.base.app := by
  unfold MenuViewController.dismiss
  split <;> exact ⟨rfl, rfl⟩

theorem visible_hide (menu : MenuViewController) :
    menu.hide.isMenuVisible = menu.isMenuVisible ∧ menu.hide.base.app = menu.base.app := by
  unfold MenuViewController.hide
  split
  · exact visible_dismiss menu
  · exact ⟨rfl, rfl⟩

theorem visible_present (menu : MenuViewController) (output : ScreenOutput) :
    (menu.present output).isMenuVisible = menu.isMenuVisible ∧
      (menu.present output).base.app = menu.base.app := by
  unfold MenuViewController.present
  split <;> exact ⟨rfl, rfl⟩

theorem buttonPushed_spec {tag : Nat} {throws : Bool}
    (hs : menu.buttonPushed zone tag throws = some menu') :
    SignsOut menu tag ∧ menu.appStep zone ⟨.signOut throws, "", Date.zero⟩ = some menu' ∨
      ¬ SignsOut menu tag ∧ menu'.isMenuVisible = menu.isMenuVisible ∧
        menu'.base.app = menu.base.app := by
  unfold MenuViewController.buttonPushed at hs
  unfold SignsOut
  split at hs
  · rename_i hitem
    exact Or.inr ⟨by simp [hitem], Option.some.inj hs ▸ ⟨rfl, rfl⟩⟩
  · rename_i item hitem
    rw [hitem]
    cases item with
    | login =>
        cases hpurchased : menu.base.app.isPurchased with
        | false =>
            simp only [MenuViewController.didSelect, MenuItem.canBePerformed, MenuItem.unlockType,
              hpurchased, Bool.not_false, if_true, Option.some.injEq] at hs
            exact Or.inr ⟨by simp, hs ▸ visible_present menu _⟩
        | true =>
            simp only [MenuViewController.didSelect, MenuItem.canBePerformed, MenuItem.unlockType,
              hpurchased, Bool.not_true, Bool.false_eq_true, if_false, if_true,
              MenuViewController.checkAndSignInUser] at hs
            cases hsigned : menu.base.app.isSignedIn with
            | false =>
                rw [hsigned, if_neg (by decide), Option.some.injEq] at hs
                exact Or.inr ⟨by simp, hs ▸ visible_present menu _⟩
            | true =>
                rw [hsigned, if_pos rfl] at hs
                exact Or.inl ⟨⟨rfl, rfl, rfl⟩, hs⟩
    | _ =>
        right
        refine ⟨by simp, ?_⟩
        simp only [MenuViewController.didSelect, MenuItem.viewController, reduceCtorEq,
          if_false] at hs
        split at hs
        · split at hs
          · exact Option.some.inj hs ▸ visible_present menu _
          · exact Option.some.inj hs ▸ visible_present menu _
          · exact Option.some.inj hs ▸ ⟨rfl, rfl⟩
        · split at hs
          · exact Option.some.inj hs ▸ visible_hide menu
          · rw [← Option.some.inj hs]
            exact visible_dismiss { menu with currentEmbeddedViewController := _ }

end Menu

/-! ## Steps -/

section Steps

variable {zone : TimeZone} {w w' : MenuScreens} {menu : MenuViewController}

theorem steady_moved (h : Listed w) (hright : w.Right)
    (hvisible : menu.isMenuVisible = true → w.menu.isMenuVisible = true)
    (hsame : menu.base.app.isSignedIn = w.app.isSignedIn) :
    Listed (w.moved menu) ∧ (w.moved menu).Right :=
  ⟨(moved_spec h hvisible).1, hright.moved h hvisible hsame⟩

theorem titleOf_updateList (w : MenuScreens) (number : Nat)
    (f : MenuListViewController → MenuListViewController) :
    (w.updateList number f).titleOf number =
      (w.lists[number]?.map f).bind MenuListViewController.loginTitle := by
  rw [titleOf, updateList, List.getElem?_modify_eq, Option.map_eq_map]

theorem Listed.updateList (h : Listed w) {f : MenuListViewController → MenuListViewController}
    (hf : ∀ list, list.Formed → (f list).Formed) (number : Nat) :
    Listed (w.updateList number f) where
  formed := by
    intro list hmem
    obtain ⟨place, hplace⟩ := List.mem_iff_getElem?.mp hmem
    rw [MenuScreens.updateList, List.getElem?_modify] at hplace
    obtain ⟨old, hold, rfl⟩ := Option.map_eq_some_iff.mp hplace
    have hformed := h.formed old (List.mem_of_getElem? hold)
    split
    · exact hf old hformed
    · exact hformed
  opened := by
    intro hopen
    rw [← List.length_pos_iff, MenuScreens.updateList, List.length_modify, List.length_pos_iff]
    exact h.opened hopen

theorem sideViewController_updateList (w : MenuScreens) (number : Nat)
    (f : MenuListViewController → MenuListViewController) :
    (w.updateList number f).sideViewController = w.sideViewController := by
  rw [sideViewController, sideViewController, updateList, List.length_modify]

theorem right_listDidAppear (h : Listed w) (hright : w.Right)
    (hs : step zone w .listDidAppear = some w') : Listed w' ∧ w'.Right := by
  simp only [step] at hs
  split at hs
  · exact Option.some.inj hs ▸ ⟨h, hright⟩
  · rename_i number hnumber
    rw [← Option.some.inj hs]
    refine ⟨h.updateList (fun list hformed => hformed.viewDidAppear _) number, fun title hmem => ?_⟩
    obtain ⟨list, hlist, hformed⟩ := h.exists_list hnumber
    rw [loginTitle, sideViewController_updateList, hnumber, Option.bind_some, titleOf_updateList,
      hlist, Option.map_some, Option.bind_some, hformed.loginTitle_viewDidAppear] at hmem
    rw [← Option.some.inj hmem]
    cases htitle : list.loginTitle with
    | none => rfl
    | some title =>
        apply hright
        rw [loginTitle_eq hnumber, titleOf, hlist]
        exact htitle

theorem right_updateSideViewController (h : Listed w) :
    Listed w.updateSideViewController ∧ w.updateSideViewController.Right := by
  unfold updateSideViewController
  split
  · rename_i hnone
    refine ⟨h, fun title hmem => ?_⟩
    simp [loginTitle, hnone] at hmem
  · rename_i number hnumber
    refine ⟨h.updateList (fun list hformed => hformed.checkAndUpdate _) number,
      fun title hmem => ?_⟩
    obtain ⟨list, hlist, hformed⟩ := h.exists_list hnumber
    rw [loginTitle, sideViewController_updateList, hnumber, Option.bind_some, titleOf_updateList,
      hlist, Option.map_some, Option.bind_some, hformed.loginTitle_checkAndUpdate] at hmem
    obtain ⟨_, -, rfl⟩ := Option.map_eq_some_iff.mp hmem
    rfl

theorem right_buttonPushed (h : Listed w) (hright : w.Right) {tag : Nat} {throws : Bool}
    (hs : step zone w (.menu (.buttonPushed tag throws)) = some w') : Listed w' ∧ w'.Right := by
  simp only [step] at hs
  split at hs
  · obtain ⟨menu, hmenu, hw'⟩ := Option.map_eq_some_iff.mp hs
    rcases buttonPushed_spec hmenu with ⟨⟨hlogin, hpurchased, hsigned⟩, hmoved⟩ |
      ⟨hnot, hvisible, happ⟩
    · obtain ⟨hvisible, -⟩ := visible_appStep rfl hmoved
      have hsigned : w.app.isSignedIn = true := hsigned
      rw [if_pos ⟨hlogin, hpurchased⟩, checkAndSignInUser, if_pos hsigned] at hw'
      rw [← hw']
      exact right_updateSideViewController (moved_spec h fun hopen => hvisible ▸ hopen).1
    · have hopen : menu.isMenuVisible = true → w.menu.isMenuVisible = true :=
        fun hopen => hvisible ▸ hopen
      have hsteady := steady_moved h hright hopen (congrArg App.isSignedIn happ)
      split at hw'
      · rename_i hlogin
        have hsigned : w.app.isSignedIn = false := by
          rw [Bool.eq_false_iff]
          exact fun hsigned => hnot ⟨hlogin.1, hlogin.2, hsigned⟩
        rw [← hw', checkAndSignInUser, hsigned, if_neg (by decide)]
        split
        · exact hsteady
        · exact ⟨⟨hsteady.1.formed, hsteady.1.opened⟩, hsteady.2⟩
      · rw [← hw']
        exact hsteady
  · exact Option.some.inj hs ▸ ⟨h, hright⟩

theorem right_showMenu (h : Listed w) (hright : w.Right)
    (hs : step zone w (.menu .showMenu) = some w') : Listed w' ∧ w'.Right := by
  simp only [step] at hs
  obtain ⟨menu, hmenu, rfl⟩ := Option.map_eq_some_iff.mp hs
  rw [← Option.some.inj hmenu]
  cases hvisible : w.menu.isMenuVisible with
  | true =>
      rw [if_pos rfl]
      refine ⟨⟨h.formed, fun _ => h.opened hvisible⟩, fun title hmem => hright title ?_⟩
      rw [loginTitle, sideViewController, if_pos hvisible]
      exact hmem
  | false =>
      rw [if_neg (by decide)]
      refine ⟨⟨fun list hmem => ?_, fun _ => by simp⟩, fun title hmem => ?_⟩
      · rcases List.mem_append.mp hmem with hmem | hmem
        · exact h.formed list hmem
        · rw [List.mem_singleton.mp hmem]
          exact .loaded
      · simp [loginTitle, sideViewController, titleOf, MenuListViewController.viewDidLoad,
          MenuListViewController.loginTitle, MenuListViewController.getButton,
          MenuListViewController.buttonWithTag] at hmem

theorem isSignedIn_signIn {app app' : App} {option : Login}
    (hs : App.step app ⟨.signIn option, "", Date.zero⟩ = some app') :
    app'.isSignedIn = app.isSignedIn := by
  cases (App.step_account rfl hs).2 with
  | kept huser _ _ _ => rw [App.isSignedIn, App.isSignedIn, huser]
  | refreshed huser _ _ _ => rw [App.isSignedIn, App.isSignedIn, huser]
  | signedIn _ _ hevent => cases hevent
  | signedOut hevent => cases hevent
  | signOutFailed hevent => cases hevent
  | started _ hevent => cases hevent
  | launched _ hevent => cases hevent

theorem right_signInOption (h : Listed w) (hright : w.Right) {option : Option Login}
    (hs : step zone w (.menu (.signInOption option)) = some w') : Listed w' ∧ w'.Right := by
  cases option with
  | none =>
      simp only [step] at hs
      obtain ⟨menu, hmenu, rfl⟩ := Option.map_eq_some_iff.mp hs
      have hsame : menu.isMenuVisible = w.menu.isMenuVisible ∧
          menu.base.app = w.menu.base.app := by
        simp only [MenuViewController.step, MenuViewController.signInOption] at hmenu
        split at hmenu <;> exact Option.some.inj hmenu ▸ ⟨rfl, rfl⟩
      exact steady_moved h hright (fun hopen => hsame.1 ▸ hopen) (congrArg App.isSignedIn hsame.2)
  | some option =>
      simp only [step] at hs
      obtain ⟨menu, hmenu, hw'⟩ := Option.map_eq_some_iff.mp hs
      simp only [MenuViewController.step, MenuViewController.signInOption] at hmenu
      split at hw'
      · rename_i hsheet
        rw [if_pos hsheet] at hmenu
        obtain ⟨hvisible, happ⟩ := visible_appStep rfl hmenu
        rw [← hw']
        refine steady_moved ⟨h.formed, h.opened⟩ hright (fun hopen => ?_) (isSignedIn_signIn happ)
        exact hvisible ▸ hopen
      · rename_i hsheet
        rw [if_neg hsheet, Option.some.injEq] at hmenu
        rw [← hw', ← hmenu]
        exact steady_moved h hright (fun hopen => hopen) rfl

theorem app_dialogClosed (base : BaseViewController) (result : ShareResult) :
    (base.dialogClosed zone result).app = base.app := by
  unfold BaseViewController.dialogClosed
  split
  · rfl
  · split
    · rfl
    · cases result with
      | done =>
          simp only [BaseViewController.contentShareHelperDidShare]
          split
          · rfl
          · split <;> rfl
      | _ => rfl

/-- The rest of the menu and of the share flow does not reach the account. -/
theorem right_other {event : MenuEvent} (h : Listed w) (hright : w.Right)
    (hother : event = .hideMenu ∨ event = .menuDismissed ∨
      (∃ serviceType proverb, event = .share serviceType proverb) ∨
      (∃ result, event = .dialogClosed result) ∨
      ∃ request result deviceDate, event = .fetched request result deviceDate)
    (hs : step zone w (.menu event) = some w') : Listed w' ∧ w'.Right := by
  have hsteady : ∀ menu : MenuViewController,
      (menu.isMenuVisible = true → w.menu.isMenuVisible = true) →
      menu.base.app = w.menu.base.app → Listed (w.moved menu) ∧ (w.moved menu).Right :=
    fun menu hvisible happ => steady_moved h hright hvisible (congrArg App.isSignedIn happ)
  rcases hother with rfl | rfl | ⟨serviceType, proverb, rfl⟩ | ⟨result, rfl⟩ |
    ⟨request, result, deviceDate, rfl⟩ <;>
    simp only [step] at hs <;>
    obtain ⟨menu, hmenu, rfl⟩ := Option.map_eq_some_iff.mp hs
  · rw [← Option.some.inj hmenu]
    exact hsteady _ (fun hopen => (visible_hide w.menu).1 ▸ hopen) (visible_hide w.menu).2
  · simp only [MenuViewController.step] at hmenu
    split at hmenu
    · exact hsteady menu (fun hopen => by rw [← Option.some.inj hmenu] at hopen; cases hopen)
        (by rw [← Option.some.inj hmenu])
    · exact Option.some.inj hmenu ▸ hsteady w.menu (fun hopen => hopen) rfl
  · obtain ⟨base, hbase, rfl⟩ := Option.map_eq_some_iff.mp hmenu
    exact hsteady _ (fun hopen => hopen) (BaseViewController.shareTurn_share hbase).app
  · rw [← Option.some.inj hmenu]
    exact hsteady _ (fun hopen => hopen) (app_dialogClosed w.menu.base result)
  · rw [← Option.some.inj hmenu]
    exact hsteady _ (fun hopen => hopen) rfl

/-! ### Answers -/

theorem isSignedIn_step {input : Input} {app app' : App} (hfrom : FromMenu (.menu (.app input)))
    (hlaunch : App.isLaunch input.event = false)
    (hother : ∀ attempt identifier,
      input.event ≠ .firebaseAuthenticated attempt (.user identifier))
    (hs : App.step app input = some app') : app'.isSignedIn = app.isSignedIn := by
  have hsame : app'.currentUser = app.currentUser := by
    cases hstore : App.isStoreEvent input.event with
    | true => exact (App.step_store_account hstore hs).1
    | false =>
        obtain ⟨event, random, now⟩ := input
        cases (App.step_account hstore hs).2 with
        | kept huser _ _ _ => exact huser
        | refreshed huser _ _ _ => exact huser
        | signedIn attempt identifier hevent => exact absurd hevent (hother attempt identifier)
        | signedOut hevent =>
            cases hevent
            exact hfrom.elim
        | signOutFailed hevent =>
            cases hevent
            exact hfrom.elim
        | started throws hevent =>
            cases hevent
            exact hfrom.elim
        | launched throws hevent =>
            cases hevent
            cases hlaunch
  rw [App.isSignedIn, App.isSignedIn, hsame]

theorem step_app {input : Input} (hlaunch : App.isLaunch input.event = false)
    (hs : step zone w (.menu (.app input)) = some w') :
    ∃ menu, w' = w.moved menu ∧ menu.isMenuVisible = w.menu.isMenuVisible ∧
      App.step w.app input = some menu.base.app := by
  obtain ⟨event, random, now⟩ := input
  cases event with
  | launch throws => cases hlaunch
  | _ =>
      simp only [step, MenuViewController.step] at hs
      obtain ⟨menu, hmenu, rfl⟩ := Option.map_eq_some_iff.mp hs
      exact ⟨menu, rfl, visible_appStep hlaunch hmenu⟩

theorem firebaseAuthenticated_spec {app : App} {attempt : Nat} (identifier : UserIdentifier)
    (h : ⟨attempt, .firebaseAuth⟩ ∈ app.signIns) :
    (app.firebaseAuthenticated attempt (.user identifier)).isSignedIn = true ∧
      (app.firebaseAuthenticated attempt (.user identifier)).outputs =
        app.outputs ++ [.signedIn attempt true] := by
  rw [App.firebaseAuthenticated, if_pos h]
  exact ⟨rfl, rfl⟩

/-- An answer sets the title of the list its attempt was made from. -/
theorem answered_spec (h : Listed w) (hright : w.Right) {attempt : Nat}
    {identifier : UserIdentifier} {random : Identifier} {now : Date}
    (hs : step zone w (.menu (.app ⟨.firebaseAuthenticated attempt (.user identifier), random,
      now⟩)) = some w') :
    Listed w' ∧ (w'.Right ↔ w.AnsweredHere
      (.menu (.app ⟨.firebaseAuthenticated attempt (.user identifier), random, now⟩))) := by
  obtain ⟨menu, rfl, hvisible, happ⟩ := step_app rfl hs
  have happ : w.app.firebaseAuthenticated attempt (.user identifier) = menu.base.app :=
    Option.some.inj happ
  have hopen : menu.isMenuVisible = true → w.menu.isMenuVisible = true :=
    fun hopen => hvisible ▸ hopen
  obtain ⟨hlisted, hmenu, htitle⟩ := moved_spec h hopen
  refine ⟨hlisted, ?_⟩
  by_cases hwaits : ⟨attempt, .firebaseAuth⟩ ∈ w.app.signIns
  · have hspec := firebaseAuthenticated_spec identifier hwaits
    rw [happ] at hspec
    obtain ⟨hsigned, houtputs⟩ := hspec
    cases hbefore : w.app.isSignedIn with
    | true =>
        have hsteady := hright.moved h hopen (hsigned.trans hbefore.symm)
        refine iff_of_true hsteady fun _ hout => ?_
        rw [hbefore] at hout
        cases hout
    | false =>
        have hnow : (w.moved menu).app.isSignedIn = true := by
          rw [MenuScreens.app, hmenu]
          exact hsigned
        have hside := sideViewController_moved h.formed hvisible
        cases htold : w.loginTitle with
        | none =>
            have hnone : (w.moved menu).loginTitle = none := by
              cases hnumber : (w.moved menu).sideViewController with
              | none => rw [loginTitle, hnumber, Option.bind_none]
              | some number =>
                  rw [(htitle number hnumber).2, htold]
                  split <;> rfl
            refine iff_of_true (fun title hmem => ?_) fun _ _ hsome => ?_
            · rw [hnone] at hmem
              cases hmem
            · rw [htold] at hsome
              cases hsome
        | some title =>
            obtain ⟨number, hnumber, -⟩ := Option.bind_eq_some_iff.mp htold
            have hfalse : title = loginButtonTitle false := hbefore ▸ hright title htold
            have hafter := (htitle number (hside.trans hnumber)).2
            have hanswers : (menu.base.app.outputs.drop w.app.outputs.length).any
                (w.answers number) = w.captured attempt number := by
              rw [houtputs, List.drop_left, List.any_cons, List.any_nil, Bool.or_false]
              rfl
            rw [hanswers, hsigned, htold, Option.map_some] at hafter
            simp only [Right, AnsweredHere, hafter, hnow, hbefore, htold, hnumber]
            cases hmade : w.captured attempt number with
            | true => simp [hmade, hwaits]
            | false => simp [hmade, hwaits, hfalse, loginButtonTitle_inj]
  · have hsame : menu.base.app = w.app := by
      rw [← happ, App.firebaseAuthenticated, if_neg hwaits]
    exact iff_of_true
      (hright.moved h hopen (congrArg App.isSignedIn hsame))
      fun hmem => absurd hmem hwaits

/-- One step: what was right stays right exactly if an answer of Firebase reaches the list
that is open. -/
theorem right_step {event : MenuScreenEvent} (h : Listed w) (hright : w.Right)
    (hfrom : FromMenu event) (hs : step zone w event = some w') :
    Listed w' ∧ (w'.Right ↔ w.AnsweredHere event) := by
  have hkept : w.AnsweredHere event → Listed w' ∧ w'.Right →
      Listed w' ∧ (w'.Right ↔ w.AnsweredHere event) :=
    fun hhere hboth => ⟨hboth.1, iff_of_true hboth.2 hhere⟩
  cases event with
  | listDidAppear => exact hkept trivial (right_listDidAppear h hright hs)
  | menu event =>
      cases event with
      | showMenu => exact hkept trivial (right_showMenu h hright hs)
      | buttonPushed tag throws => exact hkept trivial (right_buttonPushed h hright hs)
      | signInOption option => exact hkept trivial (right_signInOption h hright hs)
      | hideMenu => exact hkept trivial (right_other h hright (by simp) hs)
      | menuDismissed => exact hkept trivial (right_other h hright (by simp) hs)
      | share serviceType proverb => exact hkept trivial (right_other h hright (by simp) hs)
      | dialogClosed result => exact hkept trivial (right_other h hright (by simp) hs)
      | fetched request result date => exact hkept trivial (right_other h hright (by simp) hs)
      | app input =>
          have hsteady : App.isLaunch input.event = false →
              (∀ attempt identifier,
                input.event ≠ .firebaseAuthenticated attempt (.user identifier)) →
              Listed w' ∧ w'.Right := by
            intro hlaunch hother
            obtain ⟨menu, rfl, hvisible, happ⟩ := step_app hlaunch hs
            exact steady_moved h hright (fun hopen => hvisible ▸ hopen)
              (isSignedIn_step hfrom hlaunch hother happ)
          obtain ⟨event, random, now⟩ := input
          cases event with
          | launch throws =>
              simp only [step, MenuViewController.step] at hs
              obtain ⟨menu, hmenu, rfl⟩ := Option.map_eq_some_iff.mp hs
              obtain ⟨app, -, rfl⟩ := Option.map_eq_some_iff.mp hmenu
              exact hkept trivial ⟨⟨by simp, fun hopen => by cases hopen⟩, right_of_hidden rfl⟩
          | firebaseAuthenticated attempt result =>
              cases result with
              | user identifier => exact answered_spec h hright hs
              | error => exact hkept trivial (hsteady rfl (by simp))
              | nothing => exact hkept trivial (hsteady rfl (by simp))
          | _ => exact hkept trivial (hsteady rfl (by simp))

theorem answeredHere_of_stuck {event : MenuScreenEvent} (hs : step zone w event = none) :
    w.AnsweredHere event := by
  unfold AnsweredHere
  split
  · cases hs
  · trivial

theorem app_buttonPushed (h : Listed w) (hout : w.app.isSignedIn = false) {tag : Nat}
    {throws : Bool} (hs : step zone w (.menu (.buttonPushed tag throws)) = some w') :
    w'.app = w.app := by
  simp only [step] at hs
  split at hs
  · obtain ⟨menu, hmenu, hw'⟩ := Option.map_eq_some_iff.mp hs
    rcases buttonPushed_spec hmenu with ⟨⟨-, -, hsigned⟩, -⟩ | ⟨-, hvisible, happ⟩
    · exact absurd (hout.symm.trans hsigned) (by decide)
    · have hmoved : (w.moved menu).app = w.app := by
        rw [MenuScreens.app, (moved_spec h fun hopen => hvisible ▸ hopen).2.1]
        exact happ
      split at hw'
      · rw [checkAndSignInUser, hout, if_neg (by decide)] at hw'
        rw [← hw']
        split <;> exact hmoved
      · exact hw' ▸ hmoved
  · rw [← Option.some.inj hs]

end Steps

/-- However the menu is opened and closed between pushes and answers, from any state of the
app in which it is closed: the login button on the screen says after every event whether
somebody is signed in, exactly if every answer that signs somebody in reaches the list its
attempt was made from. As long as it does, a push of any button while the login button says
"Sign In" signs nobody out. -/
theorem title_tells_along_iff (zone : TimeZone) {menu : MenuViewController}
    (hclosed : menu.isMenuVisible = false) {events : List MenuScreenEvent}
    (hfrom : ∀ event ∈ events, FromMenu event) :
    (Transition.Along (step zone) (Tells zone) (started menu) events ↔
      Transition.Along (step zone) AnsweredHere (started menu) events) ∧
    (Transition.Along (step zone) AnsweredHere (started menu) events →
      ∀ w, Transition.run (step zone) (started menu) events = some w →
        w.loginTitle = some "Sign In" →
          ∀ tag throws w', step zone w (.menu (.buttonPushed tag throws)) = some w' →
            w'.app.currentUser = w.app.currentUser) := by
  have hstart : Listed (started menu) ∧ (started menu).Right := by
    refine ⟨⟨fun _ hmem => (by cases hmem), fun hopen => ?_⟩, right_of_hidden hclosed⟩
    exact absurd (hclosed.symm.trans hopen) (by decide)
  constructor
  · refine Transition.along_congr (I := fun w => Listed w ∧ w.Right) ?_ ?_ hstart
    · intro w event hmem w' hw hhere hs
      obtain ⟨hlisted, hiff⟩ := right_step hw.1 hw.2 (hfrom event hmem) hs
      exact ⟨hlisted, hiff.mpr hhere⟩
    · intro w event hmem hw
      cases hs : step zone w event with
      | none =>
          refine iff_of_true (fun w' hsome => ?_) (answeredHere_of_stuck hs)
          rw [hs] at hsome
          cases hsome
      | some w' =>
          rw [← (right_step hw.1 hw.2 (hfrom event hmem) hs).2]
          constructor
          · exact fun htells => htells w' hs
          · intro hright other hother
            rw [hs] at hother
            exact Option.some.inj hother ▸ hright
  · intro halong w hs hsays tag throws w' hpush
    have hguard := halong.and (Transition.along_of_forall hfrom (started menu))
    have hw : Listed w ∧ w.Right := by
      refine Transition.run_invariant (I := fun w => Listed w ∧ w.Right) ?_ hstart hguard hs
      intro w event w' hw hboth hs
      obtain ⟨hlisted, hiff⟩ := right_step hw.1 hw.2 hboth.2 hs
      exact ⟨hlisted, hiff.mpr hboth.1⟩
    have hout : w.app.isSignedIn = false := by
      have hsame : loginButtonTitle false = loginButtonTitle w.app.isSignedIn :=
        hw.2 "Sign In" hsays
      exact (loginButtonTitle_inj.mp hsame).symm
    rw [app_buttonPushed hw.1 hout hpush]

/-- The login button is pushed on an open menu, and Google is chosen. -/
def askedGoogle : List MenuScreenEvent :=
  [.menu (.app ⟨.launch false, "", 0⟩), .menu (.app ⟨.purchaseCompleted true, "", 0⟩),
    .menu .showMenu, .listDidAppear, .menu (.buttonPushed 3 false),
    .menu (.signInOption (some .google)), .menu (.app ⟨.didSignInFor .authentication, "", 0⟩)]

/-- Firebase answers, and the user signs out again. -/
def signedInAndOut : List MenuScreenEvent :=
  askedGoogle ++ [.menu (.app ⟨.firebaseAuthenticated 0 (.user "user"), "", 0⟩),
    .menu (.buttonPushed 3 false)]

theorem title_tells_along_signed_in_and_out :
    Transition.Along (step ShareToUnlock.greenwich) (Tells ShareToUnlock.greenwich)
      (started (MenuViewController.installed App.installed.firestore)) signedInAndOut :=
  (title_tells_along_iff ShareToUnlock.greenwich rfl (by decide)).1.mpr (by decide)

example :
    ∃ w, Transition.run (step ShareToUnlock.greenwich)
        (started (MenuViewController.installed App.installed.firestore))
        (askedGoogle ++ [.menu .hideMenu, .menu .menuDismissed, .menu .showMenu, .listDidAppear,
          .menu (.app ⟨.firebaseAuthenticated 0 (.user "user"), "", 0⟩)]) = some w ∧
      w.loginTitle = some "Sign In" ∧ w.app.currentUser = some "user" ∧
      ∃ w', step ShareToUnlock.greenwich w (.menu (.buttonPushed 3 false)) = some w' ∧
        w'.app.currentUser = none :=
  ⟨_, rfl, by decide, by decide, _, rfl, by decide⟩

end MenuScreens

end Proverbs
