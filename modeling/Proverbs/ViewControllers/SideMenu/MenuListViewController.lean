import Proverbs.ViewControllers.SideMenu.MenuViewController

/-! # MenuListViewController

The lists the menu has shown, one for each time it was opened, with the title of the login
button. A list gives the button its title when it appears for the first time. Afterwards
the title is set again by a sign-out, on the list that is open then, and by the completion
of a sign-in, on the list the attempt was made from, whether it is open or not.
-/

namespace Proverbs

/-- A view of `elementsViews`; the bar on top has no title. -/
structure MenuElement where
  tag : Nat
  title : Option String
deriving DecidableEq, Repr

structure MenuListViewController where
  menuItems : List MenuItem
  elementsViews : List MenuElement
  shown : Bool
deriving DecidableEq, Repr

def loginButtonTitle (isSignedIn : Bool) : String := if isSignedIn then "Sign Out" else "Sign In"

namespace MenuListViewController

def viewDidLoad : MenuListViewController := ⟨MenuItem.itemsList, [], false⟩

/-- The place in `elementsViews` of the button with a tag, if the first view with it is one. -/
def buttonWithTag (list : MenuListViewController) (tag : Nat) : Option Nat :=
  (list.elementsViews.findIdx? fun view => view.tag = tag).filter fun index =>
    (list.elementsViews[index]?.bind MenuElement.title).isSome

def getButton (list : MenuListViewController) (itemType : MenuItem) : Option Nat :=
  (list.menuItems.findIdx? fun item => item = itemType).bind list.buttonWithTag

def checkAndUpdateLoginButtonTitle (list : MenuListViewController) (isSignedIn : Bool) :
    MenuListViewController :=
  match list.getButton .login with
  | none => list
  | some index =>
      { list with
        elementsViews := list.elementsViews.modify index fun signInButton =>
          { signInButton with title := some (loginButtonTitle isSignedIn) } }

def createViews (list : MenuListViewController) (isSignedIn : Bool) : MenuListViewController :=
  let navigationBarView : MenuElement := ⟨681, none⟩
  let buttons := list.menuItems.zipIdx.map fun (item, index) => ⟨index, some item.title⟩
  { list with elementsViews := list.elementsViews ++ navigationBarView :: buttons
    }.checkAndUpdateLoginButtonTitle isSignedIn

def viewDidAppear (list : MenuListViewController) (isSignedIn : Bool) : MenuListViewController :=
  if list.shown then list else { list.createViews isSignedIn with shown := true }

/-- What the login button says, once there is one. -/
def loginTitle (list : MenuListViewController) : Option String :=
  (list.getButton .login).bind fun index => list.elementsViews[index]?.bind MenuElement.title

end MenuListViewController

/-! ## The menu with its lists -/

structure MenuScreens where
  menu : MenuViewController
  lists : List MenuListViewController
  /-- The list that the completion of an attempt has captured. -/
  completions : List (Nat × Nat)
  /-- The list that the items of the sheet "Sign In with" have captured. -/
  sheetList : Nat

inductive MenuScreenEvent where
  /-- `viewDidAppear` of the list; it comes again after an alert or a sheet. -/
  | listDidAppear
  | menu (event : MenuEvent)
deriving DecidableEq, Repr

namespace MenuScreens

def app (w : MenuScreens) : App := w.menu.base.app

def sideViewController (w : MenuScreens) : Option Nat :=
  if w.menu.isMenuVisible then some (w.lists.length - 1) else none

def updateList (w : MenuScreens) (number : Nat)
    (f : MenuListViewController → MenuListViewController) : MenuScreens :=
  { w with lists := w.lists.modify number f }

def captured (w : MenuScreens) (attempt number : Nat) : Bool :=
  w.completions.contains (attempt, number)

/-- The closures of the sign-ins, run with what the app hands out. -/
def receive (w : MenuScreens) (output : Output) : MenuScreens :=
  match output with
  | .signedIn attempt _ =>
      { w with
        lists := w.lists.mapIdx fun number list =>
          if w.captured attempt number then
            list.checkAndUpdateLoginButtonTitle w.app.isSignedIn
          else list }
  | _ => w

def moved (w : MenuScreens) (menu : MenuViewController) : MenuScreens :=
  (menu.base.app.outputs.drop w.app.outputs.length).foldl receive { w with menu := menu }

/-- The completion of `signOut(withCompletion:)`. -/
def updateSideViewController (w : MenuScreens) : MenuScreens :=
  match w.sideViewController with
  | none => w
  | some number =>
      w.updateList number fun list => list.checkAndUpdateLoginButtonTitle w.app.isSignedIn

def checkAndSignInUser (before w : MenuScreens) : MenuScreens :=
  if before.app.isSignedIn then w.updateSideViewController
  else
    match before.sideViewController with
    | none => w
    | some number => { w with sheetList := number }

/-- There is a button with this tag to be pushed. -/
def hasButton (w : MenuScreens) (tag : Nat) : Bool :=
  (w.sideViewController.bind fun number =>
    w.lists[number]?.bind fun list => list.buttonWithTag tag).isSome

def step (zone : TimeZone) (w : MenuScreens) : MenuScreenEvent → Option MenuScreens
  | .listDidAppear =>
      match w.sideViewController with
      | none => some w
      | some number =>
          some (w.updateList number fun list => list.viewDidAppear w.app.isSignedIn)
  | .menu event =>
      match event with
      | .showMenu =>
          (w.menu.step zone event).map fun menu =>
            { w with
              menu := menu
              lists := if w.menu.isMenuVisible then w.lists else w.lists ++ [.viewDidLoad] }
      | .buttonPushed tag _ =>
          if w.hasButton tag then
            (w.menu.step zone event).map fun menu =>
              if MenuItem.itemsList[tag]? = some .login ∧ w.app.isPurchased then
                w.checkAndSignInUser (w.moved menu)
              else w.moved menu
          else some w
      | .signInOption (some _) =>
          (w.menu.step zone event).map fun menu =>
            if w.menu.signInSheet then
              { w with
                completions := (w.app.nextRequest, w.sheetList) :: w.completions }.moved menu
            else w.moved menu
      | .app ⟨.launch _, _, _⟩ =>
          (w.menu.step zone event).map fun menu => ⟨menu, [], [], 0⟩
      | _ => (w.menu.step zone event).map w.moved

def started (menu : MenuViewController) : MenuScreens := ⟨menu, [], [], 0⟩

end MenuScreens

end Proverbs
