import Proverbs.Utils.ColorsRandomizer

/-! # ActionSheetViewController

A sheet is given its items, presented, and answers a push when its views have gone. Every
time it appears it sorts the items, makes a view for each of them behind the views that are
there, and enables all of them when their animation has ended.
-/

namespace Proverbs

inductive ActionSheetElement where
  | select
  | destructive
deriving DecidableEq, Repr

/-- The action is what its closure does. -/
structure ActionSheetItem (α : Type) where
  type : ActionSheetElement
  title : String
  color : Option UIColor
  action : Option α
deriving DecidableEq, Repr

variable {α : Type}

/-- What is set as a `backgroundColor`; `appGrayCancel` is in no palette. -/
inductive SheetColor where
  | palette (color : UIColor)
  | appGrayCancel
deriving DecidableEq, Repr

/-- A view of `elementsViews`: the title of the sheet, or a button. -/
structure SheetElement where
  isButton : Bool
  tag : Nat
  title : String
  backgroundColor : Option SheetColor
  isUserInteractionEnabled : Bool
deriving DecidableEq, Repr

structure ActionSheetViewController (α : Type) where
  sheetTitle : Option String
  isViewLoaded : Bool
  actionItems : List (ActionSheetItem α)
  elementsViews : List SheetElement
  /-- The animations of `startViewsAppearance` under way. -/
  appearing : Nat
  /-- The animations of `startViewsDisappearance` under way, with the item captured. -/
  disappearing : List (ActionSheetItem α)
  performed : List (ActionSheetItem α)
deriving DecidableEq, Repr

inductive SheetEvent (α : Type) where
  | addItem (item : ActionSheetItem α)
  | present
  /-- The random values that the views may draw, one for each. -/
  | viewDidAppear (randoms : Nat → Nat)
  | appearanceEnded
  | touched (view : Nat)
  | disappearanceEnded

def SheetEvent.appears : SheetEvent α → Bool
  | .viewDidAppear _ => true
  | _ => false

namespace ActionSheetViewController

def addItem (s : ActionSheetViewController α) (item : ActionSheetItem α) :
    ActionSheetViewController α :=
  if s.isViewLoaded then s else { s with actionItems := s.actionItems ++ [item] }

def sortItems (items : List (ActionSheetItem α)) : List (ActionSheetItem α) :=
  (items.filter fun item => item.type = .select) ++
    items.filter fun item => item.type = .destructive

def getItem (s : ActionSheetViewController α) (view : SheetElement) :
    Option (ActionSheetItem α) :=
  if view.isButton then s.actionItems[view.tag]? else none

def createButton (item : ActionSheetItem α) (tag : Nat) : SheetElement :=
  ⟨true, tag, item.title, none, true⟩

def createTitleView (text : String) : SheetElement := ⟨false, 823, text, none, true⟩

def newViews (sheetTitle : Option String) (items : List (ActionSheetItem α)) :
    List SheetElement :=
  sheetTitle.toList.map createTitleView ++
    items.zipIdx.map fun (item, index) => createButton item index

def nextColor (s : ActionSheetViewController α) (view : SheetElement)
    (colorsRandomizer : ColorsRandomizer) (random : Nat) :
    Except Trap (SheetColor × ColorsRandomizer) :=
  let draw := (colorsRandomizer.nextRandomColor random).map fun (color, left) =>
    (SheetColor.palette color, left)
  match s.getItem view with
  | none => draw
  | some item =>
      match item.type, item.color with
      | .destructive, _ => .ok (.appGrayCancel, colorsRandomizer)
      | .select, some color => .ok (.palette color, colorsRandomizer)
      | .select, none => draw

/-- The loop of `setupColorsForElementsViews`. -/
def setupColors (s : ActionSheetViewController α) (randoms : Nat → Nat) :
    ColorsRandomizer → List SheetElement → Nat → Except Trap (List SheetElement)
  | _, [], _ => .ok []
  | colorsRandomizer, view :: views, index =>
      (s.nextColor view colorsRandomizer (randoms index)).bind fun (color, left) =>
        (s.setupColors randoms left views (index + 1)).map fun views =>
          { view with backgroundColor := some color } :: views

def setupColorsForElementsViews (s : ActionSheetViewController α) (randoms : Nat → Nat) :
    Except Trap (ActionSheetViewController α) :=
  (ColorsRandomizer.init s.elementsViews.length).bind fun colorsRandomizer =>
    (s.setupColors randoms colorsRandomizer s.elementsViews 0).map fun views =>
      { s with elementsViews := views }

def createViews (s : ActionSheetViewController α) (randoms : Nat → Nat) :
    Except Trap (ActionSheetViewController α) :=
  { s with elementsViews := s.elementsViews ++ newViews s.sheetTitle s.actionItems
    }.setupColorsForElementsViews randoms

def disableAllButtons (s : ActionSheetViewController α) (disable : Bool) :
    ActionSheetViewController α :=
  { s with
    elementsViews := s.elementsViews.map fun view =>
      { view with isUserInteractionEnabled := !disable } }

def viewDidAppear (s : ActionSheetViewController α) (randoms : Nat → Nat) :
    Except Trap (ActionSheetViewController α) :=
  ({ s with actionItems := sortItems s.actionItems }.createViews randoms).map fun s' =>
    { disableAllButtons s' true with appearing := s.appearing + 1 }

def buttonPushed (s : ActionSheetViewController α) (button : SheetElement) :
    ActionSheetViewController α :=
  match s.getItem button with
  | none => s
  | some item => { s.disableAllButtons true with disappearing := s.disappearing ++ [item] }

/-- Only a button that is enabled is pushed by a touch. -/
def touched (s : ActionSheetViewController α) (view : Nat) : ActionSheetViewController α :=
  match s.elementsViews[view]? with
  | none => s
  | some element =>
      if element.isButton && element.isUserInteractionEnabled then s.buttonPushed element else s

def step (s : ActionSheetViewController α) : SheetEvent α → Option (ActionSheetViewController α)
  | .addItem item => some (s.addItem item)
  | .present => some { s with isViewLoaded := true }
  | .viewDidAppear randoms => if s.isViewLoaded then (s.viewDidAppear randoms).toOption else some s
  | .appearanceEnded =>
      match s.appearing with
      | 0 => some s
      | appearing + 1 => some { s.disableAllButtons false with appearing := appearing }
  | .touched view => some (s.touched view)
  | .disappearanceEnded =>
      match s.disappearing with
      | [] => some s
      | item :: disappearing =>
          some { s with disappearing := disappearing, performed := s.performed ++ [item] }

/-! ## The views -/

/-- What a view keeps from when it was made. -/
def label (view : SheetElement) : Bool × Nat × String := (view.isButton, view.tag, view.title)

/-- Some view takes touches. -/
def enabled (s : ActionSheetViewController α) : Bool :=
  s.elementsViews.any SheetElement.isUserInteractionEnabled

section Views

variable {s s' : ActionSheetViewController α} {items : List (ActionSheetItem α)}
  {item : ActionSheetItem α}

theorem perm_sortItems (items : List (ActionSheetItem α)) : (sortItems items).Perm items := by
  have hrest : (items.filter fun item => item.type = .destructive) =
      items.filter fun item => !decide (item.type = .select) := by
    congr 1
    funext item
    cases item.type <;> rfl
  rw [sortItems, hrest]
  exact List.filter_append_perm (fun item => decide (item.type = .select)) items

theorem mem_sortItems : item ∈ sortItems items ↔ item ∈ items :=
  (perm_sortItems items).mem_iff

theorem sortItems_sortItems (items : List (ActionSheetItem α)) :
    sortItems (sortItems items) = sortItems items := by
  have hnone : ∀ type other : ActionSheetElement, type ≠ other →
      (items.filter fun item => decide (item.type = type) && decide (item.type = other)) = [] := by
    intro type other hne
    rw [List.filter_eq_nil_iff]
    intro item _ hboth
    rw [Bool.and_eq_true, decide_eq_true_iff, decide_eq_true_iff] at hboth
    exact hne (hboth.1.symm.trans hboth.2)
  simp [sortItems, List.filter_append, List.filter_filter,
    hnone .select .destructive (by decide), hnone .destructive .select (by decide)]

theorem label_disableAllButtons (s : ActionSheetViewController α) (disable : Bool) :
    (s.disableAllButtons disable).elementsViews.map label = s.elementsViews.map label := by
  simp [disableAllButtons, label, Function.comp_def]

theorem enabled_disableAllButtons (s : ActionSheetViewController α) :
    (s.disableAllButtons true).enabled = false := by
  simp [enabled, disableAllButtons]

/-- The sheet with the views for one more appearance. -/
def appeared (s : ActionSheetViewController α) (views : List SheetElement) :
    ActionSheetViewController α :=
  { s with
    actionItems := sortItems s.actionItems
    elementsViews := views
    appearing := s.appearing + 1 }

end Views

end ActionSheetViewController

end Proverbs
