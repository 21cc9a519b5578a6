import Proverbs.Managers.Machine
import Proverbs.Managers.RandomProverb
import Proverbs.ViewControllers.FavoritesGroup.FavoritesProverbsViewController

/-! # The screens on the local storage

The random screen, the favourites opened from it and the screen of one proverb, with the
manager they share. A notification goes to the screens in the order they were created in;
on the local storage the manager answers before its method returns, so each event is
handled to its end. A screen that is taken off the navigation is gone. Showing or sorting
a favourite that has been deleted from Realm traps (`none`), as it does in the manager.
-/

namespace Proverbs

/-- `RandomProverbViewController`, which draws from the catalogue of the app. -/
structure RandomRoot where
  currentProverb : Option RProverb
  saveButton : Bool

def RandomRoot.shows (root : RandomRoot) (identifier : Identifier) : Bool :=
  root.currentProverb.map RProverb.identifier = some identifier

structure ProverbViewController where
  proverb : Proverb
  saveDeleteButton : Bool

structure Screens where
  app : App
  catalogue : Catalogue
  random : Option RandomRoot
  favorites : Option FavoritesProverbsViewController
  detail : Option ProverbViewController

inductive Asker where
  | random
  | detail
  /-- `deleteFromFavorites`, with the row it has found. -/
  | favorites (deleteIndex : Option Nat)
deriving DecidableEq, Repr

inductive ScreensEvent where
  /-- A controller from the menu is embedded, and the screens before it are gone. -/
  | embedRandom (choice : Nat)
  | embedOther
  | nextButtonPushed (choice : Nat)
  | saveButtonPushed (random : Identifier) (now : Date)
  | rightbuttonPushed
  | leftbuttonPushed
  | sort (option : SortOption)
  | reload
  | swipeDelete (row : Nat)
  | didSelectFavorite (row : Nat)
  | didSelectProverb (proverb : RProverb)
  | saveDeleteButtonPushed (random : Identifier) (now : Date)
  | purchaseCompleted (success : Bool)
  | restoreCompleted (results : RestoreResults)
  | completeTransactions (purchases : List TransactionState)
deriving DecidableEq, Repr

namespace Screens

variable [Unicode]

/-! ## Buttons -/

def updateSaveButton (s : Screens) (asker : Asker) (toFavorite : Bool) : Screens :=
  match asker with
  | .random =>
      { s with random := s.random.map fun root => { root with saveButton := toFavorite } }
  | .detail =>
      { s with detail := s.detail.map fun root => { root with saveDeleteButton := toFavorite } }
  | .favorites _ => s

/-- A question to the manager whose closure updates the asker's button. -/
def isFavorite (s : Screens) (asker : Asker) (proverb : Proverb) : Option Screens :=
  (App.step s.app ⟨.isFavorite proverb, "", Date.zero⟩).map fun app =>
    (app.outputs.drop s.app.outputs.length).foldl
      (fun s output =>
        match output with
        | .checked _ favorite => s.updateSaveButton asker favorite
        | _ => s)
      { s with app := app }

def checkAndUpdateAddToFavoritesButton (s : Screens) (asker : Asker) : Option Screens :=
  match asker with
  | .random =>
      match s.random with
      | none => some s
      | some root =>
          match root.currentProverb with
          | none => some (s.updateSaveButton .random false)
          | some proverb => s.isFavorite .random (.rProverb proverb)
  | .detail =>
      match s.detail with
      | none => some s
      | some detail =>
          match detail.proverb with
          | .rProverb proverb => s.isFavorite .detail (.rProverb proverb)
          | _ => some (s.updateSaveButton .detail true)
  | .favorites _ => some s

/-! ## The list of favourites -/

def getAll (s : Screens) : Option (Screens × Option GetAllResult) :=
  (App.step s.app ⟨.getAll, "", Date.zero⟩).map fun app =>
    ({ s with app := app },
      (app.outputs.drop s.app.outputs.length).findSome? fun output =>
        match output with
        | .gotAll _ result => some result
        | _ => none)

def updateData (s : Screens) : Option Screens :=
  s.getAll.bind fun (s, answer) =>
    match s.favorites with
    | none => some s
    | some list =>
        let rows :=
          match answer with
          | some (.ok proverbs) => proverbs
          | _ => list.proverbs
        if rows.all s.app.readable then some { s with favorites := some (list.updateData answer) }
        else none

def setCurrentSortOption (s : Screens) (option : SortOption) : Option Screens :=
  match s.favorites with
  | none => some s
  | some list =>
      if list.proverbs.all s.app.readable then
        some { s with favorites := some (list.setCurrentSortOption option) }
      else none

/-! ## Notifications -/

/-- A favourite that has been deleted from Realm is not compared any more. -/
def didSave (s : Screens) (identifiers : ProverbIdentifiers) : Screens :=
  let s :=
    if s.random.any (·.shows identifiers.originIdentifier) then s.updateSaveButton .random true
    else s
  match s.detail with
  | none => s
  | some detail =>
      if s.app.readable detail.proverb ∧
          detail.proverb.identifier = identifiers.originIdentifier then
        s.updateSaveButton .detail true
      else s

/-- `popViewController` on the screen of a proverb: the favourites below it, if any, are
visible again. -/
def popDetail (s : Screens) : Screens :=
  { s with
    favorites := s.favorites.map fun list => { list with isVisible := true }
    detail := none }

/-- The handler of the favourites; it asks for the list only when it has to. -/
def favoritesDidDelete (s : Screens) (originIdentifier : Identifier) : Option Screens :=
  match s.favorites with
  | none => some s
  | some list =>
      if list.isVisible ∨
          (FavoritesProverbsViewController.rowOfOrigin list.proverbs originIdentifier).isSome then
        (list.didDeleteFavoriteProverbNotification originIdentifier none).map fun list =>
          { s with favorites := some list }
      else s.updateData

def didDelete (s : Screens) (identifiers : ProverbIdentifiers) : Option Screens :=
  let s :=
    if s.random.any (·.shows identifiers.originIdentifier) then s.updateSaveButton .random false
    else s
  (s.favoritesDidDelete identifiers.originIdentifier).map fun s =>
    match s.detail with
    | none => s
    | some detail =>
        match detail.proverb with
        | .rProverb proverb =>
            if proverb.identifier = identifiers.originIdentifier then
              s.updateSaveButton .detail false
            else s
        | _ => s.popDetail

/-! ## Requests -/

/-- What the screens do with one output of a request: the notification first, then the
closure of the screen that has asked. -/
def receive (asker : Asker) (s : Screens) (output : Output) : Option Screens :=
  match output with
  | .didSave identifiers => some (s.didSave identifiers)
  | .didDelete identifiers => s.didDelete identifiers
  | .saved _ (.ok _) => s.checkAndUpdateAddToFavoritesButton asker
  | .saved _ (.error _) =>
      (if asker = .random then s.updateSaveButton .random false
        else s).checkAndUpdateAddToFavoritesButton asker
  | .deleted _ error =>
      match asker with
      | .favorites deleteIndex =>
          let result :=
            match error with
            | none => true
            | some error => FavoritesProverbsViewController.checkFavoriteManagerError error
          match s.favorites with
          | none => some s
          | some list =>
              (list.internalCompletion deleteIndex result).map fun list =>
                { s with favorites := some list }
      | asker =>
          (if asker = .random ∧ error.isSome then s.updateSaveButton .random true
            else s).checkAndUpdateAddToFavoritesButton asker
  | _ => some s

def request (s : Screens) (asker : Asker) (input : Input) : Option Screens :=
  (App.step s.app input).bind fun app =>
    (app.outputs.drop s.app.outputs.length).foldlM (receive asker) { s with app := app }

def managerStep (s : Screens) (event : Event) : Option Screens :=
  (App.step s.app ⟨event, "", Date.zero⟩).map fun app => { s with app := app }

/-! ## Events -/

def showNextProverb (s : Screens) (choice : Nat) : Option Screens :=
  (s.catalogue.getNextRandom choice false false).bind fun (catalogue, proverb) =>
    let random := s.random.map fun root => { root with currentProverb := some proverb }
    { s with catalogue := catalogue, random := random }.checkAndUpdateAddToFavoritesButton .random

def showsRandom (s : Screens) : Bool :=
  s.random.isSome && s.favorites.isNone && s.detail.isNone

def showsFavorites (s : Screens) : Bool := s.favorites.isSome && s.detail.isNone

def openFavorites (s : Screens) : Option Screens :=
  { s with
    favorites := some
      { catalogue := s.catalogue.proverbsStorage false
        proverbs := []
        currentSortOption := .alphabet
        isVisible := true
        refreshes := 0
        deletes := []
        removed := [] } }.updateData

def openDetail (s : Screens) (proverb : Proverb) : Option Screens :=
  let favorites := s.favorites.map fun list => { list with isVisible := false }
  if s.app.readable proverb then
    { s with favorites := favorites, detail := some ⟨proverb, false⟩ }
      |>.checkAndUpdateAddToFavoritesButton .detail
  else none

/-- The controller on top is popped; the random screen asks again when it appears. -/
def leftbuttonPushed (s : Screens) : Option Screens :=
  if s.detail.isSome then some s.popDetail
  else if s.favorites.isSome then
    { s with favorites := none }.checkAndUpdateAddToFavoritesButton .random
  else some s

def swipeDelete (s : Screens) (row : Nat) : Option Screens :=
  match s.favorites with
  | none => some s
  | some list =>
      match list.proverbs[row]? with
      | none => some s
      | some proverb =>
          let deleteIndex := list.proverbs.findIdx? fun value =>
            value.identifier = proverb.identifier
          if list.proverbs.all s.app.readable then
            s.request (.favorites deleteIndex) ⟨.delete proverb, "", Date.zero⟩
          else none

/-- A control that is not on the screen cannot be used. -/
def step (s : Screens) (event : ScreensEvent) : Option Screens :=
  match event with
  | .embedRandom choice =>
      { s with random := some ⟨none, false⟩, favorites := none, detail := none }.showNextProverb
        choice
  | .embedOther => some { s with random := none, favorites := none, detail := none }
  | .nextButtonPushed choice => if s.showsRandom then s.showNextProverb choice else some s
  | .saveButtonPushed random now =>
      match s.random.bind RandomRoot.currentProverb with
      | none => some s
      | some proverb =>
          if s.showsRandom then
            s.request .random ⟨.checkAndSaveOrDeleteFavorite (.rProverb proverb), random, now⟩
          else some s
  | .rightbuttonPushed => if s.showsRandom then s.openFavorites else some s
  | .leftbuttonPushed => s.leftbuttonPushed
  | .sort option => if s.showsFavorites then s.setCurrentSortOption option else some s
  | .reload => if s.showsFavorites then s.updateData else some s
  | .swipeDelete row => if s.showsFavorites then s.swipeDelete row else some s
  | .didSelectFavorite row =>
      match s.favorites.bind fun list => list.proverbs[row]? with
      | none => some s
      | some proverb => if s.showsFavorites then s.openDetail proverb else some s
  | .didSelectProverb proverb =>
      if s.random.isNone ∧ s.detail.isNone ∧
          proverb ∈ ProverbsStorage.getAll (s.catalogue.proverbsStorage false) then
        s.openDetail (.rProverb proverb)
      else some s
  | .saveDeleteButtonPushed random now =>
      match s.detail with
      | none => some s
      | some detail =>
          s.request .detail ⟨.checkAndSaveOrDeleteFavorite detail.proverb, random, now⟩
  | .purchaseCompleted success => s.managerStep (.purchaseCompleted success)
  | .restoreCompleted results => s.managerStep (.restoreCompleted results)
  | .completeTransactions purchases => s.managerStep (.completeTransactions purchases)

end Screens

end Proverbs
