import Proverbs.Core.Transition
import Proverbs.Managers.FavoriteProverbsManager
import Proverbs.Managers.ProverbsManager

/-! # FavoritesProverbsViewController

The list of the favourites screen and everything that changes it. What the manager
answers is given by the environment; `getAll` may answer at once, as it does for
the local storage, or later. Removing a row that is not there traps (`none`). The
table view only mirrors the list and is left out.
-/

namespace Proverbs

inductive SortOption where
  | alphabet
  | date
deriving DecidableEq, Repr

/-- What the closure around a call of `delete` has captured; `none` stands for the
index `-1`. -/
structure PendingDelete where
  proverb : Proverb
  deleteIndex : Option Nat
deriving DecidableEq, Repr

abbrev GetAllResult := Except AppError (List Proverb)

structure FavoritesProverbsViewController where
  /-- `ProverbsStorage`, where the texts of remote favourites are looked up. -/
  catalogue : LocalStorage RProverb
  proverbs : List Proverb
  currentSortOption : SortOption
  isVisible : Bool
  refreshes : Nat
  deletes : List PendingDelete
  /-- The proverbs the last event has removed from `proverbs`. -/
  removed : List Proverb

namespace FavoritesProverbsViewController

def remove (s : FavoritesProverbsViewController) (index : Nat) :
    Option FavoritesProverbsViewController :=
  match s.proverbs[index]? with
  | none => none
  | some proverb =>
      some { s with
        proverbs := s.proverbs.eraseIdx index
        removed := s.removed ++ [proverb] }

/-! ## Data -/

variable [Unicode]

def updateListOrderAndReload (s : FavoritesProverbsViewController) :
    FavoritesProverbsViewController :=
  { s with
    proverbs :=
      match s.currentSortOption with
      | .alphabet => ProverbsManager.sortAlphabetically s.catalogue s.proverbs
      | .date => ProverbsManager.sortByAddedDate s.proverbs }

def setCurrentSortOption (s : FavoritesProverbsViewController) (option : SortOption) :
    FavoritesProverbsViewController :=
  if s.currentSortOption ≠ option then
    { s with currentSortOption := option }.updateListOrderAndReload
  else s

/-- The closure `updateData` hands to `getAll`. -/
def dataUpdated (s : FavoritesProverbsViewController) (result : GetAllResult) :
    FavoritesProverbsViewController :=
  match result with
  | .ok proverbs => { s with proverbs := proverbs }.updateListOrderAndReload
  | .error _ => s.updateListOrderAndReload

def updateData (s : FavoritesProverbsViewController) (answer : Option GetAllResult) :
    FavoritesProverbsViewController :=
  match answer with
  | some result => s.dataUpdated result
  | none => { s with refreshes := s.refreshes + 1 }

/-! ## Deleting -/

def deleteFromFavorites (s : FavoritesProverbsViewController) (proverb : Proverb) :
    FavoritesProverbsViewController :=
  { s with
    deletes := s.deletes ++
      [⟨proverb, s.proverbs.findIdx? fun value => value.identifier = proverb.identifier⟩] }

def checkFavoriteManagerError : AppError → Bool
  | .manager .undefined => false
  | _ => true

def internalCompletion (s : FavoritesProverbsViewController) (deleteIndex : Option Nat)
    (result : Bool) : Option FavoritesProverbsViewController :=
  match deleteIndex with
  | some index => if result then s.remove index else some s
  | none => some s

/-- The row the handler of `DidDelete` removes; without one it refreshes the list. -/
def rowOfOrigin (proverbs : List Proverb) (originIdentifier : Option Identifier) : Option Nat :=
  match originIdentifier with
  | none => none
  | some originIdentifier =>
      if proverbs.all (·.originIdentifier?.isSome) then
        if (proverbs.head?.map Proverb.isRealm) = some true then none
        else proverbs.findIdx? fun proverb => proverb.originIdentifier? = some originIdentifier
      else none

def didDeleteFavoriteProverbNotification (s : FavoritesProverbsViewController)
    (originIdentifier : Option Identifier) (answer : Option GetAllResult) :
    Option FavoritesProverbsViewController :=
  if s.isVisible then some s
  else
    match rowOfOrigin s.proverbs originIdentifier with
    | some row => s.remove row
    | none => some (s.updateData answer)

/-- `deleteCompletion` of the manager: a success is posted before it is reported. -/
def deleteCompleted (s : FavoritesProverbsViewController) (delete : PendingDelete)
    (error : Option AppError) (answer : Option GetAllResult) :
    Option FavoritesProverbsViewController :=
  match error with
  | none =>
      (s.didDeleteFavoriteProverbNotification
        (some (App.identifiers delete.proverb).originIdentifier) answer).bind fun s =>
        s.internalCompletion delete.deleteIndex true
  | some error => s.internalCompletion delete.deleteIndex (checkFavoriteManagerError error)

/-! ## The screen as a machine -/

inductive Event where
  | deleteFromFavorites (proverb : Proverb)
  | deleted (index : Nat) (error : Option AppError) (answer : Option GetAllResult)
  | didDelete (originIdentifier : Option Identifier) (answer : Option GetAllResult)
  | updateData (answer : Option GetAllResult)
  | gotAll (result : GetAllResult)
  | sort (option : SortOption)
  | visible (isVisible : Bool)

def handle (s : FavoritesProverbsViewController) (event : Event) :
    Option FavoritesProverbsViewController :=
  match event with
  | .deleteFromFavorites proverb => some (s.deleteFromFavorites proverb)
  | .deleted index error answer =>
      match s.deletes[index]? with
      | none => some s
      | some delete =>
          { s with deletes := s.deletes.eraseIdx index }.deleteCompleted delete error answer
  | .didDelete originIdentifier answer =>
      s.didDeleteFavoriteProverbNotification originIdentifier answer
  | .updateData answer => some (s.updateData answer)
  | .gotAll result =>
      if 0 < s.refreshes then some ({ s with refreshes := s.refreshes - 1 }.dataUpdated result)
      else some s
  | .sort option => some (s.setCurrentSortOption option)
  | .visible isVisible => some { s with isVisible := isVisible }

def step (s : FavoritesProverbsViewController) (event : Event) :
    Option FavoritesProverbsViewController :=
  { s with removed := [] }.handle event

/-- What the screen does with an output of the manager that concerns one delete. -/
def receive (delete : PendingDelete) (answer : Option GetAllResult)
    (s : FavoritesProverbsViewController) :
    Output → Option FavoritesProverbsViewController
  | .didDelete identifiers =>
      s.didDeleteFavoriteProverbNotification (some identifiers.originIdentifier) answer
  | .deleted _ none => s.internalCompletion delete.deleteIndex true
  | .deleted _ (some error) =>
      s.internalCompletion delete.deleteIndex (checkFavoriteManagerError error)
  | _ => some s

/-- The result of a delete is the outputs of the manager, one after the other. -/
theorem receive_deleteCompleted (app : App) (request : Nat) (delete : PendingDelete)
    (error : Option AppError) (answer : Option GetAllResult)
    (s : FavoritesProverbsViewController) :
    ∃ os, (app.deleteCompleted request (App.identifiers delete.proverb) error).outputs =
        app.outputs ++ os ∧
      os.foldlM (receive delete answer) s = s.deleteCompleted delete error answer := by
  cases error with
  | none =>
      refine ⟨[.didDelete (App.identifiers delete.proverb), .deleted request none], ?_, ?_⟩
      · simp [App.deleteCompleted, App.output]
      · simp [receive, deleteCompleted]
  | some error =>
      refine ⟨[.deleted request (some error)], rfl, ?_⟩
      simp [receive, deleteCompleted]

/-! ## The list keeps its identifiers apart -/

def Distinct (proverbs : List Proverb) : Prop := (proverbs.map Proverb.identifier).Nodup

instance (proverbs : List Proverb) : Decidable (Distinct proverbs) :=
  inferInstanceAs (Decidable (List.Nodup _))

section Lists

variable {s s' : FavoritesProverbsViewController}

def AnswersDistinct (answer : Option GetAllResult) : Prop :=
  ∀ proverbs, answer = some (.ok proverbs) → Distinct proverbs

theorem distinct_updateListOrderAndReload (h : Distinct s.proverbs) :
    Distinct s.updateListOrderAndReload.proverbs := by
  unfold updateListOrderAndReload
  split
  · exact ProverbsManager.nodup_identifiers_sortAlphabetically h
  · exact ((ProverbsManager.perm_sortByAddedDate _).map _).nodup_iff.mpr h

theorem distinct_setCurrentSortOption (h : Distinct s.proverbs) (option : SortOption) :
    Distinct (s.setCurrentSortOption option).proverbs := by
  unfold setCurrentSortOption
  split
  · exact distinct_updateListOrderAndReload h
  · exact h

theorem distinct_dataUpdated (h : Distinct s.proverbs) {result : GetAllResult}
    (hresult : AnswersDistinct (some result)) : Distinct (s.dataUpdated result).proverbs := by
  cases result with
  | ok proverbs => exact distinct_updateListOrderAndReload (hresult proverbs rfl)
  | error error => exact distinct_updateListOrderAndReload h

theorem distinct_updateData (h : Distinct s.proverbs) {answer : Option GetAllResult}
    (hanswer : AnswersDistinct answer) : Distinct (s.updateData answer).proverbs := by
  cases answer with
  | none => exact h
  | some result => exact distinct_dataUpdated h hanswer

omit [Unicode] in
theorem remove_eq_some {index : Nat} :
    s.remove index = some s' ↔ ∃ proverb, s.proverbs[index]? = some proverb ∧
      { s with
        proverbs := s.proverbs.eraseIdx index
        removed := s.removed ++ [proverb] } = s' := by
  unfold remove
  split <;> simp_all

omit [Unicode] in
theorem distinct_remove (h : Distinct s.proverbs) {index : Nat} (hs : s.remove index = some s') :
    Distinct s'.proverbs := by
  obtain ⟨_, _, rfl⟩ := remove_eq_some.mp hs
  exact h.sublist ((List.eraseIdx_sublist _ _).map _)

omit [Unicode] in
theorem distinct_internalCompletion (h : Distinct s.proverbs) {deleteIndex : Option Nat}
    {result : Bool} (hs : s.internalCompletion deleteIndex result = some s') :
    Distinct s'.proverbs := by
  cases deleteIndex with
  | none => exact Option.some.inj hs ▸ h
  | some index =>
      simp only [internalCompletion] at hs
      split at hs
      · exact distinct_remove h hs
      · exact Option.some.inj hs ▸ h

theorem distinct_didDelete (h : Distinct s.proverbs) {originIdentifier : Option Identifier}
    {answer : Option GetAllResult} (hanswer : AnswersDistinct answer)
    (hs : s.didDeleteFavoriteProverbNotification originIdentifier answer = some s') :
    Distinct s'.proverbs := by
  unfold didDeleteFavoriteProverbNotification at hs
  split at hs
  · exact Option.some.inj hs ▸ h
  · split at hs
    · exact distinct_remove h hs
    · exact Option.some.inj hs ▸ distinct_updateData h hanswer

theorem distinct_deleteCompleted (h : Distinct s.proverbs) {delete : PendingDelete}
    {error : Option AppError} {answer : Option GetAllResult} (hanswer : AnswersDistinct answer)
    (hs : s.deleteCompleted delete error answer = some s') : Distinct s'.proverbs := by
  cases error with
  | none =>
      obtain ⟨t, ht, hcompleted⟩ := Option.bind_eq_some_iff.mp hs
      exact distinct_internalCompletion (distinct_didDelete h hanswer ht) hcompleted
  | some error => exact distinct_internalCompletion h hs

def Event.AnswersDistinct : Event → Prop
  | .deleted _ _ answer | .didDelete _ answer | .updateData answer =>
      FavoritesProverbsViewController.AnswersDistinct answer
  | .gotAll result => FavoritesProverbsViewController.AnswersDistinct (some result)
  | _ => True

theorem distinct_handle {event : Event} (h : Distinct s.proverbs)
    (hanswers : event.AnswersDistinct) (hs : s.handle event = some s') : Distinct s'.proverbs := by
  cases event with
  | deleteFromFavorites proverb => exact Option.some.inj hs ▸ h
  | deleted index error answer =>
      simp only [handle] at hs
      split at hs
      · exact Option.some.inj hs ▸ h
      · have herase : Distinct { s with deletes := s.deletes.eraseIdx index }.proverbs := h
        exact distinct_deleteCompleted herase hanswers hs
  | didDelete originIdentifier answer => exact distinct_didDelete h hanswers hs
  | updateData answer => exact Option.some.inj hs ▸ distinct_updateData h hanswers
  | gotAll result =>
      simp only [handle] at hs
      split at hs
      · have hanswered : Distinct { s with refreshes := s.refreshes - 1 }.proverbs := h
        exact Option.some.inj hs ▸ distinct_dataUpdated hanswered hanswers
      · exact Option.some.inj hs ▸ h
  | sort option => exact Option.some.inj hs ▸ distinct_setCurrentSortOption h option
  | visible isVisible => exact Option.some.inj hs ▸ h

theorem distinct_step {event : Event} (h : Distinct s.proverbs) (hanswers : event.AnswersDistinct)
    (hs : step s event = some s') : Distinct s'.proverbs := by
  have hcleared : Distinct { s with removed := [] }.proverbs := h
  exact distinct_handle hcleared hanswers hs

end Lists

end FavoritesProverbsViewController

end Proverbs
