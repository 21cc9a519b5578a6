import Mathlib.Data.List.Perm.Basic
import Proverbs.ViewControllers.FavoritesGroup.FavoritesProverbsViewController

/-! # Deleting a row by a swipe

The index of the row is taken when the delete is sent and used when it succeeds. In
between the list may have changed, and on a covered screen the handler of the
notification removes the row first. A delete is right exactly when its index still
is the row's, and the handler has not done its work for it.
-/

namespace Proverbs.FavoritesProverbsViewController

/-- What the event has removed is the favourite of this delete, which is gone. -/
def Chosen (delete : PendingDelete) (s : FavoritesProverbsViewController) : Prop :=
  (∀ p ∈ s.removed, p.identifier = delete.proverb.identifier) ∧
    ∀ p ∈ s.proverbs, p.identifier ≠ delete.proverb.identifier

/-- No index is out of range, and a delete that succeeds removes its row and no other. -/
def DeletesChosen [Unicode] (s : FavoritesProverbsViewController) (event : Event) : Prop :=
  ∃ s', step s event = some s' ∧
    match event with
    | .deleted index none _ => ∀ delete, s.deletes[index]? = some delete → Chosen delete s'
    | _ => True

/-! ## The condition -/

/-- The recorded index is the row of the favourite; without an index there is no row. -/
def PointsAt (proverbs : List Proverb) (delete : PendingDelete) : Prop :=
  match delete.deleteIndex with
  | some index => proverbs[index]?.map Proverb.identifier = some delete.proverb.identifier
  | none => ∀ p ∈ proverbs, p.identifier ≠ delete.proverb.identifier

/-- On a covered screen the handler either removes the row of a delete that has no
index, or leaves a list in which the index is right. -/
def SuccessGuarded [Unicode] (s : FavoritesProverbsViewController) (delete : PendingDelete)
    (answer : Option GetAllResult) : Prop :=
  if s.isVisible then PointsAt s.proverbs delete
  else
    match rowOfOrigin s.proverbs (some (App.identifiers delete.proverb).originIdentifier) with
    | some row => delete.deleteIndex = none ∧
        s.proverbs[row]?.map Proverb.identifier = some delete.proverb.identifier
    | none => PointsAt (s.updateData answer).proverbs delete

def DeleteGuarded [Unicode] (s : FavoritesProverbsViewController) (event : Event) : Prop :=
  match event with
  | .deleted index error answer =>
      ∀ delete, s.deletes[index]? = some delete →
        match error with
        | none => s.SuccessGuarded delete answer
        | some error => checkFavoriteManagerError error = true →
            ∀ row, delete.deleteIndex = some row → row < s.proverbs.length
  | _ => True

/-! ## One removal -/

section Removal

variable {s : FavoritesProverbsViewController} {delete : PendingDelete}

theorem remove_of_lt {index : Nat} (h : index < s.proverbs.length) :
    s.remove index = some { s with
      proverbs := s.proverbs.eraseIdx index
      removed := s.removed ++ [s.proverbs[index]] } := by
  simp [remove, List.getElem?_eq_getElem h]

/-- With distinct identifiers a removed row leaves no other behind. -/
theorem ne_of_mem_eraseIdx {proverbs : List Proverb} (h : Distinct proverbs) {index : Nat}
    (hindex : index < proverbs.length) {p : Proverb} (hp : p ∈ proverbs.eraseIdx index) :
    p.identifier ≠ proverbs[index].identifier := by
  have hperm := (List.getElem_cons_eraseIdx_perm hindex).map Proverb.identifier
  have hnodup := hperm.nodup_iff.mpr h
  rw [List.map_cons, List.nodup_cons] at hnodup
  exact fun hid => hnodup.1 (hid ▸ List.mem_map_of_mem hp)

theorem lt_of_rowOfOrigin {proverbs : List Proverb} {originIdentifier : Option Identifier}
    {row : Nat} (h : rowOfOrigin proverbs originIdentifier = some row) : row < proverbs.length := by
  cases originIdentifier with
  | none => simp [rowOfOrigin] at h
  | some originIdentifier =>
      simp only [rowOfOrigin] at h
      split at h
      · split at h
        · simp at h
        · exact (List.findIdx?_eq_some_iff_getElem.mp h).1
      · simp at h

theorem didDelete_exists [Unicode] (originIdentifier : Option Identifier)
    (answer : Option GetAllResult) :
    ∃ s', s.didDeleteFavoriteProverbNotification originIdentifier answer = some s' := by
  unfold didDeleteFavoriteProverbNotification
  split
  · exact ⟨s, rfl⟩
  · split
    · rename_i row hrow
      exact ⟨_, remove_of_lt (lt_of_rowOfOrigin hrow)⟩
    · exact ⟨_, rfl⟩

theorem internalCompletion_exists_iff {deleteIndex : Option Nat} {result : Bool} :
    (∃ s', s.internalCompletion deleteIndex result = some s') ↔
      (result = true → ∀ row, deleteIndex = some row → row < s.proverbs.length) := by
  cases deleteIndex with
  | none => simp [internalCompletion]
  | some index =>
      cases result with
      | false => simp [internalCompletion]
      | true =>
          by_cases hindex : index < s.proverbs.length
          · simp [internalCompletion, remove_of_lt hindex, hindex]
          · simp [internalCompletion, remove, hindex]

theorem internalCompletion_chosen_iff (h : Distinct s.proverbs) (hremoved : s.removed = []) :
    (∃ s', s.internalCompletion delete.deleteIndex true = some s' ∧ Chosen delete s') ↔
      PointsAt s.proverbs delete := by
  unfold PointsAt
  cases delete.deleteIndex with
  | none => simp [internalCompletion, Chosen, hremoved]
  | some index =>
      simp only [internalCompletion, if_true]
      by_cases hindex : index < s.proverbs.length
      · rw [remove_of_lt hindex, List.getElem?_eq_getElem hindex]
        simp only [Option.some.injEq, exists_eq_left', Option.map_some, Chosen, hremoved,
          List.nil_append, List.mem_singleton, forall_eq]
        constructor
        · exact fun hchosen => hchosen.1
        · exact fun hid => ⟨hid, fun p hp => hid ▸ ne_of_mem_eraseIdx h hindex hp⟩
      · simp [remove, hindex]

/-- Where the handler has removed a row, a second one is one too many. -/
theorem removed_chosen_iff (h : Distinct s.proverbs) (hremoved : s.removed = []) {row : Nat}
    (hrow : row < s.proverbs.length) :
    (∃ s', (s.remove row).bind (fun s => s.internalCompletion delete.deleteIndex true) = some s' ∧
        Chosen delete s') ↔
      delete.deleteIndex = none ∧
        s.proverbs[row]?.map Proverb.identifier = some delete.proverb.identifier := by
  rw [remove_of_lt hrow, List.getElem?_eq_getElem hrow]
  simp only [Option.bind_some, hremoved, List.nil_append, Option.map_some, Option.some.injEq]
  cases delete.deleteIndex with
  | none =>
      simp only [internalCompletion, Option.some.injEq, exists_eq_left', Chosen,
        List.mem_singleton, forall_eq, true_and]
      constructor
      · exact fun hchosen => hchosen.1
      · exact fun hid => ⟨hid, fun p hp => hid ▸ ne_of_mem_eraseIdx h hrow hp⟩
  | some index =>
      simp only [internalCompletion, if_true, reduceCtorEq, false_and, iff_false]
      rintro ⟨s', hs', hgone, _⟩
      obtain ⟨p, hp, rfl⟩ := remove_eq_some.mp hs'
      have hfirst := hgone s.proverbs[row] (by simp)
      have hsecond := hgone p (by simp)
      exact ne_of_mem_eraseIdx h hrow (List.mem_of_getElem? hp) (hsecond.trans hfirst.symm)

end Removal

/-! ## One event -/

section Step

variable [Unicode] {s : FavoritesProverbsViewController} {delete : PendingDelete}

theorem deleteCompleted_chosen_iff (h : Distinct s.proverbs) (hremoved : s.removed = [])
    {answer : Option GetAllResult} (hanswer : AnswersDistinct answer) :
    (∃ s', s.deleteCompleted delete none answer = some s' ∧ Chosen delete s') ↔
      s.SuccessGuarded delete answer := by
  simp only [deleteCompleted, didDeleteFavoriteProverbNotification, SuccessGuarded]
  split
  · exact internalCompletion_chosen_iff h hremoved
  · cases hrow : rowOfOrigin s.proverbs
        (some (App.identifiers delete.proverb).originIdentifier) with
    | some row => exact removed_chosen_iff h hremoved (lt_of_rowOfOrigin hrow)
    | none =>
      have hrefreshed : (s.updateData answer).removed = [] := by
        cases answer with
        | none => exact hremoved
        | some result => cases result <;> exact hremoved
      exact internalCompletion_chosen_iff (distinct_updateData h hanswer) hrefreshed

/-- With distinct identifiers the condition is exact for every event. -/
theorem deletesChosen_iff (h : Distinct s.proverbs) {event : Event}
    (hanswers : event.AnswersDistinct) : DeletesChosen s event ↔ DeleteGuarded s event := by
  cases event with
  | deleted index error answer =>
      cases hdelete : s.deletes[index]? with
      | none => cases error <;> simp [DeletesChosen, DeleteGuarded, step, handle, hdelete]
      | some delete =>
          let t := { s with deletes := s.deletes.eraseIdx index, removed := [] }
          have hstep : step s (.deleted index error answer) =
              t.deleteCompleted delete error answer := by
            simp [step, handle, hdelete, t]
          have hdistinct : Distinct t.proverbs := h
          cases error with
          | none =>
              have hsame : t.SuccessGuarded delete answer ↔ s.SuccessGuarded delete answer := by
                rcases answer with _ | _ | _ <;> exact Iff.rfl
              simp only [DeletesChosen, DeleteGuarded, hstep, hdelete, Option.some.injEq,
                forall_eq']
              exact (deleteCompleted_chosen_iff hdistinct rfl hanswers).trans hsame
          | some error =>
              simp only [DeletesChosen, DeleteGuarded, hstep, hdelete, Option.some.injEq,
                forall_eq', and_true]
              exact internalCompletion_exists_iff
  | didDelete originIdentifier answer =>
      obtain ⟨s', hs'⟩ := didDelete_exists (s := { s with removed := [] }) originIdentifier answer
      exact iff_of_true ⟨s', hs', trivial⟩ trivial
  | gotAll result =>
      refine iff_of_true ?_ trivial
      simp only [DeletesChosen, step, handle]
      split <;> exact ⟨_, rfl, trivial⟩
  | _ => exact iff_of_true ⟨_, rfl, trivial⟩ trivial

end Step

/-- In every run of the screen over lists with distinct identifiers: its deletes are
right, and no index out of range, in exactly the runs that meet the condition. -/
theorem deletes_chosen_along_iff [Unicode] {s : FavoritesProverbsViewController}
    (hdistinct : Distinct s.proverbs) {events : List Event}
    (hanswers : ∀ event ∈ events, event.AnswersDistinct) :
    Transition.Along step DeletesChosen s events ↔
      Transition.Along step DeleteGuarded s events := by
  refine Transition.along_congr (I := fun s => Distinct s.proverbs) ?_ ?_ hdistinct
  · intro s event hevent s' h _ hs
    exact distinct_step h (hanswers event hevent) hs
  · exact fun s event hevent h => deletesChosen_iff h (hanswers event hevent)

section TwoRows

attribute [local instance] Unicode.acute

def twoRows : FavoritesProverbsViewController where
  catalogue := ⟨none, .commit⟩
  proverbs := [.fFavorite ⟨"a", "proverb", 0, ""⟩, .fFavorite ⟨"b", "other", 0, ""⟩]
  currentSortOption := .date
  isVisible := true
  refreshes := 0
  deletes := []
  removed := []

theorem deletes_chosen_along_one_swipe :
    Transition.Along step DeletesChosen twoRows
      [.deleteFromFavorites (.fFavorite ⟨"b", "other", 0, ""⟩), .deleted 0 none none] := by
  refine (deletes_chosen_along_iff (by decide) ?_).mpr ?_
  · intro event hevent
    simp only [List.mem_cons, List.not_mem_nil, or_false] at hevent
    rcases hevent with rfl | rfl
    · trivial
    · exact fun _ h => absurd h (by simp)
  · refine ⟨trivial, fun s₁ h₁ => ?_⟩
    obtain rfl := Option.some.inj h₁
    refine ⟨fun delete hdelete => ?_, fun _ _ => trivial⟩
    obtain rfl := Option.some.inj hdelete
    rfl

/-- Two rows are swiped away before either delete is answered: the second index is
out of range. -/
theorem second_swipe_out_of_range :
    ¬ (Distinct twoRows.proverbs → Transition.Along step DeletesChosen twoRows
      [.deleteFromFavorites (.fFavorite ⟨"a", "proverb", 0, ""⟩),
        .deleteFromFavorites (.fFavorite ⟨"b", "other", 0, ""⟩), .deleted 0 none none,
        .deleted 0 none none]) := by
  intro h
  obtain ⟨⟨s', hs', _⟩, _⟩ := (((h (by decide)).2 _ rfl).2 _ rfl).2 _ rfl
  have htrap : none = some s' := hs'
  simp at htrap

end TwoRows

end Proverbs.FavoritesProverbsViewController
