import Proverbs.Core.CappedSet
import Proverbs.Managers.Calculus

/-! # Local favourites as a capped set

In local mode the store behaves as the set of the origins of its favourites.
`save` does not look for an existing favourite and `delete` removes the first
match only, so all of it rests on each origin being stored once.
-/

namespace Proverbs.App

/-- The set the local store stands for. -/
def favoriteSet (s : App) : Finset Identifier :=
  CappedSet.members RFavoriteProverb.originIdentifier s.localStorage.objects

/-- An available store with each origin at most once. -/
structure StoresSet (storage : LocalStorage RFavoriteProverb) : Prop where
  available : storage.Available
  unique : (storage.objects.map RFavoriteProverb.originIdentifier).Nodup

section Local

variable {s : App} (request : Nat) {random : Identifier} (now : Date)

/-! ## What the operations do to the store -/

theorem isFavoriteLocal_rProverb (proverb : RProverb) :
    s.isFavoriteLocal (.rProverb proverb) = decide (proverb.identifier ∈ s.favoriteSet) := by
  rw [Bool.eq_iff_iff, decide_eq_true_iff]
  simp only [isFavoriteLocal, LocalStorage.get_isSome, favoriteSet, CappedSet.mem_members]

theorem getLocalCount_eq (h : StoresSet s.localStorage) : s.getLocalCount = s.favoriteSet.card := by
  rw [favoriteSet, CappedSet.card_members h.unique]
  simp [getLocalCount, LocalStorage.getAll_of_available h.available]

/-- Deleting a stored favourite, however it was named, removes its origin. -/
theorem deleteLocal_stored (h : StoresSet s.localStorage) {f : RFavoriteProverb}
    (hf : f ∈ s.localStorage.objects) :
    ∃ localStorage, s.deleteLocal f = some ({ s with localStorage := localStorage }, none) ∧
      StoresSet localStorage ∧
      localStorage.objects ⊆ s.localStorage.objects ∧
      ({ s with localStorage := localStorage } : App).favoriteSet =
        s.favoriteSet.erase f.originIdentifier := by
  obtain ⟨localStorage, hdelete, havailable, hobjects⟩ :=
    LocalStorage.delete_of_available h.available f
  refine ⟨localStorage, by simp [deleteLocal, hdelete], ⟨havailable, ?_⟩, ?_, ?_⟩
  · rw [hobjects]
    exact h.unique.sublist (List.filter_sublist.map _)
  · rw [hobjects]
    exact List.filter_subset_self _
  · change CappedSet.members _ localStorage.objects = _
    rw [hobjects]
    exact CappedSet.members_filter_ne s.localStorage.objects_nodup h.unique hf

theorem checkAndSaveLocal_full {proverb : RProverb}
    (hfull : s.hasRestriction = true ∧ freeMaxCount ≤ s.getLocalCount) :
    s.checkAndSaveLocal (.rProverb proverb) random now =
      (s, .error (.manager (.maxLimit freeMaxCount))) := by
  simp [checkAndSaveLocal, hfull.1, hfull.2]

theorem checkAndSaveLocal_room (h : StoresSet s.localStorage) {proverb : RProverb}
    (hroom : ¬ (s.hasRestriction = true ∧ freeMaxCount ≤ s.getLocalCount))
    (hfresh : ∀ f ∈ s.localStorage.objects, f.identifier ≠ random)
    (hnew : proverb.identifier ∉ s.favoriteSet) :
    ∃ localStorage,
      s.checkAndSaveLocal (.rProverb proverb) random now =
        ({ s with localStorage := localStorage },
          .ok (.rFavorite (RFavoriteProverb.ofRProverb random now proverb))) ∧
      StoresSet localStorage ∧
      localStorage.objects =
        s.localStorage.objects ++ [RFavoriteProverb.ofRProverb random now proverb] ∧
      ({ s with localStorage := localStorage } : App).favoriteSet =
        insert proverb.identifier s.favoriteSet := by
  let model := RFavoriteProverb.ofRProverb random now proverb
  obtain ⟨hdone, havailable, _⟩ := LocalStorage.saveUpdate_of_available h.available model
  have hobjects : (s.localStorage.saveUpdate model).1.objects = s.localStorage.objects ++ [model] :=
    LocalStorage.saveUpdate_of_new h.available hfresh
  have hcheck : (s.hasRestriction && decide (freeMaxCount ≤ s.getLocalCount)) = false := by
    simpa [not_and] using hroom
  refine ⟨(s.localStorage.saveUpdate model).1, ?_, ⟨havailable, ?_⟩, hobjects, ?_⟩
  · simp only [checkAndSaveLocal, hcheck, Bool.false_eq_true, if_false]
    rw [if_pos hdone]
  · rw [hobjects]
    exact CappedSet.nodup_concat h.unique hnew
  · change CappedSet.members _ (s.localStorage.saveUpdate model).1.objects = _
    rw [hobjects, CappedSet.members_concat]
    rfl

/-! ## The public methods in local mode -/

theorem delete_rFavorite_local (h : StoresSet s.localStorage) (hlocal : s.isLocalStorage = true)
    {f : RFavoriteProverb} (hf : f ∈ s.localStorage.objects) :
    ∃ s', s.delete (.rFavorite f) request = some s' ∧ StoresSet s'.localStorage ∧
      s'.localStorage.objects ⊆ s.localStorage.objects ∧
      s'.favoriteSet = s.favoriteSet.erase f.originIdentifier ∧
      s'.outputs = s.outputs ++
        [.didDelete ⟨some f.identifier, f.originIdentifier⟩, .deleted request none] := by
  obtain ⟨localStorage, hdelete, hstores, hsubset, hset⟩ := deleteLocal_stored h hf
  have hreadable : s.readable (.rFavorite f) = true := LocalStorage.isValid_of_mem hf
  refine ⟨({ s with localStorage := localStorage } : App).deleteCompleted request
    ⟨some f.identifier, f.originIdentifier⟩ none, ?_, hstores, hsubset, hset, ?_⟩
  · simp [delete, hreadable, hlocal, checkAndDeleteLocal, hdelete, identifiers]
  · simp [deleteCompleted, output]

theorem delete_rProverb_local (h : StoresSet s.localStorage) (hlocal : s.isLocalStorage = true)
    {proverb : RProverb} (hmem : proverb.identifier ∈ s.favoriteSet) :
    ∃ s', s.delete (.rProverb proverb) request = some s' ∧ StoresSet s'.localStorage ∧
      s'.localStorage.objects ⊆ s.localStorage.objects ∧
      s'.favoriteSet = s.favoriteSet.erase proverb.identifier ∧
      s'.outputs = s.outputs ++
        [.didDelete ⟨none, proverb.identifier⟩, .deleted request none] := by
  have hfound : (s.localStorage.get RFavoriteProverb.originIdentifier proverb.identifier).isSome :=
    LocalStorage.get_isSome.mpr (CappedSet.mem_members.mp hmem)
  obtain ⟨f, hget⟩ := Option.isSome_iff_exists.mp hfound
  obtain ⟨hf, horigin⟩ := LocalStorage.get_eq_some hget
  obtain ⟨localStorage, hdelete, hstores, hsubset, hset⟩ := deleteLocal_stored h hf
  refine ⟨({ s with localStorage := localStorage } : App).deleteCompleted request
    ⟨none, proverb.identifier⟩ none, ?_, hstores, hsubset, ?_, ?_⟩
  · simp [delete, readable, hlocal, checkAndDeleteLocal, hget, hdelete, identifiers]
  · rw [← horigin]
    exact hset
  · simp [deleteCompleted, output]

theorem save_full_local (hlocal : s.isLocalStorage = true) {proverb : RProverb}
    (hfull : s.hasRestriction = true ∧ freeMaxCount ≤ s.getLocalCount) :
    s.save (.rProverb proverb) request random now =
      some ((s.output (.saveCalled request s.isPurchased s.storedCount)).output
        (.saved request (.error (.manager (.maxLimit freeMaxCount))))) := by
  let t := s.output (.saveCalled request s.isPurchased s.storedCount)
  have hcheck : t.checkAndSaveLocal (.rProverb proverb) random now =
      (t, .error (.manager (.maxLimit freeMaxCount))) := checkAndSaveLocal_full now hfull
  have hlocal' : t.isLocalStorage = true := hlocal
  simp only [save, readable, if_true]
  rw [if_pos hlocal', hcheck]
  rfl

theorem save_room_local (h : StoresSet s.localStorage) (hlocal : s.isLocalStorage = true)
    {proverb : RProverb}
    (hroom : ¬ (s.hasRestriction = true ∧ freeMaxCount ≤ s.getLocalCount))
    (hfresh : ∀ f ∈ s.localStorage.objects, f.identifier ≠ random)
    (hnew : proverb.identifier ∉ s.favoriteSet) :
    ∃ s', s.save (.rProverb proverb) request random now = some s' ∧ StoresSet s'.localStorage ∧
      s'.localStorage.objects =
        s.localStorage.objects ++ [RFavoriteProverb.ofRProverb random now proverb] ∧
      s'.favoriteSet = insert proverb.identifier s.favoriteSet ∧
      s'.outputs = s.outputs ++
        [.saveCalled request s.isPurchased s.storedCount, .didSave ⟨none, proverb.identifier⟩,
          .saved request (.ok (.rFavorite (RFavoriteProverb.ofRProverb random now proverb)))] := by
  let t := s.output (.saveCalled request s.isPurchased s.storedCount)
  obtain ⟨localStorage, hcheck, hstores, hobjects, hset⟩ :=
    checkAndSaveLocal_room (s := t) now h hroom hfresh hnew
  have hlocal' : t.isLocalStorage = true := hlocal
  refine ⟨({ t with localStorage := localStorage } : App).saveCompleted request
    ⟨none, proverb.identifier⟩
    (.ok (.rFavorite (RFavoriteProverb.ofRProverb random now proverb))), ?_, hstores, hobjects,
    hset, ?_⟩
  · simp only [save, readable, if_true]
    rw [if_pos hlocal', hcheck]
    rfl
  · simp [saveCompleted, output, t]

end Local

/-! ## The refinement -/

def Carries (catalogue : Table RProverb) (f : RFavoriteProverb) : Prop :=
  ∃ proverb ∈ catalogue, proverb.identifier = f.originIdentifier ∧ f.text = proverb.text ∧
    f.meaning = proverb.meaning ∧ f.proverbSection = proverb.proverbSection

/-- `getAll` answers with one favourite for each element of the set: those of the
starting store as they were, and the others with their proverb's content. -/
def ListsSet (start : List RFavoriteProverb) (catalogue : Table RProverb) (s : App) : Prop :=
  ∃ favorites : List RFavoriteProverb,
    (∀ request, s.getAll request =
      s.output (.gotAll request (.ok (favorites.map Proverb.rFavorite)))) ∧
    (favorites.map RFavoriteProverb.originIdentifier).Nodup ∧
    CappedSet.members RFavoriteProverb.originIdentifier favorites = s.favoriteSet ∧
    ∀ f ∈ favorites, f ∈ start ∨ Carries catalogue f

/-- The actions considered, in local mode: questions, toggles of catalogue proverbs
under a fresh identifier, deletes of stored favourites, and the store's events. -/
def LocalAction (catalogue : Table RProverb) (s : App) (input : Input) : Prop :=
  s.isLocalStorage = true ∧
    match input.event with
    | .isFavorite (.rProverb proverb) => proverb ∈ catalogue
    | .checkAndSaveOrDeleteFavorite (.rProverb proverb) =>
        proverb ∈ catalogue ∧ ∀ f ∈ s.localStorage.objects, f.identifier ≠ input.random
    | .delete (.rFavorite f) => f ∈ s.localStorage.objects
    | .getAll => True
    | .purchaseCompleted _ | .restoreCompleted _ | .completeTransactions _ => True
    | _ => False

def toggleOutputs (s : App) (proverb : RProverb) (input : Input) :
    CappedSet.Answer → List Output
  | .removed => [.didDelete ⟨none, proverb.identifier⟩, .deleted s.nextRequest none]
  | .added =>
      [.saveCalled s.nextRequest s.isPurchased s.storedCount,
        .didSave ⟨none, proverb.identifier⟩,
        .saved s.nextRequest
          (.ok (.rFavorite (RFavoriteProverb.ofRProverb input.random input.now proverb)))]
  | .full =>
      [.saveCalled s.nextRequest s.isPurchased s.storedCount,
        .saved s.nextRequest (.error (.manager (.maxLimit freeMaxCount)))]

def RefinesSet (s s' : App) (input : Input) : Prop :=
  match input.event with
  | .isFavorite (.rProverb proverb) =>
      s'.favoriteSet = s.favoriteSet ∧
        s'.outputs = s.outputs ++
          [.checked s.nextRequest (decide (proverb.identifier ∈ s.favoriteSet))]
  | .checkAndSaveOrDeleteFavorite (.rProverb proverb) =>
      let toggled :=
        CappedSet.toggle freeMaxCount s.hasRestriction proverb.identifier s.favoriteSet
      s'.favoriteSet = toggled.1 ∧
        s'.outputs = s.outputs ++ toggleOutputs s proverb input toggled.2
  | .delete (.rFavorite f) =>
      s'.favoriteSet = s.favoriteSet.erase f.originIdentifier ∧
        s'.outputs = s.outputs ++
          [.didDelete ⟨some f.identifier, f.originIdentifier⟩, .deleted s.nextRequest none]
  | _ => s'.favoriteSet = s.favoriteSet

/-- The invariant of the runs considered. -/
structure RepresentsSet (start : List RFavoriteProverb) (catalogue : Table RProverb) (s : App) :
    Prop where
  stores : StoresSet s.localStorage
  content : ∀ f ∈ s.localStorage.objects, f ∈ start ∨ Carries catalogue f

section Refinement

variable {start : List RFavoriteProverb} {catalogue : Table RProverb} {s : App}

theorem listsSet (h : RepresentsSet start catalogue s) (hlocal : s.isLocalStorage = true) :
    ListsSet start catalogue s := by
  refine ⟨s.localStorage.objects, fun request => ?_, h.stores.unique, rfl, h.content⟩
  simp [getAll, hlocal, LocalStorage.getAll_of_available h.stores.available]

theorem step_toggle (h : RepresentsSet start catalogue s) (hlocal : s.isLocalStorage = true)
    {proverb : RProverb} (hcatalogue : proverb ∈ catalogue) {random : Identifier} {now : Date}
    (hfresh : ∀ f ∈ s.localStorage.objects, f.identifier ≠ random) :
    ∃ s', step s ⟨.checkAndSaveOrDeleteFavorite (.rProverb proverb), random, now⟩ = some s' ∧
      RefinesSet s s' ⟨.checkAndSaveOrDeleteFavorite (.rProverb proverb), random, now⟩ ∧
      RepresentsSet start catalogue s' := by
  let t := s.takeRequest
  have hstep : step s ⟨.checkAndSaveOrDeleteFavorite (.rProverb proverb), random, now⟩ =
      if proverb.identifier ∈ s.favoriteSet then t.delete (.rProverb proverb) s.nextRequest
      else t.save (.rProverb proverb) s.nextRequest random now := by
    have hlocal' : t.isLocalStorage = true := hlocal
    have hanswer : t.isFavoriteLocal (.rProverb proverb) =
        decide (proverb.identifier ∈ s.favoriteSet) := isFavoriteLocal_rProverb proverb
    simp only [step, isFavorite]
    rw [if_pos hlocal', hanswer]
    simp [checkCompleted, t]
  rw [hstep]
  by_cases hmem : proverb.identifier ∈ s.favoriteSet
  · rw [if_pos hmem]
    obtain ⟨s', hdelete, hstores', hsubset, hset, houtputs⟩ :=
      delete_rProverb_local (s := t) s.nextRequest h.stores hlocal hmem
    refine ⟨s', hdelete, ?_, hstores', fun f hf => h.content f (hsubset hf)⟩
    simp only [RefinesSet, CappedSet.toggle_of_mem hmem]
    exact ⟨hset, houtputs⟩
  · rw [if_neg hmem]
    have hcount := getLocalCount_eq h.stores
    by_cases hfull : s.hasRestriction = true ∧ freeMaxCount ≤ s.favoriteSet.card
    · have hlimit : s.hasRestriction = true ∧ freeMaxCount ≤ s.getLocalCount := hcount ▸ hfull
      refine ⟨_, save_full_local (s := t) s.nextRequest now hlocal hlimit, ?_, h.stores, h.content⟩
      simp only [RefinesSet, CappedSet.toggle_of_full hmem hfull]
      exact ⟨rfl, List.append_assoc _ _ _⟩
    · have hroom : ¬ (s.hasRestriction = true ∧ freeMaxCount ≤ s.getLocalCount) := hcount ▸ hfull
      obtain ⟨s', hsave, hstores', hobjects, hset, houtputs⟩ :=
        save_room_local (s := t) s.nextRequest now h.stores hlocal hroom hfresh hmem
      refine ⟨s', hsave, ?_, hstores', fun f hf => ?_⟩
      · simp only [RefinesSet, CappedSet.toggle_of_room hmem hfull]
        exact ⟨hset, houtputs⟩
      · rw [hobjects, List.mem_append, List.mem_singleton] at hf
        rcases hf with hf | rfl
        · exact h.content f hf
        · exact Or.inr ⟨proverb, hcatalogue, rfl, rfl, rfl, rfl⟩

theorem representsSet_same (h : RepresentsSet start catalogue s) {s' : App}
    (hsame : s'.localStorage = s.localStorage) :
    s'.favoriteSet = s.favoriteSet ∧ RepresentsSet start catalogue s' := by
  refine ⟨by rw [favoriteSet, hsame]; rfl, ?_, ?_⟩
  · rw [hsame]
    exact h.stores
  · rw [hsame]
    exact h.content

/-- Every action's step exists, refines the set's and keeps the representation. -/
theorem step_refinesSet (h : RepresentsSet start catalogue s) {input : Input}
    (haction : LocalAction catalogue s input) :
    ∃ s', step s input = some s' ∧ RefinesSet s s' input ∧ RepresentsSet start catalogue s' := by
  obtain ⟨event, random, now⟩ := input
  obtain ⟨hlocal, haction⟩ := haction
  have hlocal' : s.takeRequest.isLocalStorage = true := hlocal
  cases event with
  | isFavorite proverb =>
      cases proverb with
      | rProverb proverb =>
          have hanswer : s.takeRequest.isFavoriteLocal (.rProverb proverb) =
              decide (proverb.identifier ∈ s.favoriteSet) := isFavoriteLocal_rProverb proverb
          refine ⟨s.takeRequest.output (.checked s.nextRequest
            (decide (proverb.identifier ∈ s.favoriteSet))), ?_, ⟨rfl, rfl⟩, h.stores, h.content⟩
          simp only [step, isFavorite]
          rw [if_pos hlocal', hanswer]
          rfl
      | rFavorite f => exact haction.elim
      | fFavorite f => exact haction.elim
  | checkAndSaveOrDeleteFavorite proverb =>
      cases proverb with
      | rProverb proverb => exact step_toggle h hlocal haction.1 haction.2
      | rFavorite f => exact haction.elim
      | fFavorite f => exact haction.elim
  | delete proverb =>
      cases proverb with
      | rFavorite f =>
          obtain ⟨s', hdelete, hstores, hsubset, hset, houtputs⟩ :=
            delete_rFavorite_local (s := s.takeRequest) s.nextRequest h.stores hlocal haction
          exact ⟨s', hdelete, ⟨hset, houtputs⟩, hstores, fun f hf => h.content f (hsubset hf)⟩
      | rProverb proverb => exact haction.elim
      | fFavorite f => exact haction.elim
  | getAll =>
      exact ⟨_, rfl, representsSet_same h (localStorage_getAll s.takeRequest s.nextRequest)⟩
  | purchaseCompleted success =>
      refine ⟨_, rfl, ?_⟩
      cases success <;> exact representsSet_same h rfl
  | restoreCompleted results =>
      exact ⟨_, rfl, representsSet_same h (localStorage_restoreCompleted s results)⟩
  | completeTransactions purchases =>
      exact ⟨_, rfl, representsSet_same h (localStorage_completeTransactions s purchases)⟩
  | _ => exact haction.elim

end Refinement

/-- Over a run of any length the local store refines the capped set: every step is
the set's, nothing traps, and `getAll` lists the set at every point. -/
theorem local_favorites_refine_set (catalogue : Table RProverb) {s : App} {inputs : List Input}
    (havailable : s.localStorage.Available)
    (hunique : (s.localStorage.objects.map RFavoriteProverb.originIdentifier).Nodup)
    (hactions : Transition.Along step (LocalAction catalogue) s inputs) :
    Transition.Along step
        (fun u input => ListsSet s.localStorage.objects catalogue u ∧
          ∃ u', step u input = some u' ∧ RefinesSet u u' input) s inputs ∧
      ∃ t, Transition.run step s inputs = some t ∧
        (t.isLocalStorage = true → ListsSet s.localStorage.objects catalogue t) := by
  have hstart : RepresentsSet s.localStorage.objects catalogue s :=
    ⟨⟨havailable, hunique⟩, fun f hf => Or.inl hf⟩
  have hkeep : ∀ u input u', RepresentsSet s.localStorage.objects catalogue u →
      LocalAction catalogue u input → step u input = some u' →
      RepresentsSet s.localStorage.objects catalogue u' := by
    intro u input u' hu haction hstep
    obtain ⟨v, hv, _, hrepresents⟩ := step_refinesSet hu haction
    obtain rfl : v = u' := Option.some.inj (hv.symm.trans hstep)
    exact hrepresents
  have hsteps : Transition.Along step
      (fun u input => ListsSet s.localStorage.objects catalogue u ∧
        ∃ u', step u input = some u' ∧ RefinesSet u u' input) s inputs := by
    refine Transition.along_of_invariant hkeep ?_ hstart hactions
    intro u input hu haction
    obtain ⟨v, hv, hrefines, _⟩ := step_refinesSet hu haction
    exact ⟨listsSet hu haction.1, v, hv, hrefines⟩
  refine ⟨hsteps, ?_⟩
  obtain ⟨t, ht⟩ := Transition.exists_run_of_along
    (hsteps.mono fun u input ⟨_, u', hstep, _⟩ => ⟨u', hstep⟩)
  exact ⟨t, ht, listsSet (Transition.run_invariant hkeep hstart hactions ht)⟩

/-- Two toggles of one proverb and a purchase, on an empty store. -/
theorem local_favorites_refine_set_two_toggles :
    let proverb : RProverb := ⟨"proverb", 0, "text", "meaning", "section", false⟩
    let catalogue : Table RProverb := KeyedStore.empty.put proverb
    let inputs : List Input :=
      [⟨.checkAndSaveOrDeleteFavorite (.rProverb proverb), "favorite", 0⟩,
        ⟨.purchaseCompleted true, "", 0⟩,
        ⟨.checkAndSaveOrDeleteFavorite (.rProverb proverb), "other", 1⟩]
    Transition.Along step
        (fun u input => ListsSet [] catalogue u ∧
          ∃ u', step u input = some u' ∧ RefinesSet u u' input) installed inputs ∧
      ∃ t, Transition.run step installed inputs = some t ∧
        (t.isLocalStorage = true → ListsSet [] catalogue t) := by
  intro proverb catalogue inputs
  have hcatalogue : proverb ∈ catalogue := KeyedStore.mem_put_self _ _
  refine local_favorites_refine_set catalogue (s := installed) ⟨rfl, rfl⟩ List.nodup_nil ?_
  refine ⟨⟨rfl, hcatalogue, by decide⟩, fun s₁ h₁ => ?_⟩
  obtain rfl := Option.some.inj h₁
  refine ⟨⟨rfl, trivial⟩, fun s₂ h₂ => ?_⟩
  obtain rfl := Option.some.inj h₂
  exact ⟨⟨rfl, hcatalogue, by decide⟩, fun s₃ _ => trivial⟩

end Proverbs.App
