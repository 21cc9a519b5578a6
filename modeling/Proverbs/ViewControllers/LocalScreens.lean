import Proverbs.Managers.CappedFavorites
import Proverbs.Managers.Crashes
import Proverbs.ViewControllers.Screens

/-! # The screens agree with the local storage

Nobody is signed in, so the favourites are on the device. Between two events every button
shows whether its proverb is stored, the list of favourites has a row for each stored
favourite and no other, and an open favourite is a stored one. The storage may be closed:
then it stays empty, and the screens show nothing as stored.
-/

namespace Proverbs

open ProverbsManager
open Unicode (normalForm)

/-! ## Entries of the catalogue -/

/-- What a favourite keeps of its catalogue proverb. -/
structure CatalogueEntry where
  identifier : Identifier
  text : String
  proverbSection : String
deriving DecidableEq, Repr

def RProverb.entry (proverb : RProverb) : CatalogueEntry :=
  ⟨proverb.identifier, proverb.text, proverb.proverbSection⟩

def RFavoriteProverb.entry (favorite : RFavoriteProverb) : CatalogueEntry :=
  ⟨favorite.originIdentifier, favorite.text, favorite.proverbSection⟩

def Catalogue.catalogueEntries (catalogue : Catalogue) : List CatalogueEntry :=
  catalogue.file.entries.map RProverb.entry

/-- Every entry has a sort key, and no two of one section share theirs: the alphabetical
order loses none of them. -/
structure SortsAll [Unicode] (entries : List CatalogueEntry) : Prop where
  keys : ∀ entry ∈ entries, (sortKey entry.text).isSome
  places : (entries.map fun entry =>
    (normalForm entry.proverbSection, (sortKey entry.text).map normalForm)).Nodup

/-! ## The storage -/

namespace LocalStorage

variable {α : Type} [RealmObject α] {s : LocalStorage α}

/-- An object under a new key is added after the others, or there is no Realm to add it to. -/
theorem saveUpdate_new (hcommits : s.writes = .commit) (model : α)
    (h : ∀ x ∈ s.objects, RealmObject.primaryKey x ≠ RealmObject.primaryKey model) :
    (s.saveUpdate model).1.writes = .commit ∧
      ((s.saveUpdate model).1.objects = s.objects ++ [model] ∨ (s.saveUpdate model).1 = s) := by
  cases hrealm : s.realm with
  | some realm =>
      have havailable : s.Available := ⟨by rw [hrealm]; rfl, hcommits⟩
      exact ⟨(saveUpdate_of_available havailable model).2.1.2,
        Or.inl (saveUpdate_of_new havailable h)⟩
  | none =>
      have hsame : (s.saveUpdate model).1 = s :=
        congrArg Prod.fst (saveUpdateList_of_realm_none hrealm [model])
      rw [hsame]
      exact ⟨hcommits, Or.inr rfl⟩

end LocalStorage

/-! ## The manager -/

namespace App

/-- Nobody is signed in, and the favourites are on the device: each comes from an entry of
the catalogue, and no two from one. What is written to Realm is committed. -/
structure Offline (entries : List CatalogueEntry) (s : App) : Prop where
  signedOut : s.currentUser = none
  isLocal : s.isLocalStorage = true
  commits : s.localStorage.writes = .commit
  alive : s.aborted = false
  unique : (s.localStorage.objects.map RFavoriteProverb.originIdentifier).Nodup
  carries : ∀ f ∈ s.localStorage.objects, f.entry ∈ entries

def StoresLocally (s : App) : Proverb → Prop
  | .rProverb proverb =>
      ∃ f ∈ s.localStorage.objects, f.originIdentifier = proverb.identifier
  | .rFavorite f => f ∈ s.localStorage.objects
  | .fFavorite _ => False

section Offline

variable {entries : List CatalogueEntry} {s s' : App}

theorem isFavoriteLocal_iff (s : App) (proverb : RProverb) :
    s.isFavoriteLocal (.rProverb proverb) = true ↔ s.StoresLocally (.rProverb proverb) :=
  LocalStorage.get_isSome

theorem Offline.live (h : Offline entries s) : s.Live := by
  refine ⟨h.alive, ?_⟩
  rw [h.commits]
  simp

theorem Offline.of_account (h : Offline entries s) (haccount : s'.account = s.account)
    (hcommits : s'.localStorage.writes = .commit) (halive : s'.aborted = s.aborted)
    (hunique : (s'.localStorage.objects.map RFavoriteProverb.originIdentifier).Nodup)
    (hcarries : ∀ f ∈ s'.localStorage.objects, f.entry ∈ entries) : Offline entries s' := by
  refine ⟨(congrArg Account.currentUser haccount).trans h.signedOut, ?_, hcommits,
    halive.trans h.alive, hunique, hcarries⟩
  have hplan : s'.currentPlan = s.currentPlan := congrArg Account.currentPlan haccount
  have hlocal := h.isLocal
  unfold isLocalStorage at hlocal ⊢
  rw [hplan]
  exact hlocal

theorem Offline.of_same (h : Offline entries s) (haccount : s'.account = s.account)
    (hdevice : s'.device = s.device) : Offline entries s' := by
  have hstorage : s'.localStorage = s.localStorage := congrArg Prod.fst hdevice
  apply h.of_account haccount
  · rw [hstorage]
    exact h.commits
  · exact congrArg Prod.snd hdevice
  · rw [hstorage]
    exact h.unique
  · rw [hstorage]
    exact h.carries

theorem Offline.of_subset (h : Offline entries s) (haccount : s'.account = s.account)
    (hcommits : s'.localStorage.writes = .commit) (halive : s'.aborted = s.aborted)
    (p : RFavoriteProverb → Bool)
    (hobjects : s'.localStorage.objects = s.localStorage.objects.filter p) :
    Offline entries s' := by
  apply h.of_account haccount hcommits halive
  · rw [hobjects]
    exact h.unique.sublist (List.filter_sublist.map _)
  · rw [hobjects]
    exact fun f hf => h.carries f (List.mem_of_mem_filter hf)

theorem Offline.eq_of_origin (h : Offline entries s) {f g : RFavoriteProverb}
    (hf : f ∈ s.localStorage.objects) (hg : g ∈ s.localStorage.objects)
    (horigin : f.originIdentifier = g.originIdentifier) : f = g :=
  List.inj_on_of_nodup_map h.unique hf hg horigin

/-! ### Deleting a favourite -/

/-- What deleting the favourite does: it is gone, and the deletion is posted. -/
structure Deletes (s : App) (f : RFavoriteProverb) (ids : ProverbIdentifiers) (request : Nat)
    (s' : App) : Prop where
  account : s'.account = s.account
  available : s'.localStorage.Available
  alive : s'.aborted = s.aborted
  objects : s'.localStorage.objects =
    s.localStorage.objects.filter fun x => x.identifier ≠ f.identifier
  outputs : s'.outputs = s.outputs ++ [.didDelete ids, .deleted request none]

theorem Deletes.getAll_isSome {f : RFavoriteProverb} {ids : ProverbIdentifiers} {request : Nat}
    (h : Deletes s f ids request s') : s'.localStorage.getAll.isSome := by
  rw [LocalStorage.getAll_of_available h.available]
  rfl

theorem deletes_deleteLocal (h : Offline entries s) {f : RFavoriteProverb}
    (hf : f ∈ s.localStorage.objects) (ids : ProverbIdentifiers) (request : Nat) :
    ∃ s', (s.deleteLocal f).map (fun (s, error) => s.deleteCompleted request ids error) =
      some s' ∧ Deletes s f ids request s' := by
  have havailable : s.localStorage.Available := ⟨LocalStorage.realm_isSome_of_mem hf, h.commits⟩
  obtain ⟨storage, hdelete, havailable', hobjects⟩ :=
    LocalStorage.delete_of_available havailable f
  refine ⟨({ s with localStorage := storage } : App).deleteCompleted request ids none,
    by simp [deleteLocal, hdelete], ?_, havailable', rfl, hobjects, ?_⟩
  · exact account_deleteCompleted request ids none
  · simp [deleteCompleted, output]

theorem deletes_rFavorite (h : Offline entries s) {f : RFavoriteProverb}
    (hf : f ∈ s.localStorage.objects) (request : Nat) :
    ∃ s', s.delete (.rFavorite f) request = some s' ∧
      Deletes s f ⟨some f.identifier, f.originIdentifier⟩ request s' := by
  have hreadable : s.readable (.rFavorite f) = true := LocalStorage.isValid_of_mem hf
  unfold delete
  rw [if_pos hreadable, if_pos h.isLocal]
  exact deletes_deleteLocal h hf ⟨some f.identifier, f.originIdentifier⟩ request

theorem Offline.of_deletes (h : Offline entries s) {f : RFavoriteProverb}
    {ids : ProverbIdentifiers} {request : Nat} (hdeletes : Deletes s f ids request s') :
    Offline entries s' :=
  h.of_subset hdeletes.account hdeletes.available.2 hdeletes.alive _ hdeletes.objects

/-! ### Toggling a catalogue proverb -/

def IsNotice : Output → Prop
  | .saveCalled .. | .didSave _ | .didDelete _ => True
  | _ => False

def IsAnswer : Output → Prop
  | .saved .. | .deleted .. => True
  | _ => False

structure Answers (entries : List CatalogueEntry) (s s' : App) : Prop where
  offline : Offline entries s'
  outputs : ∃ notices answer, s'.outputs = s.outputs ++ (notices ++ [answer]) ∧
    (∀ o ∈ notices, IsNotice o) ∧ IsAnswer answer

theorem Answers.of_output {t : App} (h : Answers entries t s') {o : Output} (ho : IsNotice o)
    (ht : t.outputs = s.outputs ++ [o]) : Answers entries s s' := by
  obtain ⟨notices, answer, houtputs, hnotices, hanswer⟩ := h.outputs
  refine ⟨h.offline, o :: notices, answer, ?_, ?_, hanswer⟩
  · rw [houtputs, ht]
    simp
  · intro other hother
    rcases List.mem_cons.mp hother with rfl | hother
    · exact ho
    · exact hnotices other hother

theorem answers_deleteCompleted (h : Offline entries s) (request : Nat)
    (ids : ProverbIdentifiers) (error : Option AppError) :
    Answers entries s (s.deleteCompleted request ids error) := by
  refine ⟨h.of_same (account_deleteCompleted request ids error)
    (device_deleteCompleted s request ids error), ?_⟩
  cases error with
  | none => exact ⟨[.didDelete ids], .deleted request none, by simp [deleteCompleted, output],
      by simp [IsNotice], trivial⟩
  | some error => exact ⟨[], .deleted request (some error), rfl, by simp, trivial⟩

theorem answers_saveCompleted (h : Offline entries s) (request : Nat)
    (ids : ProverbIdentifiers) (result : Except AppError Proverb) :
    Answers entries s (s.saveCompleted request ids result) := by
  refine ⟨h.of_same (account_saveCompleted request ids result)
    (device_saveCompleted s request ids result), ?_⟩
  cases result with
  | ok proverb => exact ⟨[.didSave ids], .saved request (.ok proverb),
      by simp [saveCompleted, output], by simp [IsNotice], trivial⟩
  | error error => exact ⟨[], .saved request (.error error), rfl, by simp, trivial⟩

theorem answers_delete (h : Offline entries s) (proverb : RProverb) (request : Nat) :
    ∃ s', s.delete (.rProverb proverb) request = some s' ∧ Answers entries s s' := by
  simp only [delete, readable, if_true, checkAndDeleteLocal]
  rw [if_pos h.isLocal]
  cases hget : s.localStorage.get RFavoriteProverb.originIdentifier proverb.identifier with
  | none => exact ⟨_, rfl, answers_deleteCompleted h request _ _⟩
  | some f =>
      have hf := (LocalStorage.get_eq_some hget).1
      obtain ⟨s', hs', hdeletes⟩ := deletes_deleteLocal h hf ⟨none, proverb.identifier⟩ request
      refine ⟨s', hs', h.of_deletes hdeletes, ?_⟩
      exact ⟨[.didDelete ⟨none, proverb.identifier⟩], .deleted request none, hdeletes.outputs,
        by simp [IsNotice], trivial⟩

theorem offline_checkAndSaveLocal (h : Offline entries s) {proverb : RProverb}
    (hentry : proverb.entry ∈ entries) (hnew : ¬ s.StoresLocally (.rProverb proverb))
    {random : Identifier} (hfresh : ∀ f ∈ s.localStorage.objects, f.identifier ≠ random)
    (now : Date) :
    Offline entries (s.checkAndSaveLocal (.rProverb proverb) random now).1 := by
  have haccount : (s.checkAndSaveLocal (.rProverb proverb) random now).1.account = s.account :=
    account_checkAndSaveLocal _
  let model := RFavoriteProverb.ofRProverb random now proverb
  have hsaved : (s.checkAndSaveLocal (.rProverb proverb) random now).1.device = s.device ∨
      (s.checkAndSaveLocal (.rProverb proverb) random now).1.device =
        ((s.localStorage.saveUpdate model).1, s.aborted) := by
    simp only [checkAndSaveLocal]
    split
    · exact Or.inl rfl
    · right
      split <;> rfl
  rcases hsaved with hsame | hdevice
  · exact h.of_same haccount hsame
  · have hsaved := congrArg Prod.fst hdevice
    dsimp only [device] at hsaved
    obtain ⟨hcommits, hobjects | hsame⟩ := LocalStorage.saveUpdate_new h.commits model hfresh
    · apply h.of_account haccount
      · rw [hsaved]
        exact hcommits
      · exact congrArg Prod.snd hdevice
      · rw [hsaved, hobjects, List.map_append]
        refine List.nodup_append.mpr ⟨h.unique, List.nodup_singleton _, ?_⟩
        intro origin horigin other hother hsame
        obtain ⟨f, hf, rfl⟩ := List.mem_map.mp horigin
        rw [List.mem_singleton.mp hother] at hsame
        exact hnew ⟨f, hf, hsame⟩
      · rw [hsaved, hobjects]
        intro f hf
        rcases List.mem_append.mp hf with hf | hf
        · exact h.carries f hf
        · obtain rfl := List.mem_singleton.mp hf
          exact hentry
    · exact h.of_same haccount (hdevice.trans (by rw [hsame]; rfl))

theorem answers_save (h : Offline entries s) {proverb : RProverb}
    (hentry : proverb.entry ∈ entries) (hnew : ¬ s.StoresLocally (.rProverb proverb))
    {random : Identifier} (hfresh : ∀ f ∈ s.localStorage.objects, f.identifier ≠ random)
    (now : Date) (request : Nat) :
    ∃ s', s.save (.rProverb proverb) request random now = some s' ∧ Answers entries s s' := by
  let t := s.output (.saveCalled request s.isPurchased s.storedCount)
  have ht : Offline entries t := h.of_same rfl rfl
  have hlocal : t.isLocalStorage = true := ht.isLocal
  have hsaved : Offline entries (t.checkAndSaveLocal (.rProverb proverb) random now).1 :=
    offline_checkAndSaveLocal ht hentry hnew hfresh now
  refine ⟨(t.checkAndSaveLocal (.rProverb proverb) random now).1.saveCompleted request
    (identifiers (.rProverb proverb)) (t.checkAndSaveLocal (.rProverb proverb) random now).2,
    ?_, ?_⟩
  · simp only [save, readable, if_true]
    rw [if_pos hlocal]
  · have houtputs : (t.checkAndSaveLocal (.rProverb proverb) random now).1.outputs =
        s.outputs ++ [.saveCalled request s.isPurchased s.storedCount] := by
      simp only [checkAndSaveLocal]
      split
      · rfl
      · split <;> rfl
    have hnotice : IsNotice (.saveCalled request s.isPurchased s.storedCount) := trivial
    exact (answers_saveCompleted hsaved request _ _).of_output hnotice houtputs

/-- A toggle of a catalogue proverb under a fresh identifier is answered at once. -/
theorem answers_toggle (h : Offline entries s) {proverb : RProverb}
    (hentry : proverb.entry ∈ entries) {random : Identifier}
    (hfresh : ∀ f ∈ s.localStorage.objects, f.identifier ≠ random) (now : Date) :
    ∃ s', step s ⟨.checkAndSaveOrDeleteFavorite (.rProverb proverb), random, now⟩ = some s' ∧
      Answers entries s s' := by
  have htake : Offline entries s.takeRequest := h.of_same rfl rfl
  simp only [step, isFavorite]
  rw [if_pos htake.isLocal]
  cases hfavorite : s.takeRequest.isFavoriteLocal (.rProverb proverb) with
  | true =>
      obtain ⟨s', hs', hanswers⟩ := answers_delete htake proverb s.nextRequest
      exact ⟨s', hs', hanswers.offline, hanswers.outputs⟩
  | false =>
      have hnew : ¬ s.takeRequest.StoresLocally (.rProverb proverb) := by
        rw [← isFavoriteLocal_iff, hfavorite]
        exact Bool.false_ne_true
      obtain ⟨s', hs', hanswers⟩ := answers_save htake hentry hnew hfresh now s.nextRequest
      exact ⟨s', hs', hanswers.offline, hanswers.outputs⟩

theorem deletes_toggle (h : Offline entries s) {f : RFavoriteProverb}
    (hf : f ∈ s.localStorage.objects) (random : Identifier) (now : Date) :
    ∃ s', step s ⟨.checkAndSaveOrDeleteFavorite (.rFavorite f), random, now⟩ = some s' ∧
      Deletes s f ⟨some f.identifier, f.originIdentifier⟩ s.nextRequest s' := by
  have htake : Offline entries s.takeRequest := h.of_same rfl rfl
  obtain ⟨s', hs', hdeletes⟩ := deletes_rFavorite htake hf s.nextRequest
  refine ⟨s', ?_, hdeletes.account, hdeletes.available, hdeletes.alive, hdeletes.objects,
    hdeletes.outputs⟩
  simp only [step, isFavorite]
  rw [if_pos htake.isLocal]
  exact hs'

end Offline

theorem stores_of_objects {s t : App} (h : t.localStorage.objects = s.localStorage.objects)
    (proverb : Proverb) : t.StoresLocally proverb ↔ s.StoresLocally proverb := by
  cases proverb <;> simp [StoresLocally, h]

theorem stores_congr {s t : App} (h : t.localStorage = s.localStorage) (proverb : Proverb) :
    t.StoresLocally proverb ↔ s.StoresLocally proverb :=
  stores_of_objects (congrArg LocalStorage.objects h) proverb

end App

/-! ## Buttons and notifications -/

namespace Screens

/-- What is stored and shown is the same; buttons may have changed. -/
structure Kept (s t : Screens) : Prop where
  device : t.app.device = s.app.device
  account : t.app.account = s.app.account
  catalogue : t.catalogue = s.catalogue
  favorites : t.favorites = s.favorites
  random : t.random.map RandomRoot.currentProverb = s.random.map RandomRoot.currentProverb
  detail : t.detail.map ProverbViewController.proverb =
    s.detail.map ProverbViewController.proverb

theorem Kept.refl (s : Screens) : Kept s s := ⟨rfl, rfl, rfl, rfl, rfl, rfl⟩

theorem Kept.storage {s t : Screens} (h : Kept s t) : t.app.localStorage = s.app.localStorage :=
  congrArg Prod.fst h.device

theorem Kept.trans {s t u : Screens} (h : Kept s t) (h' : Kept t u) : Kept s u :=
  ⟨h'.device.trans h.device, h'.account.trans h.account, h'.catalogue.trans h.catalogue,
    h'.favorites.trans h.favorites, h'.random.trans h.random, h'.detail.trans h.detail⟩

/-- The button of the random screen shows whether its proverb is stored. -/
def RandomRight (s : Screens) : Prop :=
  ∀ root ∈ s.random, ∀ proverb ∈ root.currentProverb,
    (root.saveButton = true ↔ s.app.StoresLocally (.rProverb proverb))

def DetailRight (s : Screens) : Prop :=
  ∀ detail ∈ s.detail, (detail.saveDeleteButton = true ↔ s.app.StoresLocally detail.proverb) ∧
    ∀ f, detail.proverb = .rFavorite f → s.app.StoresLocally (.rFavorite f)

/-- The list of favourites has a row for each stored favourite and no other. -/
def RowsRight (s : Screens) : Prop :=
  ∀ list ∈ s.favorites, list.proverbs.Perm (s.app.localStorage.objects.map Proverb.rFavorite)

def DetailFromCatalogue (s : Screens) : Prop :=
  ∀ detail ∈ s.detail, ∃ proverb, detail.proverb = .rProverb proverb

section Buttons

variable {entries : List CatalogueEntry} {s t : Screens}

theorem Kept.detailFromCatalogue (h : Kept s t) (hs : s.DetailFromCatalogue) :
    t.DetailFromCatalogue := by
  intro detail hdetail
  have hproverb := h.detail
  rw [Option.mem_def.mp hdetail] at hproverb
  obtain ⟨other, hother, hsame⟩ := Option.map_eq_some_iff.mp hproverb.symm
  obtain ⟨proverb, hproverb⟩ := hs other hother
  exact ⟨proverb, hsame ▸ hproverb⟩

theorem kept_updateSaveButton (s : Screens) (asker : Asker) (toFavorite : Bool) :
    Kept s (s.updateSaveButton asker toFavorite) := by
  cases asker with
  | random => exact ⟨rfl, rfl, rfl, rfl, by simp [updateSaveButton, Function.comp_def], rfl⟩
  | detail => exact ⟨rfl, rfl, rfl, rfl, rfl, by simp [updateSaveButton, Function.comp_def]⟩
  | favorites deleteIndex => exact .refl s

theorem isFavorite_eq (hlocal : s.app.isLocalStorage = true) (asker : Asker)
    (proverb : RProverb) :
    s.isFavorite asker (.rProverb proverb) =
      some ({ s with app := s.app.takeRequest.output (.checked s.app.nextRequest
          (s.app.isFavoriteLocal (.rProverb proverb))) }.updateSaveButton asker
        (s.app.isFavoriteLocal (.rProverb proverb))) := by
  have hlocal' : s.app.takeRequest.isLocalStorage = true := hlocal
  have hstep : App.step s.app ⟨.isFavorite (.rProverb proverb), "", Date.zero⟩ =
      some (s.app.takeRequest.output (.checked s.app.nextRequest
        (s.app.isFavoriteLocal (.rProverb proverb)))) := by
    simp only [App.step, App.isFavorite]
    rw [if_pos hlocal']
    rfl
  simp only [isFavorite, hstep, Option.map_some]
  simp [App.output, App.takeRequest]

theorem kept_isFavorite (hlocal : s.app.isLocalStorage = true) {asker : Asker}
    {proverb : RProverb} (h : s.isFavorite asker (.rProverb proverb) = some t) : Kept s t := by
  rw [isFavorite_eq hlocal, Option.some.injEq] at h
  rw [← h]
  generalize hasked : ({ s with app := s.app.takeRequest.output (.checked s.app.nextRequest
    (s.app.isFavoriteLocal (.rProverb proverb))) } : Screens) = asked
  have hkept : Kept s asked := by
    rw [← hasked]
    exact ⟨rfl, rfl, rfl, rfl, rfl, rfl⟩
  exact hkept.trans (kept_updateSaveButton asked asker _)

theorem check_random (hlocal : s.app.isLocalStorage = true) :
    ∃ t, s.checkAndUpdateAddToFavoritesButton .random = some t ∧ Kept s t ∧ t.RandomRight ∧
      t.detail = s.detail := by
  simp only [checkAndUpdateAddToFavoritesButton]
  cases hrandom : s.random with
  | none =>
      exact ⟨s, rfl, .refl s, fun root hroot => by simp [hrandom] at hroot, rfl⟩
  | some root =>
      simp only
      cases hproverb : root.currentProverb with
      | none =>
          refine ⟨_, rfl, kept_updateSaveButton s .random false, ?_, rfl⟩
          intro other hother proverb hmem
          simp only [updateSaveButton, hrandom, Option.map_some, Option.mem_some_iff] at hother
          simp [← hother, hproverb] at hmem
      | some proverb =>
          simp only
          have hchecked := isFavorite_eq hlocal .random proverb
          refine ⟨_, hchecked, kept_isFavorite hlocal hchecked, ?_, rfl⟩
          intro other hother displayed hmem
          simp only [updateSaveButton, hrandom, Option.map_some, Option.mem_some_iff] at hother
          subst hother
          obtain rfl : proverb = displayed := by simpa [hproverb] using hmem
          exact App.isFavoriteLocal_iff s.app proverb

theorem check_detail (hlocal : s.app.isLocalStorage = true) (hs : s.DetailFromCatalogue) :
    ∃ t, s.checkAndUpdateAddToFavoritesButton .detail = some t ∧ Kept s t ∧ t.DetailRight ∧
      t.random = s.random := by
  simp only [checkAndUpdateAddToFavoritesButton]
  cases hdetail : s.detail with
  | none =>
      exact ⟨s, rfl, .refl s, fun detail hmem => by simp [hdetail] at hmem, rfl⟩
  | some detail =>
      obtain ⟨proverb, hproverb⟩ := hs detail hdetail
      simp only [hproverb]
      have hchecked := isFavorite_eq hlocal .detail proverb
      refine ⟨_, hchecked, kept_isFavorite hlocal hchecked, ?_, rfl⟩
      intro other hother
      simp only [updateSaveButton, hdetail, Option.map_some, Option.mem_some_iff] at hother
      subst hother
      simp only [hproverb]
      exact ⟨App.isFavoriteLocal_iff s.app proverb, by simp⟩

theorem kept_didSave (s : Screens) (ids : ProverbIdentifiers) : Kept s (s.didSave ids) := by
  have hrandom : Kept s (if s.random.any (·.shows ids.originIdentifier) then
      s.updateSaveButton .random true else s) := by
    split
    · exact kept_updateSaveButton s .random true
    · exact .refl s
  simp only [didSave]
  generalize (if s.random.any (·.shows ids.originIdentifier) then
    s.updateSaveButton .random true else s) = u at hrandom ⊢
  split
  · exact hrandom
  · split
    · exact hrandom.trans (kept_updateSaveButton u .detail true)
    · exact hrandom

variable [Unicode]

theorem kept_didDelete (hfavorites : s.favorites = none) (hs : s.DetailFromCatalogue)
    (ids : ProverbIdentifiers) : ∃ t, s.didDelete ids = some t ∧ Kept s t := by
  have hrandom : Kept s (if s.random.any (·.shows ids.originIdentifier) then
      s.updateSaveButton .random false else s) := by
    split
    · exact kept_updateSaveButton s .random false
    · exact .refl s
  simp only [didDelete]
  generalize (if s.random.any (·.shows ids.originIdentifier) then
    s.updateSaveButton .random false else s) = u at hrandom ⊢
  have hnone : u.favorites = none := hrandom.favorites.trans hfavorites
  simp only [favoritesDidDelete, hnone, Option.map_some]
  cases hdetail : u.detail with
  | none => exact ⟨u, rfl, hrandom⟩
  | some detail =>
      obtain ⟨proverb, hproverb⟩ := hrandom.detailFromCatalogue hs detail hdetail
      simp only [hproverb]
      split
      · exact ⟨_, rfl, hrandom.trans (kept_updateSaveButton u .detail false)⟩
      · exact ⟨u, rfl, hrandom⟩

theorem kept_notices (hfavorites : s.favorites = none) (hs : s.DetailFromCatalogue)
    (asker : Asker) {notices : List Output} (hnotices : ∀ o ∈ notices, App.IsNotice o) :
    ∃ t, notices.foldlM (receive asker) s = some t ∧ Kept s t := by
  induction notices generalizing s with
  | nil => exact ⟨s, rfl, .refl s⟩
  | cons notice notices ih =>
      have hone : ∃ t, receive asker s notice = some t ∧ Kept s t := by
        have hnotice := hnotices notice List.mem_cons_self
        cases notice with
        | saveCalled => exact ⟨s, rfl, .refl s⟩
        | didSave ids => exact ⟨_, rfl, kept_didSave s ids⟩
        | didDelete ids => exact kept_didDelete hfavorites hs ids
        | _ => exact hnotice.elim
      obtain ⟨u, hu, hkept⟩ := hone
      obtain ⟨t, ht, hrest⟩ := ih (hkept.favorites.trans hfavorites)
        (hkept.detailFromCatalogue hs) fun o ho => hnotices o (List.mem_cons_of_mem notice ho)
      refine ⟨t, ?_, hkept.trans hrest⟩
      rw [List.foldlM_cons, hu]
      exact ht

theorem receive_answer (asker : Asker) (hasker : asker = .random ∨ asker = .detail)
    {answer : Output} (hanswer : App.IsAnswer answer) (s : Screens) :
    ∃ u, Kept s u ∧ receive asker s answer = u.checkAndUpdateAddToFavoritesButton asker := by
  cases answer with
  | saved request result =>
      cases result with
      | ok proverb => exact ⟨s, .refl s, rfl⟩
      | error error =>
          rcases hasker with rfl | rfl
          · exact ⟨_, kept_updateSaveButton s .random false, rfl⟩
          · exact ⟨s, .refl s, rfl⟩
  | deleted request error =>
      rcases hasker with rfl | rfl
      · cases error with
        | none => exact ⟨s, .refl s, rfl⟩
        | some error => exact ⟨_, kept_updateSaveButton s .random true, rfl⟩
      · exact ⟨s, .refl s, rfl⟩
  | _ => exact hanswer.elim

end Buttons

end Screens

end Proverbs
