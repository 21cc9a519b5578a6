import Proverbs.Managers.UserGroup.PlanCache
import Proverbs.ViewControllers.FavoritesGroup.SwipeDelete
import Proverbs.ViewControllers.LocalScreens

/-! # Runs of the screens on the local storage

What the screens show agrees with the storage after every event, whatever the user does,
whether or not a write succeeds, and no event traps. The catalogue has to sort completely,
and an identifier drawn for a new favourite has to be new.
-/

namespace Proverbs

open FavoritesProverbsViewController (updateListOrderAndReload)

/-! ## Rows -/

section Rows

variable {entries : List CatalogueEntry} {app : App} {f : RFavoriteProverb}

theorem App.Offline.nodup_filedUnder [Unicode] (h : App.Offline entries app)
    (hsorts : SortsAll entries) (storage : LocalStorage RProverb) :
    ((app.localStorage.objects.map Proverb.rFavorite).map
      (ProverbsManager.filedUnder storage)).Nodup := by
  rw [List.map_map]
  have hobjects : app.localStorage.objects.Nodup := h.unique.of_map
  refine List.Nodup.map_on ?_ hobjects
  intro f hf g hg hplace
  have hentry : f.entry = g.entry :=
    List.inj_on_of_nodup_map hsorts.places (h.carries f hf) (h.carries g hg) hplace
  exact h.eq_of_origin hf hg (congrArg CatalogueEntry.identifier hentry)

theorem perm_updateListOrderAndReload [Unicode] (h : App.Offline entries app)
    (hsorts : SortsAll entries) {list : FavoritesProverbsViewController}
    (hrows : list.proverbs.Perm (app.localStorage.objects.map Proverb.rFavorite)) :
    (updateListOrderAndReload list).proverbs.Perm
      (app.localStorage.objects.map Proverb.rFavorite) := by
  unfold updateListOrderAndReload
  split
  · refine List.Perm.trans ?_ hrows
    refine (ProverbsManager.perm_sortAlphabetically_iff _ _).mpr ⟨?_, ?_⟩
    · intro proverb hproverb
      obtain ⟨f, hf, rfl⟩ := List.mem_map.mp (hrows.mem_iff.mp hproverb)
      exact hsorts.keys f.entry (h.carries f hf)
    · exact (hrows.map _).nodup_iff.mpr (h.nodup_filedUnder hsorts list.catalogue)
  · exact (ProverbsManager.perm_sortByAddedDate _).trans hrows

theorem perm_cons_filter (hf : f ∈ app.localStorage.objects) :
    app.localStorage.objects.Perm
      (f :: app.localStorage.objects.filter fun x => x.identifier ≠ f.identifier) := by
  have hids := LocalStorage.objects_nodup app.localStorage
  have hnodup : app.localStorage.objects.Nodup := hids.of_map
  refine (List.perm_cons_erase hf).trans ?_
  rw [hnodup.erase_eq_filter f]
  refine List.Perm.cons f (List.Perm.of_eq ?_)
  apply List.filter_congr
  intro x hx
  have hsame : x = f ↔ x.identifier = f.identifier :=
    ⟨congrArg RFavoriteProverb.identifier, fun hid => List.inj_on_of_nodup_map hids hx hf hid⟩
  by_cases hid : x.identifier = f.identifier <;> simp [hid, hsame]

theorem all_readable {rows : List Proverb}
    (hrows : rows.Perm (app.localStorage.objects.map Proverb.rFavorite)) :
    rows.all app.readable = true := by
  rw [List.all_eq_true]
  intro proverb hproverb
  obtain ⟨f, hf, rfl⟩ := List.mem_map.mp (hrows.mem_iff.mp hproverb)
  exact LocalStorage.isValid_of_mem hf

/-- Removing the row of a favourite leaves the rows of the others. -/
theorem perm_eraseIdx {rows : List Proverb} (hf : f ∈ app.localStorage.objects)
    (hrows : rows.Perm (app.localStorage.objects.map Proverb.rFavorite)) {index : Nat}
    (hindex : index < rows.length) (hrow : rows[index] = .rFavorite f) :
    (rows.eraseIdx index).Perm
      ((app.localStorage.objects.filter fun x => x.identifier ≠ f.identifier).map
        Proverb.rFavorite) := by
  have hcons := List.getElem_cons_eraseIdx_perm hindex
  rw [hrow] at hcons
  have hobjects := (perm_cons_filter hf).map Proverb.rFavorite
  rw [List.map_cons] at hobjects
  exact (hcons.trans (hrows.trans hobjects)).cons_inv

/-- Deleting a favourite takes its origin from the stored proverbs and no other. -/
theorem App.Offline.stores_deleted {s s' : App} (h : App.Offline entries s)
    (hf : f ∈ s.localStorage.objects)
    (hobjects : s'.localStorage.objects =
      s.localStorage.objects.filter fun x => x.identifier ≠ f.identifier)
    (proverb : RProverb) :
    s'.StoresLocally (.rProverb proverb) ↔
      s.StoresLocally (.rProverb proverb) ∧ proverb.identifier ≠ f.originIdentifier := by
  have hids := LocalStorage.objects_nodup s.localStorage
  unfold App.StoresLocally
  rw [hobjects]
  constructor
  · rintro ⟨g, hg, horigin⟩
    obtain ⟨hmem, hne⟩ := List.mem_filter.mp hg
    refine ⟨⟨g, hmem, horigin⟩, fun hsame => ?_⟩
    have heq : g = f := h.eq_of_origin hmem hf (horigin.trans hsame)
    simp [heq] at hne
  · rintro ⟨⟨g, hmem, horigin⟩, hne⟩
    refine ⟨g, List.mem_filter.mpr ⟨hmem, ?_⟩, horigin⟩
    rw [decide_eq_true_eq]
    intro hid
    have heq : g = f := List.inj_on_of_nodup_map hids hmem hf hid
    exact hne (horigin.symm.trans (heq ▸ rfl))

end Rows

namespace Screens

/-! ## What is where -/

/-- The favourites are opened on the random screen, and a catalogue proverb without it. -/
structure Layout (entries : List CatalogueEntry) (s : Screens) : Prop where
  offline : App.Offline entries s.app
  opened : s.catalogue.opened = true
  catalogue : s.catalogue.catalogueEntries = entries
  shown : ∀ root ∈ s.random, ∀ proverb ∈ root.currentProverb, proverb.entry ∈ entries
  pushed : ∀ list ∈ s.favorites, s.random.isSome ∧ list.isVisible = s.detail.isNone
  ofCatalogue : ∀ detail ∈ s.detail, ∀ proverb, detail.proverb = .rProverb proverb →
    s.random = none ∧ proverb.entry ∈ entries
  notRemote : ∀ detail ∈ s.detail, ∀ f, detail.proverb ≠ .fFavorite f

/-- Everything on the screens is as it is stored. -/
structure Agrees (entries : List CatalogueEntry) (s : Screens) : Prop where
  layout : Layout entries s
  random : s.RandomRight
  detail : s.DetailRight
  rows : s.RowsRight

/-- The same screens on the same storage; buttons and rows may differ. -/
structure Alike (s t : Screens) : Prop where
  device : t.app.device = s.app.device
  account : t.app.account = s.app.account
  catalogue : t.catalogue = s.catalogue
  visible : t.favorites.map FavoritesProverbsViewController.isVisible =
    s.favorites.map FavoritesProverbsViewController.isVisible
  random : t.random.map RandomRoot.currentProverb = s.random.map RandomRoot.currentProverb
  detail : t.detail.map ProverbViewController.proverb =
    s.detail.map ProverbViewController.proverb

theorem Alike.storage {s t : Screens} (h : Alike s t) :
    t.app.localStorage = s.app.localStorage := congrArg Prod.fst h.device

theorem Kept.alike {s t : Screens} (h : Kept s t) : Alike s t :=
  ⟨h.device, h.account, h.catalogue, congrArg _ h.favorites, h.random, h.detail⟩

section Layout

variable {entries : List CatalogueEntry} {s t : Screens}

theorem Alike.detail_isNone (h : Alike s t) : t.detail.isNone = s.detail.isNone := by
  have hdetail := congrArg Option.isNone h.detail
  rwa [Option.isNone_map, Option.isNone_map] at hdetail

theorem Alike.random_isSome (h : Alike s t) : t.random.isSome = s.random.isSome := by
  have hrandom := congrArg Option.isSome h.random
  rwa [Option.isSome_map, Option.isSome_map] at hrandom

theorem Alike.exists_detail (h : Alike s t) {detail : ProverbViewController}
    (hdetail : detail ∈ t.detail) : ∃ other ∈ s.detail, other.proverb = detail.proverb := by
  have hproverb := h.detail
  rw [Option.mem_def.mp hdetail] at hproverb
  exact Option.map_eq_some_iff.mp hproverb.symm

theorem Alike.layout (h : Alike s t) (hs : Layout entries s) : Layout entries t := by
  refine ⟨hs.offline.of_same h.account h.device, ?_, ?_, ?_, ?_, ?_, ?_⟩
  · rw [h.catalogue]
    exact hs.opened
  · rw [h.catalogue]
    exact hs.catalogue
  · intro root hroot proverb hproverb
    have hsame := h.random
    rw [Option.mem_def.mp hroot] at hsame
    obtain ⟨other, hother, heq⟩ := Option.map_eq_some_iff.mp hsame.symm
    exact hs.shown other hother proverb (heq ▸ hproverb)
  · intro list hlist
    have hsame := h.visible
    rw [Option.mem_def.mp hlist] at hsame
    obtain ⟨other, hother, heq⟩ := Option.map_eq_some_iff.mp hsame.symm
    obtain ⟨hrandom, hvisible⟩ := hs.pushed other hother
    rw [h.random_isSome, h.detail_isNone, ← heq]
    exact ⟨hrandom, hvisible⟩
  · intro detail hdetail proverb hproverb
    obtain ⟨other, hother, heq⟩ := h.exists_detail hdetail
    obtain ⟨hrandom, hentry⟩ := hs.ofCatalogue other hother proverb (heq.trans hproverb)
    have hnone := h.random
    rw [hrandom, Option.map_none, Option.map_eq_none_iff] at hnone
    exact ⟨hnone, hentry⟩
  · intro detail hdetail f hproverb
    obtain ⟨other, hother, heq⟩ := h.exists_detail hdetail
    exact hs.notRemote other hother f (heq.trans hproverb)

theorem RandomRight.congr (h : s.RandomRight) (hstorage : t.app.localStorage = s.app.localStorage)
    (hrandom : t.random = s.random) : t.RandomRight := by
  intro root hroot proverb hproverb
  rw [App.stores_congr hstorage]
  exact h root (hrandom ▸ hroot) proverb hproverb

theorem DetailRight.congr (h : s.DetailRight) (hstorage : t.app.localStorage = s.app.localStorage)
    (hdetail : t.detail = s.detail) : t.DetailRight := by
  intro detail hmem
  obtain ⟨hbutton, hstored⟩ := h detail (hdetail ▸ hmem)
  rw [App.stores_congr hstorage]
  exact ⟨hbutton, fun f hf => (App.stores_congr hstorage _).mpr (hstored f hf)⟩

theorem RowsRight.congr (h : s.RowsRight) (hstorage : t.app.localStorage = s.app.localStorage)
    (hfavorites : t.favorites = s.favorites) : t.RowsRight := by
  intro list hlist
  rw [hstorage]
  exact h list (hfavorites ▸ hlist)

theorem detailRight_of_none (h : s.detail = none) : s.DetailRight := by
  intro detail hdetail
  simp [h] at hdetail

theorem rowsRight_of_none (h : s.favorites = none) : s.RowsRight := by
  intro list hlist
  simp [h] at hlist

theorem Layout.favorites_none (h : Layout entries s) (hrandom : s.random = none) :
    s.favorites = none := by
  cases hfavorites : s.favorites with
  | none => rfl
  | some list => simpa [hrandom] using (h.pushed list hfavorites).1

end Layout

/-! ## Checks and toggles of a catalogue proverb -/

section Toggles

variable {entries : List CatalogueEntry} {s t : Screens}

theorem agrees_check_random (h : Layout entries s) (hdetail : s.DetailRight)
    (hrows : s.RowsRight) :
    ∃ t, s.checkAndUpdateAddToFavoritesButton .random = some t ∧ Agrees entries t := by
  obtain ⟨t, ht, hkept, hrandom, hsame⟩ := check_random h.offline.isLocal
  refine ⟨t, ht, hkept.alike.layout h, hrandom, ?_, ?_⟩
  · exact hdetail.congr hkept.storage hsame
  · exact hrows.congr hkept.storage hkept.favorites

theorem agrees_check_detail (h : Layout entries s) (hcatalogue : s.DetailFromCatalogue)
    (hrandom : s.RandomRight) (hrows : s.RowsRight) :
    ∃ t, s.checkAndUpdateAddToFavoritesButton .detail = some t ∧ Agrees entries t := by
  obtain ⟨t, ht, hkept, hdetail, hsame⟩ := check_detail h.offline.isLocal hcatalogue
  refine ⟨t, ht, hkept.alike.layout h, ?_, hdetail, ?_⟩
  · exact hrandom.congr hkept.storage hsame
  · exact hrows.congr hkept.storage hkept.favorites

/-- The manager has gone on, and the screens have not followed yet. -/
theorem Layout.withApp (h : Layout entries s) {app : App} (happ : App.Offline entries app) :
    Layout entries { s with app := app } :=
  ⟨happ, h.opened, h.catalogue, h.shown, h.pushed, h.ofCatalogue, h.notRemote⟩

/-- Where no favourites are on the screens, a request for a catalogue proverb ends in a
check of the asking screen. -/
theorem request_toggle [Unicode] (h : Layout entries s) (hfavorites : s.favorites = none)
    (hcatalogue : s.DetailFromCatalogue) {asker : Asker}
    (hasker : asker = .random ∨ asker = .detail) {proverb : RProverb}
    (hentry : proverb.entry ∈ entries) {random : Identifier}
    (hfresh : ∀ f ∈ s.app.localStorage.objects, f.identifier ≠ random) (now : Date) :
    ∃ app u, App.Offline entries app ∧ Kept { s with app := app } u ∧
      s.request asker ⟨.checkAndSaveOrDeleteFavorite (.rProverb proverb), random, now⟩ =
        u.checkAndUpdateAddToFavoritesButton asker := by
  obtain ⟨app, hstep, hanswers⟩ := App.answers_toggle h.offline hentry hfresh now
  obtain ⟨notices, answer, houtputs, hnotices, hanswer⟩ := hanswers.outputs
  let asked : Screens := { s with app := app }
  obtain ⟨t, ht, hkept⟩ := kept_notices (s := asked) hfavorites hcatalogue asker hnotices
  obtain ⟨u, hu, hreceive⟩ := receive_answer asker hasker hanswer t
  refine ⟨app, u, hanswers.offline, hkept.trans hu, ?_⟩
  have hdrop : app.outputs.drop s.app.outputs.length = notices ++ [answer] := by
    rw [houtputs, List.drop_left]
  simp only [request, hstep, Option.bind_some, hdrop, List.foldlM_append]
  rw [ht, ← hreceive]
  simp

theorem agrees_toggle_random [Unicode] (h : Layout entries s) (hfavorites : s.favorites = none)
    (hdetail : s.detail = none) {proverb : RProverb} (hentry : proverb.entry ∈ entries)
    {random : Identifier} (hfresh : ∀ f ∈ s.app.localStorage.objects, f.identifier ≠ random)
    (now : Date) :
    ∃ t, s.request .random ⟨.checkAndSaveOrDeleteFavorite (.rProverb proverb), random, now⟩ =
      some t ∧ Agrees entries t := by
  have hcatalogue : s.DetailFromCatalogue := fun detail hmem => by simp [hdetail] at hmem
  obtain ⟨app, u, hoffline, hkept, hrequest⟩ :=
    request_toggle h hfavorites hcatalogue (Or.inl rfl) hentry hfresh now
  have hnone : u.detail = none := by
    have hsame := hkept.detail
    rwa [hdetail, Option.map_none, Option.map_eq_none_iff] at hsame
  rw [hrequest]
  exact agrees_check_random (hkept.alike.layout (h.withApp hoffline)) (detailRight_of_none hnone)
    (rowsRight_of_none (hkept.favorites.trans hfavorites))

theorem agrees_toggle_detail [Unicode] (h : Layout entries s) {detail : ProverbViewController}
    (hdetail : s.detail = some detail) {proverb : RProverb}
    (hproverb : detail.proverb = .rProverb proverb) {random : Identifier}
    (hfresh : ∀ f ∈ s.app.localStorage.objects, f.identifier ≠ random) (now : Date) :
    ∃ t, s.request .detail ⟨.checkAndSaveOrDeleteFavorite (.rProverb proverb), random, now⟩ =
      some t ∧ Agrees entries t := by
  obtain ⟨hrandom, hentry⟩ := h.ofCatalogue detail hdetail proverb hproverb
  have hfavorites := h.favorites_none hrandom
  have hcatalogue : s.DetailFromCatalogue := by
    intro other hother
    obtain rfl : detail = other := by simpa [hdetail] using hother
    exact ⟨proverb, hproverb⟩
  obtain ⟨app, u, hoffline, hkept, hrequest⟩ :=
    request_toggle h hfavorites hcatalogue (Or.inr rfl) hentry hfresh now
  have hnone : u.random = none := by
    have hsame := hkept.random
    rwa [hrandom, Option.map_none, Option.map_eq_none_iff] at hsame
  rw [hrequest]
  refine agrees_check_detail (hkept.alike.layout (h.withApp hoffline))
    (hkept.detailFromCatalogue hcatalogue) ?_
    (rowsRight_of_none (hkept.favorites.trans hfavorites))
  intro root hroot
  simp [hnone] at hroot

end Toggles

/-! ## The list of favourites -/

section List

variable {entries : List CatalogueEntry} {s t : Screens}

/-- On the device the list is answered at once. -/
theorem getAll_eq (hlocal : s.app.isLocalStorage = true) :
    ∃ app, app.device = s.app.device ∧ app.account = s.app.account ∧
      s.getAll = some ({ s with app := app }, some
        (match s.app.localStorage.getAll with
        | some results => .ok (results.map Proverb.rFavorite)
        | none => .error (.manager .undefined))) := by
  have hlocal' : s.app.takeRequest.isLocalStorage = true := hlocal
  refine ⟨s.app.takeRequest.getAll s.app.nextRequest, ?_, ?_, ?_⟩
  · exact App.device_getAll s.app.takeRequest s.app.nextRequest
  · exact App.account_getAll s.app.nextRequest
  · simp only [getAll, App.step, Option.map_some]
    unfold App.getAll
    rw [if_pos hlocal']
    have hstorage : s.app.takeRequest.localStorage.getAll = s.app.localStorage.getAll := rfl
    rw [hstorage]
    cases hgetAll : s.app.localStorage.getAll with
    | none => simp [App.output, App.takeRequest]
    | some results => simp [App.output, App.takeRequest]

def relisted (s : Screens) (app : App) (list : FavoritesProverbsViewController) : Screens :=
  ⟨app, s.catalogue, s.random, some list, s.detail⟩

theorem alike_relisted {app : App} (hdevice : app.device = s.app.device)
    (haccount : app.account = s.app.account) {list list' : FavoritesProverbsViewController}
    (hfavorites : s.favorites = some list) (hvisible : list'.isVisible = list.isVisible) :
    Alike s (s.relisted app list') := by
  refine ⟨hdevice, haccount, rfl, ?_, rfl, rfl⟩
  simp [relisted, hfavorites, hvisible]

/-- The list is asked for again: its rows are the stored favourites. -/
theorem updateData_right [Unicode] (h : Layout entries s) (hsorts : SortsAll entries)
    (hclosed : s.app.localStorage.getAll = none → s.RowsRight) :
    ∃ t, s.updateData = some t ∧ Alike s t ∧ t.RowsRight ∧ t.random = s.random ∧
      t.detail = s.detail := by
  obtain ⟨app, hdevice, haccount, hgetAll⟩ := getAll_eq (s := s) h.offline.isLocal
  have hoffline : App.Offline entries app := h.offline.of_same haccount hdevice
  have hstorage : app.localStorage = s.app.localStorage := congrArg Prod.fst hdevice
  simp only [updateData, hgetAll, Option.bind_some]
  cases hfavorites : s.favorites with
  | none =>
      refine ⟨{ s with app := app }, by simp [hfavorites], ?_, ?_, rfl, rfl⟩
      · exact ⟨hdevice, haccount, rfl, rfl, rfl, rfl⟩
      · exact rowsRight_of_none hfavorites
  | some list =>
      cases hall : s.app.localStorage.getAll with
      | none =>
          have hrows : list.proverbs.Perm (app.localStorage.objects.map Proverb.rFavorite) := by
            rw [hstorage]
            exact hclosed hall list hfavorites
          refine ⟨s.relisted app (updateListOrderAndReload list), ?_,
            alike_relisted hdevice haccount hfavorites rfl, ?_, rfl, rfl⟩
          · simp only
            rw [if_pos (all_readable hrows)]
            rfl
          · intro other hother
            obtain rfl := Option.some.inj hother
            exact perm_updateListOrderAndReload hoffline hsorts hrows
      | some results =>
          have hobjects : app.localStorage.objects = results := by
            rw [hstorage]
            exact LocalStorage.objects_of_getAll hall
          let answered := { list with proverbs := results.map Proverb.rFavorite }
          have hrows : answered.proverbs.Perm (app.localStorage.objects.map Proverb.rFavorite) := by
            rw [hobjects]
          refine ⟨s.relisted app (updateListOrderAndReload answered), ?_,
            alike_relisted hdevice haccount hfavorites rfl, ?_, rfl, rfl⟩
          · simp only
            rw [if_pos (all_readable hrows)]
            rfl
          · intro other hother
            obtain rfl := Option.some.inj hother
            exact perm_updateListOrderAndReload hoffline hsorts hrows

theorem agrees_updateData [Unicode] (h : Agrees entries s) (hsorts : SortsAll entries) :
    ∃ t, s.updateData = some t ∧ Agrees entries t := by
  obtain ⟨t, ht, halike, hrows, hrandom, hdetail⟩ :=
    updateData_right h.layout hsorts fun _ => h.rows
  refine ⟨t, ht, halike.layout h.layout, ?_, ?_, hrows⟩
  · exact h.random.congr halike.storage hrandom
  · exact h.detail.congr halike.storage hdetail

theorem agrees_setCurrentSortOption [Unicode] (h : Agrees entries s) (hsorts : SortsAll entries)
    (option : SortOption) :
    ∃ t, s.setCurrentSortOption option = some t ∧ Agrees entries t := by
  unfold setCurrentSortOption
  cases hfavorites : s.favorites with
  | none => exact ⟨s, rfl, h⟩
  | some list =>
      have hrows := h.rows list hfavorites
      simp only
      rw [if_pos (all_readable hrows)]
      refine ⟨_, rfl, ?_, ?_, ?_, ?_⟩
      · refine (alike_relisted (s := s) rfl rfl hfavorites ?_).layout h.layout
        unfold FavoritesProverbsViewController.setCurrentSortOption
        split <;> rfl
      · exact h.random.congr rfl rfl
      · exact h.detail.congr rfl rfl
      · intro other hother
        obtain rfl := Option.some.inj hother
        unfold FavoritesProverbsViewController.setCurrentSortOption
        split
        · have hresorted : ({ list with currentSortOption := option } :
              FavoritesProverbsViewController).proverbs.Perm
                (s.app.localStorage.objects.map Proverb.rFavorite) := hrows
          exact perm_updateListOrderAndReload h.layout.offline hsorts hresorted
        · exact hrows

theorem agrees_openFavorites [Unicode] (h : Agrees entries s) (hsorts : SortsAll entries)
    (hrandom : s.random.isSome) (hdetail : s.detail = none) :
    ∃ t, s.openFavorites = some t ∧ Agrees entries t := by
  unfold openFavorites
  generalize hopened : ({ s with
    favorites := some
      { catalogue := s.catalogue.proverbsStorage false
        proverbs := []
        currentSortOption := .alphabet
        isVisible := true
        refreshes := 0
        deletes := []
        removed := [] } } : Screens) = opened
  have hlayout : Layout entries opened := by
    rw [← hopened]
    refine ⟨h.layout.offline, h.layout.opened, h.layout.catalogue, h.layout.shown, ?_,
      h.layout.ofCatalogue, h.layout.notRemote⟩
    intro list hlist
    obtain rfl := Option.some.inj hlist
    exact ⟨hrandom, by simp [hdetail]⟩
  have hempty : opened.app.localStorage.getAll = none → opened.RowsRight := by
    rw [← hopened]
    intro hnone list hlist
    obtain rfl := Option.some.inj hlist
    simp [LocalStorage.objects, hnone]
  obtain ⟨t, ht, halike, hrows, hsame, hdetail'⟩ := updateData_right hlayout hsorts hempty
  refine ⟨t, ht, halike.layout hlayout, ?_, ?_, hrows⟩
  · refine h.random.congr (halike.storage.trans ?_) (hsame.trans ?_)
    · rw [← hopened]
    · rw [← hopened]
  · refine detailRight_of_none (hdetail'.trans ?_)
    rw [← hopened]
    exact hdetail

end List

/-! ## Deleting a stored favourite -/

section Deletes

variable {entries : List CatalogueEntry} {s t : Screens} {f : RFavoriteProverb}

theorem deleteIndex_spec {app : App} {rows : List Proverb} (hf : f ∈ app.localStorage.objects)
    (hrows : rows.Perm (app.localStorage.objects.map Proverb.rFavorite)) :
    ∃ index, ∃ h : index < rows.length, rows[index] = .rFavorite f ∧
      (rows.findIdx? fun value => value.identifier = (Proverb.rFavorite f).identifier) =
        some index := by
  have hids := LocalStorage.objects_nodup app.localStorage
  have hmem : Proverb.rFavorite f ∈ rows := hrows.mem_iff.mpr (List.mem_map_of_mem hf)
  have hfound : (rows.findIdx? fun value =>
      value.identifier = (Proverb.rFavorite f).identifier).isSome := by
    rw [List.findIdx?_isSome, List.any_eq_true]
    exact ⟨.rFavorite f, hmem, by simp⟩
  obtain ⟨index, hindex⟩ := Option.isSome_iff_exists.mp hfound
  obtain ⟨hlt, hid, _⟩ := List.findIdx?_eq_some_iff_getElem.mp hindex
  refine ⟨index, hlt, ?_, hindex⟩
  obtain ⟨g, hg, heq⟩ := List.mem_map.mp (hrows.mem_iff.mp (List.getElem_mem hlt))
  rw [← heq] at hid ⊢
  have hsame : g.identifier = f.identifier := of_decide_eq_true hid
  rw [List.inj_on_of_nodup_map hids hg hf hsame]

theorem random_deleted (h : Agrees entries s) (hf : f ∈ s.app.localStorage.objects) {app : App}
    (hobjects : app.localStorage.objects =
      s.app.localStorage.objects.filter fun x => x.identifier ≠ f.identifier) :
    ∃ u, u = (if s.random.any (·.shows f.originIdentifier) then
        ({ s with app := app } : Screens).updateSaveButton .random false
      else { s with app := app }) ∧ Kept { s with app := app } u ∧ u.RandomRight := by
  refine ⟨_, rfl, ?_, ?_⟩
  · split
    · exact kept_updateSaveButton _ .random false
    · exact .refl _
  · have hstores := fun proverb => h.layout.offline.stores_deleted hf hobjects proverb
    cases hrandom : s.random with
    | none =>
        intro root hroot
        simp at hroot
    | some root =>
        simp only [Option.any_some]
        split
        · rename_i hshows
          intro other hother proverb hproverb
          simp only [updateSaveButton, Option.map_some, Option.mem_some_iff] at hother
          subst hother
          have hdisplayed : proverb.identifier = f.originIdentifier := by
            have hproverb' : root.currentProverb = some proverb := hproverb
            simpa [RandomRoot.shows, hproverb'] using hshows
          simp [updateSaveButton, hstores, hdisplayed]
        · rename_i hshows
          intro other hother proverb hproverb
          obtain rfl := Option.some.inj hother
          have hne : proverb.identifier ≠ f.originIdentifier := by
            simpa [RandomRoot.shows, Option.mem_def.mp hproverb] using hshows
          rw [hstores, and_iff_left hne]
          exact h.random root hrandom proverb hproverb

theorem agrees_popDetail (h : Layout entries s) (hrandom : s.RandomRight) (hrows : s.RowsRight) :
    Agrees entries s.popDetail := by
  refine ⟨⟨h.offline, h.opened, h.catalogue, h.shown, ?_, ?_, ?_⟩, ?_, ?_, ?_⟩
  · intro list hlist
    obtain ⟨other, hother, rfl⟩ := Option.map_eq_some_iff.mp hlist
    exact ⟨(h.pushed other hother).1, rfl⟩
  · intro detail hdetail
    simp [popDetail] at hdetail
  · intro detail hdetail
    simp [popDetail] at hdetail
  · exact hrandom.congr rfl rfl
  · exact detailRight_of_none rfl
  · intro list hlist
    obtain ⟨other, hother, rfl⟩ := Option.map_eq_some_iff.mp hlist
    exact hrows other hother

/-- A row with a stored favourite is not looked up by its origin. -/
theorem rowOfOrigin_stored {app : App} {rows : List Proverb}
    (hrows : rows.Perm (app.localStorage.objects.map Proverb.rFavorite))
    (originIdentifier : Option Identifier) :
    FavoritesProverbsViewController.rowOfOrigin rows originIdentifier = none := by
  cases originIdentifier with
  | none => rfl
  | some originIdentifier =>
      simp only [FavoritesProverbsViewController.rowOfOrigin]
      cases rows with
      | nil => simp
      | cons proverb rows =>
          obtain ⟨f, _, rfl⟩ := List.mem_map.mp (hrows.mem_iff.mp List.mem_cons_self)
          simp [Proverb.isRealm]

/-- The deletion of a favourite is posted: the open one is closed. -/
theorem didDelete_detail [Unicode] (h : Agrees entries s) (hsorts : SortsAll entries)
    (hf : f ∈ s.app.localStorage.objects) {app : App} (happ : App.Offline entries app)
    (hopen : app.localStorage.getAll.isSome)
    (hobjects : app.localStorage.objects =
      s.app.localStorage.objects.filter fun x => x.identifier ≠ f.identifier)
    {detail : ProverbViewController} (hdetail : s.detail = some detail)
    (hproverb : detail.proverb = .rFavorite f) (ids : ProverbIdentifiers)
    (hids : ids.originIdentifier = f.originIdentifier) :
    ∃ t, ({ s with app := app } : Screens).didDelete ids = some t ∧ Agrees entries t ∧
      t.detail = none := by
  obtain ⟨u, hu, hkept, hrandom⟩ := random_deleted h hf hobjects
  have hlayout : Layout entries u := hkept.alike.layout (h.layout.withApp happ)
  have hrelisted : ∃ v, u.favoritesDidDelete ids.originIdentifier = some v ∧ Alike u v ∧
      v.RowsRight ∧ v.random = u.random ∧ v.detail = u.detail := by
    unfold favoritesDidDelete
    cases hfavorites : u.favorites with
    | none =>
        exact ⟨u, rfl, ⟨rfl, rfl, rfl, rfl, rfl, rfl⟩, rowsRight_of_none hfavorites, rfl, rfl⟩
    | some list =>
        have hbefore : s.favorites = some list := hkept.favorites.symm.trans hfavorites
        have hcovered : list.isVisible = false := by
          rw [(h.layout.pushed list hbefore).2, hdetail]
          rfl
        have hrow := rowOfOrigin_stored (h.rows list hbefore) (some ids.originIdentifier)
        simp only [hcovered, hrow]
        refine updateData_right hlayout hsorts fun hclosed => ?_
        rw [hkept.storage] at hclosed
        exact absurd hclosed (Option.isSome_iff_ne_none.mp hopen)
  obtain ⟨v, hv, halike, hrows, hsame, hdetail'⟩ := hrelisted
  have hdisplayed : v.detail.map ProverbViewController.proverb = some (.rFavorite f) := by
    rw [hdetail', hkept.detail, hdetail, Option.map_some, hproverb]
  obtain ⟨displayed, hopened, hfavorite⟩ := Option.map_eq_some_iff.mp hdisplayed
  have hrandom' : v.RandomRight := hrandom.congr halike.storage hsame
  refine ⟨v.popDetail, ?_, agrees_popDetail (halike.layout hlayout) hrandom' hrows, rfl⟩
  simp only [didDelete, hids, ← hu]
  rw [← hids, hv]
  simp only [Option.map_some, hopened, hfavorite]

theorem agrees_delete_detail [Unicode] (h : Agrees entries s) (hsorts : SortsAll entries)
    {detail : ProverbViewController} (hdetail : s.detail = some detail)
    (hproverb : detail.proverb = .rFavorite f) (random : Identifier) (now : Date) :
    ∃ t, s.request .detail ⟨.checkAndSaveOrDeleteFavorite (.rFavorite f), random, now⟩ =
      some t ∧ Agrees entries t := by
  have hf : f ∈ s.app.localStorage.objects := (h.detail detail hdetail).2 f hproverb
  obtain ⟨app, hstep, hdeletes⟩ := App.deletes_toggle h.layout.offline hf random now
  have happ : App.Offline entries app := h.layout.offline.of_deletes hdeletes
  obtain ⟨t, ht, hagrees, hclosed⟩ := didDelete_detail h hsorts hf happ hdeletes.getAll_isSome
    hdeletes.objects hdetail hproverb ⟨some f.identifier, f.originIdentifier⟩ rfl
  refine ⟨t, ?_, hagrees⟩
  simp only [request, hstep, Option.bind_some]
  rw [hdeletes.outputs, List.drop_left]
  simp [receive, ht, checkAndUpdateAddToFavoritesButton, hclosed]

/-- The visible list leaves a deletion that is posted to its own answer. -/
theorem didDelete_list [Unicode] (h : Agrees entries s) (hdetail : s.detail = none)
    {list : FavoritesProverbsViewController} (hfavorites : s.favorites = some list)
    (hf : f ∈ s.app.localStorage.objects) {app : App}
    (hobjects : app.localStorage.objects =
      s.app.localStorage.objects.filter fun x => x.identifier ≠ f.identifier) :
    ∃ u, ({ s with app := app } : Screens).didDelete ⟨some f.identifier, f.originIdentifier⟩ =
      some u ∧ Kept { s with app := app } u ∧ u.RandomRight := by
  obtain ⟨u, hu, hkept, hrandom⟩ := random_deleted h hf hobjects
  have hvisible : list.isVisible = true := by
    rw [(h.layout.pushed list hfavorites).2, hdetail]
    rfl
  have hlist : u.favorites = some list := hkept.favorites.trans hfavorites
  have hdetail' : u.detail = none := by
    have hsame := hkept.detail
    rwa [hdetail, Option.map_none, Option.map_eq_none_iff] at hsame
  refine ⟨u, ?_, hkept, hrandom⟩
  simp only [didDelete, ← hu]
  simp only [favoritesDidDelete, hlist, hvisible, true_or, if_true,
    FavoritesProverbsViewController.didDeleteFavoriteProverbNotification, Option.map_some]
  have hsame : ({ u with favorites := some list } : Screens) = u := by rw [← hlist]
  rw [hsame]
  simp only [hdetail']

theorem agrees_request_delete [Unicode] (h : Agrees entries s) (hdetail : s.detail = none)
    {list : FavoritesProverbsViewController} (hfavorites : s.favorites = some list)
    (hf : f ∈ s.app.localStorage.objects) {index : Nat} (hlt : index < list.proverbs.length)
    (hindex : list.proverbs[index] = .rFavorite f) :
    ∃ t, s.request (.favorites (some index)) ⟨.delete (.rFavorite f), "", Date.zero⟩ = some t ∧
      Agrees entries t := by
  have htake : App.Offline entries s.app.takeRequest := h.layout.offline.of_same rfl rfl
  obtain ⟨app, hstep, hdeletes⟩ := App.deletes_rFavorite htake hf s.app.nextRequest
  have hstep' : App.step s.app ⟨.delete (.rFavorite f), "", Date.zero⟩ = some app := hstep
  have happ : App.Offline entries app := htake.of_deletes hdeletes
  simp only [request, hstep', Option.bind_some]
  obtain ⟨u, hposted, hkept, hrandom⟩ :=
    didDelete_list h hdetail hfavorites hf hdeletes.objects
  have hlist : u.favorites = some list := hkept.favorites.trans hfavorites
  have hremoved := FavoritesProverbsViewController.remove_of_lt (s := list) hlt
  generalize hlist' : ({ list with
    proverbs := list.proverbs.eraseIdx index
    removed := list.removed ++ [list.proverbs[index]] } :
      FavoritesProverbsViewController) = list' at hremoved
  have hlayout : Layout entries u := hkept.alike.layout (h.layout.withApp happ)
  refine ⟨u.relisted u.app list', ?_, ?_, ?_, ?_, ?_⟩
  · have hdrop : app.outputs.drop s.app.outputs.length =
        [.didDelete ⟨some f.identifier, f.originIdentifier⟩,
          .deleted s.app.nextRequest none] := by
      rw [hdeletes.outputs]
      exact List.drop_left
    rw [hdrop]
    simp [receive, hposted, hlist, FavoritesProverbsViewController.internalCompletion,
      hremoved, relisted]
  · refine (alike_relisted rfl rfl hlist ?_).layout hlayout
    rw [← hlist']
  · exact hrandom.congr rfl rfl
  · apply detailRight_of_none
    have hsame := hkept.detail
    rwa [hdetail, Option.map_none, Option.map_eq_none_iff] at hsame
  · intro other hother
    obtain rfl := Option.some.inj hother
    have hobjects' : u.app.localStorage.objects =
        s.app.localStorage.objects.filter fun x => x.identifier ≠ f.identifier := by
      rw [hkept.storage]
      exact hdeletes.objects
    rw [← hlist', relisted, hobjects']
    exact perm_eraseIdx hf (h.rows list hfavorites) hlt hindex

/-- A swipe deletes the favourite of its row and removes the row. -/
theorem agrees_swipeDelete [Unicode] (h : Agrees entries s) (hdetail : s.detail = none)
    (row : Nat) :
    ∃ t, s.swipeDelete row = some t ∧ Agrees entries t := by
  unfold swipeDelete
  cases hfavorites : s.favorites with
  | none => exact ⟨s, rfl, h⟩
  | some list =>
      cases hrow : list.proverbs[row]? with
      | none => exact ⟨s, by simp [hrow], h⟩
      | some proverb =>
          have hrows := h.rows list hfavorites
          obtain ⟨f, hf, rfl⟩ :=
            List.mem_map.mp (hrows.mem_iff.mp (List.mem_of_getElem? hrow))
          obtain ⟨index, hlt, hindex, hfound⟩ := deleteIndex_spec hf hrows
          simp only [hrow]
          rw [if_pos (all_readable hrows), hfound]
          exact agrees_request_delete h hdetail hfavorites hf hlt hindex

end Deletes

/-! ## Navigation -/

section Navigation

variable {entries : List CatalogueEntry} {s t : Screens}

theorem catalogueEntries_sameProverbs {catalogue catalogue' : Catalogue}
    (h : Catalogue.SameProverbs catalogue.file catalogue'.file) :
    catalogue'.catalogueEntries = catalogue.catalogueEntries := by
  obtain ⟨mark, hmark, hfile⟩ := h
  unfold Catalogue.catalogueEntries
  rw [hfile, List.map_map]
  apply List.map_congr_left
  intro proverb _
  obtain ⟨hidentifier, hsection, htext, _⟩ := hmark proverb
  simp only [Function.comp_apply, RProverb.entry, hidentifier, hsection, htext]

/-- A drawn proverb is one of the catalogue, which keeps its entries. -/
theorem getNextRandom_right (h : Layout entries s) (hne : entries ≠ []) (choice : Nat) :
    ∃ catalogue proverb, s.catalogue.getNextRandom choice false false = some (catalogue, proverb) ∧
      catalogue.opened = true ∧ catalogue.catalogueEntries = entries ∧
      proverb.entry ∈ entries := by
  have hsome : (s.catalogue.getNextRandom choice false false).isSome := by
    rw [Catalogue.getNextRandom_isSome h.opened]
    right
    refine ⟨rfl, fun hnil => hne ?_⟩
    rw [← h.catalogue, Catalogue.catalogueEntries, hnil, List.map_nil]
  obtain ⟨⟨catalogue, proverb⟩, hdrawn⟩ := Option.isSome_iff_exists.mp hsome
  obtain ⟨_, hopened, hsame⟩ := Catalogue.getNextRandom_spec hdrawn
  refine ⟨catalogue, proverb, hdrawn, hopened.trans h.opened, ?_, ?_⟩
  · exact (catalogueEntries_sameProverbs hsame).trans h.catalogue
  · have hrefilled : s.catalogue.refilled.catalogueEntries = entries := by
      rw [← h.catalogue]
      unfold Catalogue.refilled
      split
      · exact catalogueEntries_sameProverbs (Catalogue.sameProverbs_markAllAsUnviewed false)
      · rfl
    rw [Catalogue.getNextRandom_eq] at hdrawn
    obtain ⟨drawn, hget, heq⟩ := Option.map_eq_some_iff.mp hdrawn
    obtain rfl : drawn = proverb := congrArg Prod.snd heq
    have hmem := List.mem_of_getElem? hget
    rw [Catalogue.getAllUnviewed_eq (Catalogue.opened_refilled.trans h.opened)] at hmem
    rw [← hrefilled]
    exact List.mem_map_of_mem (List.mem_of_mem_filter hmem)

theorem agrees_showNextProverb (h : Layout entries s) (hne : entries ≠ [])
    (hfavorites : s.favorites = none) (hdetail : s.detail = none) (choice : Nat) :
    ∃ t, s.showNextProverb choice = some t ∧ Agrees entries t := by
  obtain ⟨catalogue, proverb, hdrawn, hopened, hentries, hentry⟩ :=
    getNextRandom_right h hne choice
  simp only [showNextProverb, hdrawn, Option.bind_some]
  refine agrees_check_random ⟨h.offline, hopened, hentries, ?_, ?_, ?_, ?_⟩
    (detailRight_of_none hdetail) (rowsRight_of_none hfavorites)
  · intro root hroot displayed hdisplayed
    obtain ⟨other, _, rfl⟩ := Option.map_eq_some_iff.mp hroot
    obtain rfl := Option.some.inj hdisplayed
    exact hentry
  · intro list hlist
    simp [hfavorites] at hlist
  · intro detail hmem
    simp [hdetail] at hmem
  · intro detail hmem
    simp [hdetail] at hmem

theorem agrees_leftbuttonPushed (h : Agrees entries s) :
    ∃ t, s.leftbuttonPushed = some t ∧ Agrees entries t := by
  unfold leftbuttonPushed
  split
  · exact ⟨_, rfl, agrees_popDetail h.layout h.random h.rows⟩
  · rename_i hdetail
    have hnone : s.detail = none := by simpa using hdetail
    split
    · refine agrees_check_random ⟨h.layout.offline, h.layout.opened, h.layout.catalogue,
        h.layout.shown, ?_, h.layout.ofCatalogue, h.layout.notRemote⟩
        (detailRight_of_none hnone) (rowsRight_of_none rfl)
      intro list hlist
      simp at hlist
    · exact ⟨s, rfl, h⟩

theorem agrees_openFavorite (h : Agrees entries s) {f : RFavoriteProverb}
    (hf : f ∈ s.app.localStorage.objects) :
    ∃ t, s.openDetail (.rFavorite f) = some t ∧ Agrees entries t := by
  have hreadable : s.app.readable (.rFavorite f) = true := LocalStorage.isValid_of_mem hf
  simp only [openDetail]
  rw [if_pos hreadable]
  refine ⟨_, rfl, ⟨h.layout.offline, h.layout.opened, h.layout.catalogue, h.layout.shown, ?_, ?_,
    ?_⟩, ?_, ?_, ?_⟩
  · intro list hlist
    obtain ⟨other, hother, rfl⟩ := Option.map_eq_some_iff.mp hlist
    exact ⟨(h.layout.pushed other hother).1, rfl⟩
  · intro detail hdetail proverb hproverb
    obtain rfl := Option.some.inj hdetail
    simp at hproverb
  · intro detail hdetail
    obtain rfl := Option.some.inj hdetail
    simp
  · exact h.random.congr rfl rfl
  · intro detail hdetail
    obtain rfl := Option.some.inj hdetail
    refine ⟨iff_of_true rfl hf, fun g hg => ?_⟩
    obtain rfl := Proverb.rFavorite.inj hg
    exact hf
  · intro list hlist
    obtain ⟨other, hother, rfl⟩ := Option.map_eq_some_iff.mp hlist
    exact h.rows other hother

theorem agrees_openProverb (h : Agrees entries s) (hrandom : s.random = none)
    {proverb : RProverb} (hentry : proverb.entry ∈ entries) :
    ∃ t, s.openDetail (.rProverb proverb) = some t ∧ Agrees entries t := by
  have hfavorites := h.layout.favorites_none hrandom
  have hreadable : s.app.readable (.rProverb proverb) = true := rfl
  simp only [openDetail]
  rw [if_pos hreadable]
  refine agrees_check_detail ⟨h.layout.offline, h.layout.opened, h.layout.catalogue,
    h.layout.shown, ?_, ?_, ?_⟩ ?_ ?_ ?_
  · intro list hlist
    simp [hfavorites] at hlist
  · intro detail hdetail other hother
    obtain rfl := Option.some.inj hdetail
    obtain rfl := Proverb.rProverb.inj hother
    exact ⟨hrandom, hentry⟩
  · intro detail hdetail
    obtain rfl := Option.some.inj hdetail
    simp
  · intro detail hdetail
    obtain rfl := Option.some.inj hdetail
    exact ⟨proverb, rfl⟩
  · exact h.random.congr rfl rfl
  · apply rowsRight_of_none
    simp [hfavorites]

end Navigation

/-! ## Runs -/

section Runs

variable {entries : List CatalogueEntry} {s t : Screens}

theorem offline_setPurchased {app : App} (h : App.Offline entries app) (newValue : Bool) :
    App.Offline entries (app.setPurchased newValue) := by
  have hsignedOut := h.signedOut
  cases newValue with
  | false => exact ⟨h.signedOut, h.isLocal, h.commits, h.alive, h.unique, h.carries⟩
  | true =>
      refine ⟨h.signedOut, ?_, h.commits, h.alive, h.unique, h.carries⟩
      simp [App.setPurchased, App.userDidPurchase, App.updateCurrentPlan, App.isLocalStorage,
        App.isSignedIn, hsignedOut]

theorem offline_completeTransactions (purchases : List TransactionState) {app : App}
    (h : App.Offline entries app) : App.Offline entries (app.completeTransactions purchases) := by
  induction purchases generalizing app with
  | nil => exact h
  | cons transaction purchases ih =>
      have hone : App.Offline entries (app.completeTransaction transaction) := by
        rw [App.completeTransaction_of_writes]
        split
        · exact offline_setPurchased h _
        · exact h
      exact ih hone

theorem agrees_managerStep (h : Agrees entries s) {event : Event} {app : App}
    (hstep : App.step s.app ⟨event, "", Date.zero⟩ = some app) (happ : App.Offline entries app)
    (hobjects : app.localStorage.objects = s.app.localStorage.objects) :
    ∃ t, s.managerStep event = some t ∧ Agrees entries t := by
  have hstores := App.stores_of_objects hobjects
  refine ⟨{ s with app := app }, by simp [managerStep, hstep], h.layout.withApp happ, ?_, ?_, ?_⟩
  · intro root hroot proverb hproverb
    rw [hstores]
    exact h.random root hroot proverb hproverb
  · intro detail hdetail
    rw [hstores]
    obtain ⟨hbutton, hstored⟩ := h.detail detail hdetail
    exact ⟨hbutton, fun f hf => (hstores _).mpr (hstored f hf)⟩
  · intro list hlist
    rw [hobjects]
    exact h.rows list hlist

/-- An identifier drawn for a favourite is not one of those stored. -/
def FreshIdentifier (s : Screens) : ScreensEvent → Prop
  | .saveButtonPushed random _ | .saveDeleteButtonPushed random _ =>
      ∀ f ∈ s.app.localStorage.objects, f.identifier ≠ random
  | _ => True

theorem showsRandom_iff :
    s.showsRandom = true ↔ s.random.isSome ∧ s.favorites = none ∧ s.detail = none := by
  simp [showsRandom, and_assoc]

theorem showsFavorites_iff :
    s.showsFavorites = true ↔ s.favorites.isSome ∧ s.detail = none := by
  simp [showsFavorites]

/-- With no list and no proverb opened only the random screen can show something. -/
theorem layout_of_closed (hoffline : App.Offline entries s.app)
    (hopened : s.catalogue.opened = true) (hcatalogue : s.catalogue.catalogueEntries = entries)
    (hblank : ∀ root ∈ s.random, root.currentProverb = none) (hfavorites : s.favorites = none)
    (hdetail : s.detail = none) : Layout entries s := by
  refine ⟨hoffline, hopened, hcatalogue, ?_, ?_, ?_, ?_⟩
  · intro root hroot proverb hproverb
    simp [hblank root hroot] at hproverb
  · intro list hlist
    simp [hfavorites] at hlist
  · intro detail hmem
    simp [hdetail] at hmem
  · intro detail hmem
    simp [hdetail] at hmem

theorem agrees_of_closed (hoffline : App.Offline entries s.app)
    (hopened : s.catalogue.opened = true) (hcatalogue : s.catalogue.catalogueEntries = entries)
    (hrandom : s.random = none) (hfavorites : s.favorites = none) (hdetail : s.detail = none) :
    Agrees entries s := by
  refine ⟨layout_of_closed hoffline hopened hcatalogue ?_ hfavorites hdetail, ?_,
    detailRight_of_none hdetail, rowsRight_of_none hfavorites⟩
  · intro root hroot
    simp [hrandom] at hroot
  · intro root hroot
    simp [hrandom] at hroot

/-- The random screen draws its first proverb when it is embedded. -/
theorem agrees_embedRandom [Unicode] (hne : entries ≠ []) (h : Agrees entries s) (choice : Nat) :
    ∃ t, s.step (.embedRandom choice) = some t ∧ Agrees entries t := by
  let embedded : Screens :=
    { s with random := some ⟨none, false⟩, favorites := none, detail := none }
  have hlayout : Layout entries embedded := by
    refine layout_of_closed h.layout.offline h.layout.opened h.layout.catalogue ?_ rfl rfl
    intro root hroot
    obtain rfl := Option.some.inj hroot
    rfl
  exact agrees_showNextProverb hlayout hne rfl rfl choice

theorem agrees_saveButtonPushed [Unicode] (h : Agrees entries s) {random : String}
    (hfresh : ∀ f ∈ s.app.localStorage.objects, f.identifier ≠ random) (now : Date) :
    ∃ t, s.step (.saveButtonPushed random now) = some t ∧ Agrees entries t := by
  simp only [step]
  cases hshown : s.random.bind RandomRoot.currentProverb with
  | none => exact ⟨s, rfl, h⟩
  | some proverb =>
      simp only
      split
      · rename_i hshows
        obtain ⟨_, hfavorites, hdetail⟩ := showsRandom_iff.mp hshows
        obtain ⟨root, hroot, hproverb⟩ := Option.bind_eq_some_iff.mp hshown
        have hentry := h.layout.shown root hroot proverb hproverb
        exact agrees_toggle_random h.layout hfavorites hdetail hentry hfresh now
      · exact ⟨s, rfl, h⟩

theorem agrees_didSelectFavorite [Unicode] (h : Agrees entries s) (row : Nat) :
    ∃ t, s.step (.didSelectFavorite row) = some t ∧ Agrees entries t := by
  simp only [step]
  cases hrow : s.favorites.bind fun list => list.proverbs[row]? with
  | none => exact ⟨s, rfl, h⟩
  | some proverb =>
      simp only
      split
      · obtain ⟨list, hlist, hproverb⟩ := Option.bind_eq_some_iff.mp hrow
        have hmem := (h.rows list hlist).mem_iff.mp (List.mem_of_getElem? hproverb)
        obtain ⟨f, hf, rfl⟩ := List.mem_map.mp hmem
        exact agrees_openFavorite h hf
      · exact ⟨s, rfl, h⟩

theorem agrees_didSelectProverb [Unicode] (h : Agrees entries s) (proverb : RProverb) :
    ∃ t, s.step (.didSelectProverb proverb) = some t ∧ Agrees entries t := by
  simp only [step]
  split
  · rename_i hlisted
    obtain ⟨hrandom, _, hmem⟩ := hlisted
    have hnone : s.random = none := by simpa using hrandom
    have hentry : proverb.entry ∈ entries := by
      rw [← h.layout.catalogue]
      apply List.mem_map_of_mem
      simpa [ProverbsStorage.getAll, LocalStorage.realmFindAll, Catalogue.proverbsStorage,
        h.layout.opened] using hmem
    exact agrees_openProverb h hnone hentry
  · exact ⟨s, rfl, h⟩

/-- The button on an open proverb saves one of the catalogue and deletes a favourite. -/
theorem agrees_saveDeleteButtonPushed [Unicode] (hsorts : SortsAll entries) (h : Agrees entries s)
    {random : String} (hfresh : ∀ f ∈ s.app.localStorage.objects, f.identifier ≠ random)
    (now : Date) :
    ∃ t, s.step (.saveDeleteButtonPushed random now) = some t ∧ Agrees entries t := by
  simp only [step]
  cases hdetail : s.detail with
  | none => exact ⟨s, rfl, h⟩
  | some detail =>
      cases hproverb : detail.proverb with
      | rProverb proverb =>
          simp only [hproverb]
          exact agrees_toggle_detail h.layout hdetail hproverb hfresh now
      | rFavorite f =>
          simp only [hproverb]
          exact agrees_delete_detail h hsorts hdetail hproverb random now
      | fFavorite f => exact absurd hproverb (h.layout.notRemote detail hdetail f)

theorem agrees_restoreCompleted [Unicode] (h : Agrees entries s) (results : RestoreResults) :
    ∃ t, s.step (.restoreCompleted results) = some t ∧ Agrees entries t := by
  simp only [step]
  by_cases hnone : results.restoredPurchases ≤ 0
  · have hrestored : s.app.restoreCompleted results =
        (s.app.setPurchased false).output (.restored false) := if_pos hnone
    refine agrees_managerStep h (congrArg some hrestored) ?_ rfl
    exact (offline_setPurchased h.layout.offline false).of_same rfl rfl
  · have hrestored : s.app.restoreCompleted results =
        (s.app.setPurchased true).output (.restored true) := if_neg hnone
    refine agrees_managerStep h (congrArg some hrestored) ?_ rfl
    exact (offline_setPurchased h.layout.offline true).of_same rfl rfl

/-- Every event is handled to its end and leaves the screens in agreement. -/
theorem agrees_step [Unicode] (hsorts : SortsAll entries) (hne : entries ≠ [])
    (h : Agrees entries s) {event : ScreensEvent} (hfresh : FreshIdentifier s event) :
    ∃ t, s.step event = some t ∧ Agrees entries t := by
  cases event with
  | embedRandom choice => exact agrees_embedRandom hne h choice
  | embedOther =>
      exact ⟨_, rfl, agrees_of_closed h.layout.offline h.layout.opened h.layout.catalogue
        rfl rfl rfl⟩
  | nextButtonPushed choice =>
      simp only [step]
      split
      · rename_i hshows
        obtain ⟨_, hfavorites, hdetail⟩ := showsRandom_iff.mp hshows
        exact agrees_showNextProverb h.layout hne hfavorites hdetail choice
      · exact ⟨s, rfl, h⟩
  | saveButtonPushed random now => exact agrees_saveButtonPushed h hfresh now
  | rightbuttonPushed =>
      simp only [step]
      split
      · rename_i hshows
        obtain ⟨hrandom, _, hdetail⟩ := showsRandom_iff.mp hshows
        exact agrees_openFavorites h hsorts hrandom hdetail
      · exact ⟨s, rfl, h⟩
  | leftbuttonPushed => exact agrees_leftbuttonPushed h
  | sort option =>
      simp only [step]
      split
      · exact agrees_setCurrentSortOption h hsorts option
      · exact ⟨s, rfl, h⟩
  | reload =>
      simp only [step]
      split
      · exact agrees_updateData h hsorts
      · exact ⟨s, rfl, h⟩
  | swipeDelete row =>
      simp only [step]
      split
      · rename_i hshows
        exact agrees_swipeDelete h (showsFavorites_iff.mp hshows).2 row
      · exact ⟨s, rfl, h⟩
  | didSelectFavorite row => exact agrees_didSelectFavorite h row
  | didSelectProverb proverb => exact agrees_didSelectProverb h proverb
  | saveDeleteButtonPushed random now => exact agrees_saveDeleteButtonPushed hsorts h hfresh now
  | purchaseCompleted success =>
      have hpurchase := offline_setPurchased h.layout.offline success
      refine agrees_managerStep h rfl (hpurchase.of_same ?_ ?_) ?_
      all_goals cases success <;> rfl
  | restoreCompleted results => exact agrees_restoreCompleted h results
  | completeTransactions purchases =>
      refine agrees_managerStep h rfl (offline_completeTransactions purchases h.layout.offline) ?_
      rw [App.localStorage_completeTransactions]

def launched (app : App) (catalogue : Catalogue) : Screens := ⟨app, catalogue, none, none, none⟩

/-- In every run of the screens while nobody is signed in: no event traps or raises, the
buttons show what is stored, the list of favourites has the stored ones as its rows, and an
open favourite is stored. -/
theorem screens_agree [Unicode] {app : App} {catalogue : Catalogue}
    (hopened : catalogue.opened = true) (hne : catalogue.catalogueEntries ≠ [])
    (hsorts : SortsAll catalogue.catalogueEntries)
    (hoffline : App.Offline catalogue.catalogueEntries app) {events : List ScreensEvent}
    (hfresh : Transition.Along step FreshIdentifier (launched app catalogue) events) :
    ∃ t, Transition.run step (launched app catalogue) events = some t ∧ t.app.Live ∧
      t.RandomRight ∧ t.DetailRight ∧ t.RowsRight := by
  have hstart : Agrees catalogue.catalogueEntries (launched app catalogue) :=
    agrees_of_closed hoffline hopened rfl rfl rfl rfl
  have hends : Transition.Along step (fun s event => ∃ t, step s event = some t)
      (launched app catalogue) events := by
    refine Transition.along_of_invariant (I := Agrees catalogue.catalogueEntries) ?_ ?_ hstart
      hfresh
    · intro s event s' h hguard hs
      obtain ⟨t, ht, hagrees⟩ := agrees_step hsorts hne h hguard
      exact Option.some.inj (hs.symm.trans ht) ▸ hagrees
    · intro s event h hguard
      obtain ⟨t, ht, _⟩ := agrees_step hsorts hne h hguard
      exact ⟨t, ht⟩
  obtain ⟨t, ht⟩ := Transition.exists_run_of_along hends
  have hagrees : Agrees catalogue.catalogueEntries t := by
    refine Transition.run_invariant ?_ hstart hfresh ht
    intro s event s' h hguard hs
    obtain ⟨t, ht, hagrees⟩ := agrees_step hsorts hne h hguard
    exact Option.some.inj (hs.symm.trans ht) ▸ hagrees
  exact ⟨t, ht, hagrees.layout.offline.live, hagrees.random, hagrees.detail, hagrees.rows⟩

def oneProverb : Catalogue where
  isInitialPopulated := true
  file := KeyedStore.putAll [⟨"7", 0, "text", "", "T", false⟩] KeyedStore.empty
  opened := true

end Runs

section OneProverb

attribute [local instance] Unicode.acute

/-- The proverb is saved, the favourites are opened and it is swiped away again. -/
theorem screens_agree_save_swipe :
    ∃ t, Transition.run step (launched App.installed oneProverb)
        [.embedRandom 0, .saveButtonPushed "1" 5, .rightbuttonPushed, .swipeDelete 0] = some t ∧
      t.app.Live ∧ t.RandomRight ∧ t.DetailRight ∧ t.RowsRight := by
  have hoffline : App.Offline oneProverb.catalogueEntries App.installed :=
    ⟨rfl, rfl, rfl, rfl, by decide, by decide⟩
  refine screens_agree rfl (by decide) ⟨by decide, by decide⟩ hoffline ?_
  refine ⟨trivial, fun s₁ h₁ => ?_⟩
  obtain rfl := Option.some.inj h₁
  refine ⟨fun f hf => ?_, fun _ _ => ⟨trivial, fun _ _ => ⟨trivial, fun _ _ => trivial⟩⟩⟩
  have hempty : f ∈ ([] : List RFavoriteProverb) := hf
  simp at hempty

end OneProverb

end Screens

end Proverbs
