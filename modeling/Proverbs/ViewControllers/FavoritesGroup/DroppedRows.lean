import Proverbs.Managers.Calculus
import Proverbs.Managers.StorageReports
import Proverbs.ViewControllers.FavoritesGroup.FavoritesProverbsViewController

/-! # Rows that are dropped

A delete from the favourites screen, followed to its answer with nothing in between. The
screen sorts the answers into success and failure: `FavoriteProverbsManagerError.undefined`
is a failure, every other error counts as "not a favourite any more". Whether the dropped
row's favourite is gone then depends on what had failed.
-/

namespace Proverbs

/-! ## What is stored -/

namespace LocalStorage

variable {α : Type} [RealmObject α] {s s' : LocalStorage α} {accessor : Accessor α}

/-- After a successful delete nothing is stored under the object's key. -/
theorem gone_of_delete (h : s.delete accessor = some (s', true)) :
    ∀ x ∈ s'.objects,
      RealmObject.primaryKey x ≠ RealmObject.primaryKey accessor.object := by
  cases hrealm : s.realm with
  | some realm =>
      have hopen : s.realm.isSome := by rw [hrealm]; rfl
      exact (delete_done hopen h).2.2
  | none =>
      have hsame : s.delete accessor = some (s, true) := by
        simp [delete, realmDelete, realmWrite, hrealm]
      rw [hsame, Option.some.injEq, Prod.mk.injEq] at h
      rw [← h.1, objects_of_realm_none hrealm]
      intro x hx
      exact absurd hx List.not_mem_nil

end LocalStorage

namespace App

/-- Whose favourites the remote storage holds, also when their document is missing. -/
def activeUser (s : App) : Option UserIdentifier :=
  match s.remoteStorage with
  | some remoteStorage => some (remoteStorage.userDocument.getD remoteStorage.currentUserIdentifier)
  | none => s.currentUser

/-- The active storage holds the favourite shown in a row: a favourite with this
identifier or, for a row of the catalogue, one of this proverb. -/
def Stores (s : App) (proverb : Proverb) : Prop :=
  if s.isLocalStorage then
    match proverb with
    | .rProverb rProverb =>
        ∃ f ∈ s.localStorage.objects, f.originIdentifier = rProverb.identifier
    | _ => ∃ f ∈ s.localStorage.objects, f.identifier = proverb.identifier
  else
    ∃ user, s.activeUser = some user ∧
      match proverb with
      | .rProverb rProverb => ∃ document ∈ s.firestore.favorites user,
          document.data.originIdentifier = some rProverb.identifier
      | _ => ∃ document ∈ s.firestore.favorites user, document.documentID = proverb.identifier

end App

namespace FavoritesProverbsViewController

def rowOf (s : FavoritesProverbsViewController) (proverb : Proverb) : Option Nat :=
  s.proverbs.findIdx? fun value => value.identifier = proverb.identifier

/-- What `deleteFromFavorites` reports for an answer of the manager. -/
def deletedResult : Option AppError → Bool
  | none => true
  | some error => checkFavoriteManagerError error

/-- A delete of this row that is reported as a success and drops the row has removed the
favourite from the active storage. -/
def DropsOnlyGone (screen : FavoritesProverbsViewController) (s : App) (proverb : Proverb)
    (request : Nat) (outcome : Operation → Outcome) (random : Identifier) (now : Date) : Prop :=
  ∀ s', (s.delete proverb request).bind
      (App.settle outcome random now s.calls.length 2) = some s' →
    ∀ error, .deleted request error ∈ s.putOut s' →
      ∀ screen', screen.internalCompletion (screen.rowOf proverb) (deletedResult error) =
          some screen' →
        deletedResult error = true → screen'.proverbs ≠ screen.proverbs → ¬ s'.Stores proverb

def Told (s : App) (proverb : Proverb) (request : Nat) (outcome : Operation → Outcome)
    (random : Identifier) (now : Date) : Prop :=
  ∀ s', (s.delete proverb request).bind
      (App.settle outcome random now s.calls.length 2) = some s' →
    ∀ error, .deleted request error ∈ s.putOut s' → deletedResult error = true →
      ¬ s'.Stores proverb

/-! ## The condition -/

/-- In local mode: a local favourite may be deleted, or the write is not committed; of a row of
the catalogue there may be one favourite only; a remote favourite is never looked for. -/
def LocalDeleteGuarded (s : App) : Proverb → Prop
  | .rFavorite _ => True
  | .rProverb rProverb => s.localStorage.writes ≠ .commit ∨
      ∀ f ∈ s.localStorage.objects, ∀ g ∈ s.localStorage.objects,
        f.originIdentifier = rProverb.identifier → g.originIdentifier = rProverb.identifier →
          f = g
  | .fFavorite _ => False

/-- In remote mode: without a manager only a local favourite is answered wrongly; with one
the user document must be there and every call must succeed, and a row of the catalogue may
have one document only, stored under the identifier it is decoded to. A local favourite
that has left the Realm traps before anything is asked, and nothing is told of an identifier
that is no document's. -/
def RemoteDeleteGuarded (s : App) (outcome : Operation → Outcome) (proverb : Proverb) : Prop :=
  match proverb, s.remoteStorage with
  | .rFavorite rFavorite, _ => s.localStorage.isValid rFavorite = false
  | .rProverb _, none => True
  | .fFavorite _, none => True
  | .fFavorite fFavorite, some remoteStorage =>
      ∃ user, remoteStorage.userDocument = some user ∧
        (isDocumentPath fFavorite.identifier = true →
          outcome (.deleteDocument user fFavorite.identifier) ≠ .error)
  | .rProverb rProverb, some remoteStorage =>
      ∃ user, remoteStorage.userDocument = some user ∧
        outcome (.whereOriginIdentifier user rProverb.identifier) = .success ∧
        ∃ identifier,
          ((s.firestore.favorites user).whereOriginIdentifier rProverb.identifier).head?.map
            (·.favorite.identifier) = some identifier ∧
          (isDocumentPath identifier = true →
            outcome (.deleteDocument user identifier) ≠ .error ∧
              ∀ document ∈ s.firestore.favorites user,
                document.data.originIdentifier = some rProverb.identifier →
                  document.documentID = identifier)

def DeleteIsTold (s : App) (outcome : Operation → Outcome) (proverb : Proverb) : Prop :=
  ¬ s.Stores proverb ∨
    if s.isLocalStorage then LocalDeleteGuarded s proverb
    else RemoteDeleteGuarded s outcome proverb

/-! ## The screen's part -/

section Screen

variable {screen : FavoritesProverbsViewController} {proverb : Proverb}

theorem internalCompletion_row (hrow : proverb ∈ screen.proverbs) :
    ∃ screen', screen.internalCompletion (screen.rowOf proverb) true = some screen' ∧
      screen'.proverbs ≠ screen.proverbs := by
  obtain ⟨index, hindex⟩ : ∃ index, screen.rowOf proverb = some index := by
    apply Option.isSome_iff_exists.mp
    rw [rowOf, List.findIdx?_isSome, List.any_eq_true]
    exact ⟨proverb, hrow, by simp⟩
  have hlt : index < screen.proverbs.length :=
    (List.findIdx?_eq_some_iff_getElem.mp hindex).1
  refine ⟨{ screen with
    proverbs := screen.proverbs.eraseIdx index
    removed := screen.removed ++ [screen.proverbs[index]] }, ?_, fun hsame => ?_⟩
  · rw [hindex]
    simp only [internalCompletion, if_true, remove, List.getElem?_eq_getElem hlt]
  · have hlength := congrArg List.length hsame
    simp only [List.length_eraseIdx, if_pos hlt] at hlength
    omega

theorem handle_deleted [Unicode] (hvisible : screen.isVisible = true)
    (error : Option AppError) (answer : Option GetAllResult) :
    (screen.deleteFromFavorites proverb).handle
        (.deleted screen.deletes.length error answer) =
      screen.internalCompletion (screen.rowOf proverb) (deletedResult error) := by
  let delete : PendingDelete := ⟨proverb, screen.rowOf proverb⟩
  have hsent : screen.deleteFromFavorites proverb =
      { screen with deletes := screen.deletes ++ [delete] } := rfl
  have hget : (screen.deletes ++ [delete])[screen.deletes.length]? = some delete := by simp
  have herase : (screen.deletes ++ [delete]).eraseIdx screen.deletes.length =
      screen.deletes := by
    simp [List.eraseIdx_append_of_length_le]
  rw [hsent]
  simp only [handle, hget, herase]
  show screen.deleteCompleted delete error answer = _
  cases error with
  | none => simp [deleteCompleted, didDeleteFavoriteProverbNotification, hvisible, deletedResult,
      delete]
  | some error => rfl

variable {s : App} {request : Nat} {outcome : Operation → Outcome} {random : Identifier}
  {now : Date}

theorem dropsOnlyGone_iff (hrow : proverb ∈ screen.proverbs) :
    screen.DropsOnlyGone s proverb request outcome random now ↔
      Told s proverb request outcome random now := by
  constructor
  · intro hdrops s' hrun error herror hresult
    obtain ⟨screen', hcompletion, hdropped⟩ := internalCompletion_row hrow
    exact hdrops s' hrun error herror screen' (hresult.symm ▸ hcompletion) hresult hdropped
  · intro htold s' hrun error herror _ _ hresult _
    exact htold s' hrun error herror hresult

end Screen

/-! ## What is answered -/

section Answers

variable {s t : App} {proverb : Proverb} {request : Nat} {outcome : Operation → Outcome}
  {random : Identifier} {now : Date}

theorem told_of_answer {ids : ProverbIdentifiers} {error : Option AppError}
    (hrun : (s.delete proverb request).bind (App.settle outcome random now s.calls.length 2) =
      some (t.deleteCompleted request ids error)) (houtputs : t.outputs = s.outputs) :
    Told s proverb request outcome random now ↔
      (deletedResult error = true → ¬ t.Stores proverb) := by
  have hstores : (t.deleteCompleted request ids error).Stores proverb ↔ t.Stores proverb := by
    cases error <;> exact Iff.rfl
  have hput : ∀ other, .deleted request other ∈ s.putOut (t.deleteCompleted request ids error) ↔
      other = error := by
    intro other
    cases error <;> simp [App.putOut, App.deleteCompleted, App.output, houtputs]
  constructor
  · intro htold hresult
    exact hstores.not.mp (htold _ hrun error ((hput error).mpr rfl) hresult)
  · intro hanswer s' hs' other hother hresult
    obtain rfl := Option.some.inj (hrun.symm.trans hs')
    obtain rfl := (hput other).mp hother
    exact hstores.not.mpr (hanswer hresult)

theorem told_of_trap (h : s.delete proverb request = none) :
    Told s proverb request outcome random now := by
  intro s' hrun
  simp [h] at hrun

/-- A request that is dropped, or ends the process, is not answered. -/
theorem told_of_silence
    (hrun : (s.delete proverb request).bind (App.settle outcome random now s.calls.length 2) =
      some t) (houtputs : t.outputs = s.outputs) : Told s proverb request outcome random now := by
  intro s' hs' error herror
  obtain rfl := Option.some.inj (hrun.symm.trans hs')
  simp [App.putOut, houtputs] at herror

theorem told_of_immediate_answer {ids : ProverbIdentifiers} {error : Option AppError}
    (h : s.delete proverb request = some (t.deleteCompleted request ids error))
    (hcalls : t.calls = s.calls) (houtputs : t.outputs = s.outputs) :
    Told s proverb request outcome random now ↔
      (deletedResult error = true → ¬ t.Stores proverb) := by
  have hsettled : (t.deleteCompleted request ids error).calls.length ≤ s.calls.length := by
    cases error <;> simp [App.deleteCompleted, App.output, hcalls]
  have hrun : (s.delete proverb request).bind
      (App.settle outcome random now s.calls.length 2) =
        some (t.deleteCompleted request ids error) := by
    rw [h, Option.bind_some, App.settle_of_settled 2 hsettled]
  exact told_of_answer hrun houtputs

end Answers

/-! ## Local mode -/

section Local

variable {s t : App} {proverb : Proverb} {request : Nat} {outcome : Operation → Outcome}
  {random : Identifier} {now : Date}

theorem told_of_local (hlocal : s.isLocalStorage = true) (hreadable : s.readable proverb = true)
    {error : Option AppError} (h : s.checkAndDeleteLocal proverb = some (t, error))
    (hcalls : t.calls = s.calls) (houtputs : t.outputs = s.outputs) :
    Told s proverb request outcome random now ↔
      (deletedResult error = true → ¬ t.Stores proverb) := by
  have hdelete : s.delete proverb request =
      some (t.deleteCompleted request (App.identifiers proverb) error) := by
    simp only [App.delete, hreadable, if_true, hlocal, h, Option.map_some]
  exact told_of_immediate_answer hdelete hcalls houtputs

theorem deleteLocal_of_delete {f : RFavoriteProverb}
    {localStorage : LocalStorage RFavoriteProverb} {done : Bool}
    (h : s.localStorage.delete ⟨f, true⟩ = some (localStorage, done)) :
    s.deleteLocal f = some ({ s with localStorage := localStorage },
      if done then none else some (.manager .undefined)) := by
  simp [App.deleteLocal, h]

theorem told_local_rFavorite (hlocal : s.isLocalStorage = true) (f : RFavoriteProverb) :
    Told s (.rFavorite f) request outcome random now := by
  by_cases hreadable : s.readable (.rFavorite f) = true
  · obtain ⟨⟨localStorage, done⟩, hstorage⟩ : ∃ deleted,
        s.localStorage.delete ⟨f, true⟩ = some deleted :=
      ⟨_, LocalStorage.delete_of_hasRealm s.localStorage f⟩
    have hchecked : s.checkAndDeleteLocal (.rFavorite f) = _ := deleteLocal_of_delete hstorage
    apply (told_of_local hlocal hreadable hchecked rfl rfl).mpr
    cases done with
    | false => simp [deletedResult, checkFavoriteManagerError]
    | true =>
        rintro - hstores
        have hlocal' : ({ s with localStorage := localStorage } : App).isLocalStorage = true :=
          hlocal
        simp only [App.Stores, hlocal', if_true] at hstores
        obtain ⟨g, hg, hidentifier⟩ := hstores
        exact LocalStorage.gone_of_delete hstorage g hg hidentifier
  · exact told_of_trap (by simp [App.delete, hreadable])

theorem told_local_rProverb_iff (hlocal : s.isLocalStorage = true) (p : RProverb) :
    Told s (.rProverb p) request outcome random now ↔
      (¬ s.Stores (.rProverb p) ∨ LocalDeleteGuarded s (.rProverb p)) := by
  have hstores : s.Stores (.rProverb p) ↔
      ∃ f ∈ s.localStorage.objects, f.originIdentifier = p.identifier := by
    simp only [App.Stores, hlocal, if_true]
  cases hget : s.localStorage.get RFavoriteProverb.originIdentifier p.identifier with
  | none =>
      have hnone : ¬ s.Stores (.rProverb p) := by
        rw [hstores, ← LocalStorage.get_isSome, hget]
        decide
      have hchecked : s.checkAndDeleteLocal (.rProverb p) =
          some (s, some (.manager .isNotFavorite)) := by
        simp [App.checkAndDeleteLocal, hget]
      have hreadable : s.readable (.rProverb p) = true := rfl
      exact iff_of_true ((told_of_local hlocal hreadable hchecked rfl rfl).mpr fun _ => hnone)
        (Or.inl hnone)
  | some f =>
      obtain ⟨hf, horigin⟩ := LocalStorage.get_eq_some hget
      have hchecked : s.checkAndDeleteLocal (.rProverb p) = s.deleteLocal f := by
        simp [App.checkAndDeleteLocal, hget]
      have hreadable : s.readable (.rProverb p) = true := rfl
      have hopen : s.localStorage.realm.isSome := LocalStorage.realm_isSome_of_mem hf
      rw [or_iff_right (not_not.mpr (hstores.mpr ⟨f, hf, horigin⟩)), LocalDeleteGuarded]
      by_cases hcommits : s.localStorage.writes = .commit
      · obtain ⟨localStorage, hdone, _, hobjects⟩ :=
          LocalStorage.delete_of_available ⟨hopen, hcommits⟩ f
        rw [told_of_local hlocal hreadable (hchecked.trans (deleteLocal_of_delete hdone)) rfl rfl]
        have hlocal' : ({ s with localStorage := localStorage } : App).isLocalStorage = true :=
          hlocal
        simp only [App.Stores, hlocal', if_true, hobjects, List.mem_filter, decide_eq_true_eq,
          deletedResult, true_implies, hcommits, ne_eq, not_true_eq_false, false_or]
        constructor
        · intro hgone g hg h hh hgorigin hhorigin
          have hsame : ∀ g ∈ s.localStorage.objects, g.originIdentifier = p.identifier →
              g = f := by
            intro g hg hgorigin
            by_contra hne
            refine hgone ⟨g, ⟨hg, fun hkey => hne ?_⟩, hgorigin⟩
            exact List.inj_on_of_nodup_map s.localStorage.objects_nodup hg hf hkey
          rw [hsame g hg hgorigin, hsame h hh hhorigin]
        · rintro hone ⟨g, ⟨hg, hkey⟩, hgorigin⟩
          exact hkey (congrArg _ (hone g hg f hf hgorigin horigin))
      · obtain ⟨realm, hrealm⟩ := Option.isSome_iff_exists.mp hopen
        have hfails : s.localStorage.delete ⟨f, true⟩ = some
            ((s.localStorage.realmWrite (KeyedStore.erase (RealmObject.primaryKey f))).1,
              false) := by
          rw [LocalStorage.delete_of_hasRealm]
          simp only [LocalStorage.realmWrite_reports hrealm hcommits, Option.isNone_some]
        refine iff_of_true ?_ (Or.inl hcommits)
        refine (told_of_local hlocal hreadable
          (hchecked.trans (deleteLocal_of_delete hfails)) rfl rfl).mpr ?_
        simp [deletedResult, checkFavoriteManagerError]

theorem told_local_iff (hlocal : s.isLocalStorage = true) (proverb : Proverb) :
    Told s proverb request outcome random now ↔
      (¬ s.Stores proverb ∨ LocalDeleteGuarded s proverb) := by
  cases proverb with
  | rProverb p => exact told_local_rProverb_iff hlocal p
  | rFavorite f => exact iff_of_true (told_local_rFavorite hlocal f) (Or.inr trivial)
  | fFavorite f =>
      have hchecked : s.checkAndDeleteLocal (.fFavorite f) =
          some (s, some (.manager .isNotFavorite)) := rfl
      have hreadable : s.readable (.fFavorite f) = true := rfl
      rw [told_of_local hlocal hreadable hchecked rfl rfl]
      simp [deletedResult, checkFavoriteManagerError, LocalDeleteGuarded]

end Local

/-! ## Remote mode -/

section Remote

variable {s : App} {proverb : Proverb} {request : Nat} {outcome : Operation → Outcome}
  {random : Identifier} {now : Date} {manager : FirestoreManager} {user : UserIdentifier}
  {ids : ProverbIdentifiers}

theorem delete_of_remote (hremote : s.isLocalStorage = false)
    (hreadable : s.readable proverb = true) (request : Nat) :
    s.delete proverb request =
      some (s.checkAndDeleteRemote proverb request (App.identifiers proverb)) := by
  simp [App.delete, hreadable, hremote]

def afterDelete (firestore : Firestore) (user : UserIdentifier) (outcome : Operation → Outcome)
    (identifier : Identifier) : Firestore :=
  (firestore.serve (.deleteDocument user identifier)
    (outcome (.deleteDocument user identifier))).1

def deleteAnswer (user : UserIdentifier) (outcome : Operation → Outcome)
    (identifier : Identifier) : Option AppError :=
  if outcome (.deleteDocument user identifier) = .error then some .firestore else none

theorem favorites_afterDelete (firestore : Firestore) (user : UserIdentifier)
    (outcome : Operation → Outcome) (identifier : Identifier) :
    (afterDelete firestore user outcome identifier).favorites user =
      if outcome (.deleteDocument user identifier) = .error then firestore.favorites user
      else (firestore.favorites user).erase identifier := by
  cases houtcome : outcome (.deleteDocument user identifier) <;>
    simp [afterDelete, houtcome, Firestore.serve, Firestore.write]

/-- The document is deleted or an error is reported; nothing else is sent. -/
theorem settle_deleteRemote (hm : s.remoteStorage = some manager)
    (hu : manager.userDocument = some user) {f : FFavoriteProverb}
    (hpath : isDocumentPath f.identifier = true) (fuel : Nat) :
    App.settle outcome random now s.calls.length (fuel + 1) (s.deleteRemote request ids f) =
      some ({ s with firestore := afterDelete s.firestore user outcome f.identifier
        }.deleteCompleted request ids (deleteAnswer user outcome f.identifier)) := by
  have hsent : s.deleteRemote request ids f =
      s.call (.deleteDocument user f.identifier) (.delete request ids) := by
    simp [App.deleteRemote, hm, FirestoreManager.delete_of_path hu hpath]
  rw [hsent, App.settle_call]
  have hanswer : FirestoreManager.deleteResult (s.firestore.serve
      (.deleteDocument user f.identifier) (outcome (.deleteDocument user f.identifier))).2 =
        deleteAnswer user outcome f.identifier := by
    unfold deleteAnswer
    cases outcome (.deleteDocument user f.identifier) <;> rfl
  simp only [App.called, hanswer, Option.bind_some]
  apply App.settle_of_settled
  unfold deleteAnswer
  split <;> exact Nat.le_refl _

/-- Firestore ends the process at an identifier that is no document's. -/
theorem deleteRemote_of_no_path (hm : s.remoteStorage = some manager)
    (hu : manager.userDocument = some user) {f : FFavoriteProverb}
    (hpath : isDocumentPath f.identifier = false) : s.deleteRemote request ids f = s.abort := by
  simp [App.deleteRemote, hm, FirestoreManager.delete, FirestoreManager.favoritesCollection, hu,
    hpath]

theorem stores_remote_fFavorite_iff (hremote : s.isLocalStorage = false)
    (huser : s.activeUser = some user) (f : FFavoriteProverb) :
    s.Stores (.fFavorite f) ↔ ∃ document ∈ s.firestore.favorites user,
      document.documentID = f.identifier := by
  simp [App.Stores, hremote, huser, Proverb.identifier]

theorem told_remote_fFavorite_iff (hremote : s.isLocalStorage = false) (f : FFavoriteProverb) :
    Told s (.fFavorite f) request outcome random now ↔
      (¬ s.Stores (.fFavorite f) ∨ RemoteDeleteGuarded s outcome (.fFavorite f)) := by
  have hdelete : s.delete (.fFavorite f) request =
      some (s.deleteRemote request (App.identifiers (.fFavorite f)) f) :=
    delete_of_remote hremote rfl request
  cases hm : s.remoteStorage with
  | none =>
      have hanswer : s.delete (.fFavorite f) request = some (s.deleteCompleted request
          (App.identifiers (.fFavorite f)) (some (.manager .undefined))) := by
        rw [hdelete, App.deleteRemote, hm]
      refine iff_of_true ?_ (Or.inr ?_)
      · refine (told_of_immediate_answer hanswer rfl rfl).mpr ?_
        simp [deletedResult, checkFavoriteManagerError]
      · simp [RemoteDeleteGuarded, hm]
  | some manager =>
      have hguard : RemoteDeleteGuarded s outcome (.fFavorite f) ↔
          ∃ user, manager.userDocument = some user ∧ (isDocumentPath f.identifier = true →
            outcome (.deleteDocument user f.identifier) ≠ .error) := by
        simp only [RemoteDeleteGuarded, hm]
      rw [hguard]
      cases hu : manager.userDocument with
      | none =>
          have hanswer : s.delete (.fFavorite f) request = some (s.deleteCompleted request
              (App.identifiers (.fFavorite f)) (some .undefinedError)) := by
            rw [hdelete]
            simp [App.deleteRemote, hm, FirestoreManager.delete,
              FirestoreManager.favoritesCollection, hu]
          rw [told_of_immediate_answer hanswer rfl rfl]
          simp [deletedResult, checkFavoriteManagerError]
      | some user =>
          cases hpath : isDocumentPath f.identifier with
          | false =>
              have hrun : (s.delete (.fFavorite f) request).bind
                  (App.settle outcome random now s.calls.length 2) = some s.abort := by
                rw [hdelete, Option.bind_some, deleteRemote_of_no_path hm hu hpath]
                exact App.settle_of_settled 2 (Nat.le_refl _)
              exact iff_of_true (told_of_silence hrun rfl)
                (Or.inr ⟨user, rfl, fun h => absurd h Bool.false_ne_true⟩)
          | true =>
              let t : App :=
                { s with firestore := afterDelete s.firestore user outcome f.identifier }
              have hrun : (s.delete (.fFavorite f) request).bind
                  (App.settle outcome random now s.calls.length 2) =
                    some (t.deleteCompleted request (App.identifiers (.fFavorite f))
                      (deleteAnswer user outcome f.identifier)) := by
                rw [hdelete, Option.bind_some]
                exact settle_deleteRemote hm hu hpath 1
              have htold := told_of_answer hrun (rfl : t.outputs = s.outputs)
              have hsent : t.activeUser = some user := by simp [t, App.activeUser, hm, hu]
              have hstores := stores_remote_fFavorite_iff (s := t) hremote hsent f
              have hfavorites : t.firestore.favorites user = _ :=
                favorites_afterDelete s.firestore user outcome f.identifier
              rw [htold]
              by_cases herror : outcome (.deleteDocument user f.identifier) = .error
              · have huser : s.activeUser = some user := by simp [App.activeUser, hm, hu]
                have hsame : t.Stores (.fFavorite f) ↔ s.Stores (.fFavorite f) := by
                  rw [hstores, hfavorites, if_pos herror, stores_remote_fFavorite_iff hremote huser]
                simp [herror, deleteAnswer, deletedResult, checkFavoriteManagerError, hsame]
              · have hgone : ¬ t.Stores (.fFavorite f) := by
                  rw [hstores, hfavorites, if_neg herror]
                  intro hstored
                  obtain ⟨document, hmem, hid⟩ := hstored
                  exact (KeyedStore.mem_erase.mp hmem).2 hid
                exact iff_of_true (fun _ => hgone) (Or.inr ⟨user, rfl, fun _ => herror⟩)

def queryResult (firestore : Firestore) (user : UserIdentifier) (outcome : Operation → Outcome)
    (identifier : Identifier) : Except AppError FFavoriteProverb :=
  FirestoreManager.getFavoriteResult
    (firestore.serve (.whereOriginIdentifier user identifier)
      (outcome (.whereOriginIdentifier user identifier))).2

theorem queryResult_ok_iff {firestore : Firestore} {identifier : Identifier}
    {f : FFavoriteProverb} :
    queryResult firestore user outcome identifier = .ok f ↔
      outcome (.whereOriginIdentifier user identifier) = .success ∧
        ((firestore.favorites user).whereOriginIdentifier identifier).head?.map
          Document.favorite = some f := by
  unfold queryResult
  cases houtcome : outcome (.whereOriginIdentifier user identifier) with
  | success =>
      cases hdocuments : (firestore.favorites user).whereOriginIdentifier identifier <;>
        simp [Firestore.serve, Firestore.query, FirestoreManager.getFavoriteResult, hdocuments]
  | error => simp [Firestore.serve, Firestore.query, FirestoreManager.getFavoriteResult]
  | nothing => simp [Firestore.serve, Firestore.query, FirestoreManager.getFavoriteResult]

theorem deletedResult_queryResult {firestore : Firestore} {identifier : Identifier}
    {error : AppError} (h : queryResult firestore user outcome identifier = .error error) :
    deletedResult (some error) = true := by
  unfold queryResult FirestoreManager.getFavoriteResult at h
  split at h
  · obtain rfl := Except.error.inj h
    rfl
  · simp at h
  · obtain rfl := Except.error.inj h
    rfl

theorem settle_getFavorite (hremote : s.isLocalStorage = false)
    (hm : s.remoteStorage = some manager) (hu : manager.userDocument = some user)
    (p : RProverb) :
    (s.delete (.rProverb p) request).bind (App.settle outcome random now s.calls.length 2) =
      App.settle outcome random now s.calls.length 1
        (s.favoriteFound request (App.identifiers (.rProverb p))
          (queryResult s.firestore user outcome p.identifier)) := by
  have hsent : s.delete (.rProverb p) request =
      some (s.call (.whereOriginIdentifier user p.identifier)
        (.getFavorite request (App.identifiers (.rProverb p)))) := by
    rw [delete_of_remote hremote rfl request]
    simp [App.checkAndDeleteRemote, hm, FirestoreManager.getFavorite,
      FirestoreManager.favoritesCollection, hu]
  have hsame : (s.firestore.serve (.whereOriginIdentifier user p.identifier)
      (outcome (.whereOriginIdentifier user p.identifier))).1 = s.firestore := by
    cases outcome (.whereOriginIdentifier user p.identifier) <;> rfl
  rw [hsent, Option.bind_some, App.settle_call, hsame]
  rfl

theorem stores_remote_rProverb_iff (hremote : s.isLocalStorage = false)
    (huser : s.activeUser = some user) (p : RProverb) :
    s.Stores (.rProverb p) ↔ ∃ document ∈ s.firestore.favorites user,
      document.data.originIdentifier = some p.identifier := by
  simp [App.Stores, hremote, huser]

theorem document_of_found {firestore : Firestore} {p : RProverb} {f : FFavoriteProverb}
    (hresult : queryResult firestore user outcome p.identifier = .ok f) :
    ∃ document ∈ firestore.favorites user,
      document.data.originIdentifier = some p.identifier := by
  obtain ⟨_, hhead⟩ := queryResult_ok_iff.mp hresult
  obtain ⟨document, hfirst, _⟩ := Option.map_eq_some_iff.mp hhead
  obtain ⟨hmem, horigin⟩ := List.mem_filter.mp (List.mem_of_mem_head? hfirst)
  exact ⟨document, Collection.mem_documents.mp hmem, by simpa using horigin⟩

/-- The document found is deleted, and it has to be the only one of the proverb. -/
theorem told_of_found (hremote : s.isLocalStorage = false)
    (hm : s.remoteStorage = some manager) (hu : manager.userDocument = some user)
    {p : RProverb} {f : FFavoriteProverb}
    (hresult : queryResult s.firestore user outcome p.identifier = .ok f)
    (hpath : isDocumentPath f.identifier = true) :
    Told s (.rProverb p) request outcome random now ↔
      outcome (.deleteDocument user f.identifier) ≠ .error ∧
        ∀ document ∈ s.firestore.favorites user,
          document.data.originIdentifier = some p.identifier →
            document.documentID = f.identifier := by
  let t : App := { s with firestore := afterDelete s.firestore user outcome f.identifier }
  have hrun : (s.delete (.rProverb p) request).bind
      (App.settle outcome random now s.calls.length 2) = _ :=
    settle_getFavorite hremote hm hu p
  rw [hresult, App.favoriteFound, settle_deleteRemote hm hu hpath 0] at hrun
  have htold := told_of_answer hrun (rfl : t.outputs = s.outputs)
  have hfavorites : t.firestore.favorites user = _ :=
    favorites_afterDelete s.firestore user outcome f.identifier
  have huser : t.activeUser = some user := by simp [t, App.activeUser, hm, hu]
  have hstores := stores_remote_rProverb_iff (s := t) hremote huser p
  rw [htold]
  by_cases herror : outcome (.deleteDocument user f.identifier) = .error
  · have hstored : t.Stores (.rProverb p) := by
      rw [hstores, hfavorites, if_pos herror]
      exact document_of_found hresult
    have hsuccess : deletedResult (deleteAnswer user outcome f.identifier) = true := by
      simp [deleteAnswer, herror, deletedResult, checkFavoriteManagerError]
    exact iff_of_false (fun hgone => hgone hsuccess hstored) fun hguard => hguard.1 herror
  · rw [hstores, hfavorites, if_neg herror]
    simp only [deleteAnswer, if_neg herror, deletedResult, true_implies, KeyedStore.mem_erase]
    constructor
    · intro hgone
      refine ⟨herror, fun other hother hotherOrigin => ?_⟩
      by_contra hne
      exact hgone ⟨other, ⟨hother, hne⟩, hotherOrigin⟩
    · intro honly hstored
      obtain ⟨other, ⟨hother, hne⟩, hotherOrigin⟩ := hstored
      exact hne (honly.2 other hother hotherOrigin)

theorem told_remote_rProverb_iff (hremote : s.isLocalStorage = false) (p : RProverb) :
    Told s (.rProverb p) request outcome random now ↔
      (¬ s.Stores (.rProverb p) ∨ RemoteDeleteGuarded s outcome (.rProverb p)) := by
  cases hm : s.remoteStorage with
  | none =>
      have hrun : (s.delete (.rProverb p) request).bind
          (App.settle outcome random now s.calls.length 2) = some s := by
        rw [delete_of_remote hremote rfl request]
        simpa [App.checkAndDeleteRemote, hm] using App.settle_of_settled 2 (Nat.le_refl _)
      exact iff_of_true (told_of_silence hrun rfl) (Or.inr (by simp [RemoteDeleteGuarded, hm]))
  | some manager =>
      cases hu : manager.userDocument with
      | none =>
          have hanswer : s.delete (.rProverb p) request = some (s.deleteCompleted request
              (App.identifiers (.rProverb p)) (some .undefinedError)) := by
            rw [delete_of_remote hremote rfl request]
            simp [App.checkAndDeleteRemote, hm, FirestoreManager.getFavorite,
              FirestoreManager.favoritesCollection, hu, App.favoriteFound]
          rw [told_of_immediate_answer hanswer rfl rfl]
          simp [deletedResult, checkFavoriteManagerError, RemoteDeleteGuarded, hm, hu]
      | some user =>
          have huser : s.activeUser = some user := by simp [App.activeUser, hm, hu]
          have hguard : RemoteDeleteGuarded s outcome (.rProverb p) ↔ ∃ f,
              queryResult s.firestore user outcome p.identifier = .ok f ∧
                (isDocumentPath f.identifier = true →
                  outcome (.deleteDocument user f.identifier) ≠ .error ∧
                  ∀ document ∈ s.firestore.favorites user,
                    document.data.originIdentifier = some p.identifier →
                      document.documentID = f.identifier) := by
            simp only [RemoteDeleteGuarded, hm, hu, queryResult_ok_iff]
            simp [and_assoc]
          rw [hguard]
          cases hresult : queryResult s.firestore user outcome p.identifier with
          | error error =>
              have hsettled : (s.deleteCompleted request (App.identifiers (.rProverb p))
                  (some error)).calls.length ≤ s.calls.length := Nat.le_refl _
              have hrun : (s.delete (.rProverb p) request).bind
                  (App.settle outcome random now s.calls.length 2) = _ :=
                settle_getFavorite hremote hm hu p
              rw [hresult, App.favoriteFound, App.settle_of_settled 1 hsettled] at hrun
              rw [told_of_answer hrun rfl]
              simp [deletedResult_queryResult hresult]
          | ok f =>
              have hstored : s.Stores (.rProverb p) :=
                (stores_remote_rProverb_iff hremote huser p).mpr (document_of_found hresult)
              rw [or_iff_right (not_not.mpr hstored)]
              cases hpath : isDocumentPath f.identifier with
              | false =>
                  have hrun : (s.delete (.rProverb p) request).bind
                      (App.settle outcome random now s.calls.length 2) = some s.abort := by
                    rw [settle_getFavorite hremote hm hu p, hresult, App.favoriteFound,
                      deleteRemote_of_no_path hm hu hpath]
                    exact App.settle_of_settled 1 (Nat.le_refl _)
                  refine iff_of_true (told_of_silence hrun rfl) ⟨f, rfl, fun htrue => ?_⟩
                  exact absurd (hpath.symm.trans htrue) Bool.false_ne_true
              | true =>
                  rw [told_of_found hremote hm hu hresult hpath]
                  constructor
                  · intro hdeleted
                    exact ⟨f, rfl, fun _ => hdeleted⟩
                  · intro hguarded
                    obtain ⟨g, hg, hdeleted⟩ := hguarded
                    obtain rfl := Except.ok.inj hg
                    exact hdeleted hpath

theorem told_remote_iff (hremote : s.isLocalStorage = false) (proverb : Proverb) :
    Told s proverb request outcome random now ↔
      (¬ s.Stores proverb ∨ RemoteDeleteGuarded s outcome proverb) := by
  cases proverb with
  | rProverb p => exact told_remote_rProverb_iff hremote p
  | fFavorite f => exact told_remote_fFavorite_iff hremote f
  | rFavorite f =>
      have hguard : RemoteDeleteGuarded s outcome (.rFavorite f) ↔
          s.localStorage.isValid f = false := by
        simp only [RemoteDeleteGuarded]
      rw [hguard]
      cases hvalid : s.localStorage.isValid f with
      | true =>
          have hreadable : s.readable (.rFavorite f) = true := hvalid
          have hanswer : s.delete (.rFavorite f) request = some (s.deleteCompleted request
              (App.identifiers (.rFavorite f)) (some (.manager .isNotFavorite))) :=
            delete_of_remote hremote hreadable request
          rw [told_of_immediate_answer hanswer rfl rfl]
          simp [deletedResult, checkFavoriteManagerError]
      | false =>
          have htrap : s.delete (.rFavorite f) request = none := by
            simp [App.delete, App.readable, hvalid]
          exact iff_of_true (told_of_trap htrap) (Or.inr rfl)

end Remote

/-- For every list, every row of it, every mode and every outcome of the request: a row
that is dropped has lost its favourite exactly when nothing was stored for it or the guard
of the mode holds. -/
theorem drops_only_gone_iff {screen : FavoritesProverbsViewController} {proverb : Proverb}
    (hrow : proverb ∈ screen.proverbs) (s : App) (request : Nat)
    (outcome : Operation → Outcome) (random : Identifier) (now : Date) :
    screen.DropsOnlyGone s proverb request outcome random now ↔
      DeleteIsTold s outcome proverb := by
  rw [dropsOnlyGone_iff hrow, DeleteIsTold]
  cases hlocal : s.isLocalStorage with
  | true => exact told_local_iff hlocal proverb
  | false => exact told_remote_iff hlocal proverb

def oneRemote : App :=
  { App.installed with
    currentUser := some "user"
    currentPlan := .paidRegistered
    remoteStorage := some ⟨0, "user", some "user"⟩
    firestore := ⟨fun _ => true, fun _ =>
      KeyedStore.empty.put (.ofFavorite ⟨"favorite", "proverb", 0, ""⟩)⟩ }

def remoteRow : FavoritesProverbsViewController where
  catalogue := ⟨none, .commit⟩
  proverbs := [.fFavorite ⟨"favorite", "proverb", 0, ""⟩]
  currentSortOption := .date
  isVisible := true
  refreshes := 0
  deletes := []
  removed := []

theorem drops_only_gone_deleted :
    remoteRow.DropsOnlyGone oneRemote (.fFavorite ⟨"favorite", "proverb", 0, ""⟩) 0
      (fun _ => .success) "" 0 := by
  have hrow : Proverb.fFavorite ⟨"favorite", "proverb", 0, ""⟩ ∈ remoteRow.proverbs := by decide
  exact (drops_only_gone_iff hrow oneRemote 0 (fun _ => .success) "" 0).mpr
    (Or.inr ⟨"user", rfl, fun _ => by decide⟩)

/-- Firestore reports an error, and the row is dropped as if the favourite were gone. -/
theorem firestore_error_drops_row :
    ¬ remoteRow.DropsOnlyGone oneRemote (.fFavorite ⟨"favorite", "proverb", 0, ""⟩) 0
      (fun _ => .error) "" 0 := by
  have hpath : isDocumentPath "favorite" = true := by decide +kernel
  obtain ⟨s', hrun, houtput, hstored⟩ : ∃ s',
      (oneRemote.delete (.fFavorite ⟨"favorite", "proverb", 0, ""⟩) 0).bind
        (App.settle (fun _ => .error) "" 0 oneRemote.calls.length 2) = some s' ∧
      .deleted 0 (some .firestore) ∈ oneRemote.putOut s' ∧
      s'.Stores (.fFavorite ⟨"favorite", "proverb", 0, ""⟩) := by
    have hdelete : oneRemote.delete (.fFavorite ⟨"favorite", "proverb", 0, ""⟩) 0 =
        some (oneRemote.deleteRemote 0 ⟨some "favorite", "proverb"⟩
          ⟨"favorite", "proverb", 0, ""⟩) := delete_of_remote rfl rfl 0
    rw [hdelete, Option.bind_some]
    exact ⟨_, settle_deleteRemote (f := ⟨"favorite", "proverb", 0, ""⟩) rfl rfl hpath 1,
      by decide, "user", rfl, _, KeyedStore.mem_put_self _ _, rfl⟩
  exact fun h => h s' hrun (some .firestore) houtput _ rfl rfl (by decide) hstored

end FavoritesProverbsViewController

end Proverbs
