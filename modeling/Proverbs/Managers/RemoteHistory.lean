import Proverbs.Core.SetHistory
import Proverbs.Managers.Crashes
import Proverbs.Managers.RemoteToggles

/-! # What the notifications tell of the remote favourites

Calls of several favourites may be in flight at once and may be carried out and answered
in any order, as long as nobody starts a change of a proverb while one of it is in
flight. The screens only hear of it through the notifications. These form a history of
the set of favourites in the collection: each is a change of the set the ones before it
tell, and where nothing is in flight the collection holds what they tell.
-/

namespace Proverbs

open SetHistory

/-! ## Collections -/

/-- The catalogue proverbs a collection has favourites of. -/
def Collection.origins (collection : Collection) : Set Identifier :=
  {origin | collection.Holds origin}

/-- Documents are what the app writes, one for each origin. -/
structure Collection.Kept (collection : Collection) : Prop where
  written : ∀ document ∈ collection, document = Document.ofFavorite document.favorite
  origins : (collection.entries.map fun document => document.favorite.originIdentifier).Nodup

def Output.change : Output → Option (Change Identifier)
  | .didSave identifiers => some (.added identifiers.originIdentifier)
  | .didDelete identifiers => some (.removed identifiers.originIdentifier)
  | _ => none

/-- Two moments look the same to one proverb. -/
structure SameAt (origin : Identifier) (collection collection' : Collection)
    (told told' : Set Identifier) : Prop where
  documents : ∀ document, document.favorite.originIdentifier = origin →
    (document ∈ collection' ↔ document ∈ collection)
  told : origin ∈ told' ↔ origin ∈ told

section Collections

variable {collection collection' : Collection} {told told' : Set Identifier}
  {origin : Identifier} {favorite : FFavoriteProverb}

theorem SameAt.refl : SameAt origin collection collection told told :=
  ⟨fun _ _ => Iff.rfl, Iff.rfl⟩

theorem SameAt.holds (h : SameAt origin collection collection' told told') :
    collection'.Holds origin ↔ collection.Holds origin := by
  constructor
  · rintro ⟨document, hmem, horigin⟩
    exact ⟨document, (h.documents document horigin).mp hmem, horigin⟩
  · rintro ⟨document, hmem, horigin⟩
    exact ⟨document, (h.documents document horigin).mpr hmem, horigin⟩

theorem Collection.Kept.mem_whereOriginIdentifier (h : collection.Kept) {document : Document} :
    document ∈ collection.whereOriginIdentifier origin ↔
      document ∈ collection ∧ document.favorite.originIdentifier = origin := by
  rw [Collection.whereOriginIdentifier, List.mem_filter, Collection.mem_documents]
  refine and_congr_right fun hmem => ?_
  have hwritten : document.data.originIdentifier = some document.favorite.originIdentifier := by
    rw [h.written document hmem]
    rfl
  rw [hwritten]
  simp

theorem Collection.Kept.getFavorite_found (h : collection.Kept)
    (hfound : FirestoreManager.getFavoriteResult
      (.documents (collection.whereOriginIdentifier origin)) = .ok favorite) :
    favorite.originIdentifier = origin ∧ Document.ofFavorite favorite ∈ collection := by
  cases hdocuments : collection.whereOriginIdentifier origin with
  | nil => simp [hdocuments, FirestoreManager.getFavoriteResult] at hfound
  | cons document documents =>
      rw [hdocuments] at hfound
      obtain rfl := Except.ok.inj hfound
      have hin : document ∈ collection.whereOriginIdentifier origin :=
        hdocuments ▸ List.mem_cons_self
      obtain ⟨hmem, horigin⟩ := h.mem_whereOriginIdentifier.mp hin
      exact ⟨horigin, h.written document hmem ▸ hmem⟩

theorem Collection.Kept.whereOriginIdentifier_eq_nil (h : collection.Kept) :
    collection.whereOriginIdentifier origin = [] ↔ ¬ collection.Holds origin := by
  rw [List.eq_nil_iff_forall_not_mem]
  constructor
  · rintro hnone ⟨document, hmem, horigin⟩
    exact hnone document (h.mem_whereOriginIdentifier.mpr ⟨hmem, horigin⟩)
  · intro hnone document hmem
    exact hnone ⟨document, h.mem_whereOriginIdentifier.mp hmem⟩

theorem Collection.Kept.put (h : collection.Kept)
    (hnew : ∀ document ∈ collection, document.documentID ≠ favorite.identifier)
    (horigin : ¬ collection.Holds favorite.originIdentifier) :
    Collection.Kept (collection.put (Document.ofFavorite favorite)) := by
  refine ⟨fun document hmem => ?_, ?_⟩
  · rcases KeyedStore.mem_put.mp hmem with rfl | ⟨hmem, _⟩
    · rfl
    · exact h.written document hmem
  · rw [KeyedStore.entries_put_of_new hnew, List.map_append, List.nodup_append]
    refine ⟨h.origins, List.nodup_singleton _, ?_⟩
    intro other hother new hnew' hsame
    obtain ⟨document, hmem, rfl⟩ := List.mem_map.mp hother
    have hlast : new = favorite.originIdentifier := List.mem_singleton.mp hnew'
    exact horigin ⟨document, hmem, hsame.trans hlast⟩

theorem Collection.Kept.erase (h : collection.Kept) (documentID : Identifier) :
    Collection.Kept (collection.erase documentID) := by
  refine ⟨fun document hmem => h.written document (KeyedStore.mem_erase.mp hmem).1, ?_⟩
  exact h.origins.sublist (List.filter_sublist.map _)

theorem sameAt_put (hnew : ∀ document ∈ collection, document.documentID ≠ favorite.identifier)
    (hne : origin ≠ favorite.originIdentifier) :
    SameAt origin collection (collection.put (Document.ofFavorite favorite)) told told := by
  refine ⟨fun document horigin => ?_, Iff.rfl⟩
  rw [KeyedStore.mem_put]
  constructor
  · rintro (rfl | ⟨hmem, _⟩)
    · exact absurd horigin.symm hne
    · exact hmem
  · exact fun hmem => Or.inr ⟨hmem, hnew document hmem⟩

theorem Collection.Kept.eq_of_origin (h : collection.Kept) {document other : Document}
    (hdocument : document ∈ collection) (hother : other ∈ collection)
    (horigin : document.favorite.originIdentifier = other.favorite.originIdentifier) :
    document = other :=
  List.inj_on_of_nodup_map h.origins hdocument hother horigin

theorem sameAt_erase (hmem : Document.ofFavorite favorite ∈ collection)
    (hne : origin ≠ favorite.originIdentifier) :
    SameAt origin collection (collection.erase favorite.identifier) told told := by
  refine ⟨fun document horigin => ?_, Iff.rfl⟩
  rw [KeyedStore.mem_erase]
  constructor
  · exact fun hkept => hkept.1
  · refine fun hdocument => ⟨hdocument, fun hid => hne ?_⟩
    have hsame : document = Document.ofFavorite favorite :=
      KeyedStore.eq_of_key_eq hdocument hmem hid
    rw [← horigin, hsame]
    rfl

theorem Collection.Kept.not_holds_erase (h : collection.Kept)
    (hmem : Document.ofFavorite favorite ∈ collection) :
    ¬ Collection.Holds (collection.erase favorite.identifier) favorite.originIdentifier := by
  rintro ⟨document, hdocument, horigin⟩
  obtain ⟨hin, hid⟩ := KeyedStore.mem_erase.mp hdocument
  have hsame := h.eq_of_origin hin hmem horigin
  exact hid (by rw [hsame]; rfl)

end Collections

/-! ## Calls that change a favourite -/

/-- The proverb whose favourite a call is about to change. -/
def Call.target (call : Call) : Option Identifier :=
  match call.callback with
  | .isFavorite (.checkAndSaveOrDelete _ (.rProverb proverb)) => some proverb.identifier
  | .save _ identifiers _ | .getFavorite _ identifiers | .delete _ identifiers =>
      some identifiers.originIdentifier
  | _ => none

/-- The document id a call is about to write under. -/
def Call.writes (call : Call) : Option Identifier :=
  match call.operation, call.response with
  | .setData _ proverb, none => some proverb.identifier
  | _, _ => none

namespace App

/-- How far a call has come, given the collection and what has been told of it. -/
inductive Phase (user : UserIdentifier) (collection : Collection) (told : Set Identifier) :
    Call → Prop where
  | listing (request : Nat) (response : Option Response) :
      Phase user collection told ⟨.getDocuments user, .getAll request, response⟩
  | checking (origin : Identifier) (request : Nat) (response : Option Response) :
      Phase user collection told
        ⟨.whereOriginIdentifier user origin, .isFavorite (.answer request), response⟩
  | lookupSent (proverb : RProverb) (request : Nat) :
      Phase user collection told ⟨.whereOriginIdentifier user proverb.identifier,
        .isFavorite (.checkAndSaveOrDelete request (.rProverb proverb)), none⟩
  | lookedUp (proverb : RProverb) (request : Nat) (documents : List Document)
      (hfound : documents = [] ↔ proverb.identifier ∉ told) :
      Phase user collection told ⟨.whereOriginIdentifier user proverb.identifier,
        .isFavorite (.checkAndSaveOrDelete request (.rProverb proverb)),
        some (.documents documents)⟩
  | saveSent (favorite : FFavoriteProverb) (request : Nat)
      (htold : favorite.originIdentifier ∉ told) :
      Phase user collection told ⟨.setData user favorite,
        .save request ⟨none, favorite.originIdentifier⟩ favorite, none⟩
  | saved (favorite : FFavoriteProverb) (request : Nat)
      (htold : favorite.originIdentifier ∉ told)
      (hholds : collection.Holds favorite.originIdentifier) :
      Phase user collection told ⟨.setData user favorite,
        .save request ⟨none, favorite.originIdentifier⟩ favorite, some .written⟩
  | saveRefused (favorite : FFavoriteProverb) (request : Nat) :
      Phase user collection told ⟨.setData user favorite,
        .save request ⟨none, favorite.originIdentifier⟩ favorite, some .error⟩
  | searchSent (origin : Identifier) (request : Nat) (htold : origin ∈ told) :
      Phase user collection told ⟨.whereOriginIdentifier user origin,
        .getFavorite request ⟨none, origin⟩, none⟩
  | searched (origin : Identifier) (request : Nat) (response : Response) (htold : origin ∈ told)
      (hwritten : response ≠ .written)
      (hfound : ∀ favorite, FirestoreManager.getFavoriteResult response = .ok favorite →
        favorite.originIdentifier = origin ∧ Document.ofFavorite favorite ∈ collection) :
      Phase user collection told ⟨.whereOriginIdentifier user origin,
        .getFavorite request ⟨none, origin⟩, some response⟩
  | deleteSent (favorite : FFavoriteProverb) (request : Nat) (identifiers : ProverbIdentifiers)
      (horigin : identifiers.originIdentifier = favorite.originIdentifier)
      (htold : favorite.originIdentifier ∈ told)
      (hmem : Document.ofFavorite favorite ∈ collection) :
      Phase user collection told ⟨.deleteDocument user favorite.identifier,
        .delete request identifiers, none⟩
  | deleted (documentID : Identifier) (request : Nat) (identifiers : ProverbIdentifiers)
      (htold : identifiers.originIdentifier ∈ told)
      (hgone : ¬ collection.Holds identifiers.originIdentifier) :
      Phase user collection told
        ⟨.deleteDocument user documentID, .delete request identifiers, some .written⟩
  | deleteRefused (documentID : Identifier) (request : Nat) (identifiers : ProverbIdentifiers) :
      Phase user collection told
        ⟨.deleteDocument user documentID, .delete request identifiers, some .error⟩

def told (start : Set Identifier) (n : Nat) (s : App) : Set Identifier :=
  after start ((s.outputs.drop n).filterMap Output.change)

/-- Documents and the writes that are not carried out have different ids, all of this set. -/
structure Fresh (ids : Set Identifier) (used : List Identifier) : Prop where
  nodup : used.Nodup
  mem : ∀ documentID ∈ used, documentID ∈ ids

section Fresh

variable {ids : Set Identifier} {used used' : List Identifier} {documentID : Identifier}

theorem Fresh.sublist (h : Fresh ids used) (hsub : used'.Sublist used) : Fresh ids used' :=
  ⟨h.nodup.sublist hsub, fun documentID hmem => h.mem documentID (hsub.subset hmem)⟩

theorem Fresh.perm (h : Fresh ids used) (hperm : used'.Perm used) : Fresh ids used' :=
  ⟨hperm.nodup_iff.mpr h.nodup, fun documentID hmem => h.mem documentID (hperm.subset hmem)⟩

theorem Fresh.cons (h : Fresh ids used) (hids : documentID ∈ ids) (hnew : documentID ∉ used) :
    Fresh ids (documentID :: used) := by
  refine ⟨List.nodup_cons.mpr ⟨hnew, h.nodup⟩, fun other hother => ?_⟩
  rcases List.mem_cons.mp hother with rfl | hmem
  · exact hids
  · exact h.mem other hmem

end Fresh

/-- The notifications are right so far, and the calls in flight will keep them so. -/
structure Followed (user : UserIdentifier) (ids start : Set Identifier) (n : Nat) (s : App) :
    Prop where
  mode : RemoteMode user s
  kept : (s.firestore.favorites user).Kept
  length : n ≤ s.outputs.length
  legal : Legal start ((s.outputs.drop n).filterMap Output.change)
  calls : ∀ call ∈ s.calls, Phase user (s.firestore.favorites user) (s.told start n) call
  alone : (s.calls.filterMap Call.target).Nodup
  fresh : Fresh ids (s.calls.filterMap Call.writes ++
    (s.firestore.favorites user).entries.map Document.documentID)
  settled : ∀ origin,
    (∀ call ∈ s.calls, call.target = some origin → call.response ≠ some .written) →
      ((s.firestore.favorites user).Holds origin ↔ origin ∈ s.told start n)

section Frame

variable {user : UserIdentifier} {ids start : Set Identifier} {n : Nat} {s s' : App}
  {collection collection' : Collection} {told told' : Set Identifier} {call : Call}

theorem Phase.frame (h : Phase user collection told call)
    (hframe : ∀ origin, call.target = some origin →
      SameAt origin collection collection' told told') :
    Phase user collection' told' call := by
  cases h with
  | listing request response => exact .listing request response
  | checking origin request response => exact .checking origin request response
  | lookupSent proverb request => exact .lookupSent proverb request
  | lookedUp proverb request documents hfound =>
      have hsame := hframe proverb.identifier rfl
      exact .lookedUp proverb request documents (hfound.trans (not_congr hsame.told.symm))
  | saveSent favorite request htold =>
      have hsame := hframe favorite.originIdentifier rfl
      exact .saveSent favorite request fun hmem => htold (hsame.told.mp hmem)
  | saved favorite request htold hholds =>
      have hsame := hframe favorite.originIdentifier rfl
      exact .saved favorite request (fun hmem => htold (hsame.told.mp hmem))
        (hsame.holds.mpr hholds)
  | saveRefused favorite request => exact .saveRefused favorite request
  | searchSent origin request htold =>
      exact .searchSent origin request ((hframe origin rfl).told.mpr htold)
  | searched origin request response htold hwritten hfound =>
      have hsame := hframe origin rfl
      refine .searched origin request response (hsame.told.mpr htold) hwritten ?_
      intro favorite hfavorite
      obtain ⟨horigin, hmem⟩ := hfound favorite hfavorite
      exact ⟨horigin, (hsame.documents (Document.ofFavorite favorite) horigin).mpr hmem⟩
  | deleteSent favorite request identifiers horigin htold hmem =>
      have hsame := hframe favorite.originIdentifier (congrArg some horigin)
      exact .deleteSent favorite request identifiers horigin (hsame.told.mpr htold)
        ((hsame.documents _ rfl).mpr hmem)
  | deleted documentID request identifiers htold hgone =>
      have hsame := hframe identifiers.originIdentifier rfl
      exact .deleted documentID request identifiers (hsame.told.mpr htold)
        fun hholds => hgone (hsame.holds.mp hholds)
  | deleteRefused documentID request identifiers =>
      exact .deleteRefused documentID request identifiers

theorem Followed.moved (h : Followed user ids start n s) (origin : Identifier)
    (hmode : RemoteMode user s') (hkept : (s'.firestore.favorites user).Kept)
    (hlength : n ≤ s'.outputs.length)
    (hlegal : Legal start ((s'.outputs.drop n).filterMap Output.change))
    (hframe : ∀ other, other ≠ origin → SameAt other (s.firestore.favorites user)
      (s'.firestore.favorites user) (s.told start n) (s'.told start n))
    (hothers : ∀ call, call.target ≠ some origin → (call ∈ s'.calls ↔ call ∈ s.calls))
    (hown : ∀ call ∈ s'.calls, call.target = some origin →
      Phase user (s'.firestore.favorites user) (s'.told start n) call)
    (halone : (s'.calls.filterMap Call.target).Nodup)
    (hfresh : Fresh ids (s'.calls.filterMap Call.writes ++
      (s'.firestore.favorites user).entries.map Document.documentID))
    (hsettled : (∀ call ∈ s'.calls, call.target = some origin → call.response ≠ some .written) →
      ((s'.firestore.favorites user).Holds origin ↔ origin ∈ s'.told start n)) :
    Followed user ids start n s' := by
  refine ⟨hmode, hkept, hlength, hlegal, fun call hcall => ?_, halone, hfresh,
    fun other hother => ?_⟩
  · by_cases htarget : call.target = some origin
    · exact hown call hcall htarget
    · refine (h.calls call ((hothers call htarget).mp hcall)).frame fun other hother => ?_
      exact hframe other fun hsame => htarget (hother.trans (congrArg some hsame))
  · by_cases hsame : other = origin
    · subst hsame
      exact hsettled hother
    · have hframed := hframe other hsame
      rw [hframed.holds, hframed.told]
      refine h.settled other fun call hcall htarget => hother call ?_ htarget
      refine (hothers call fun howned => hsame ?_).mpr hcall
      exact Option.some.inj (htarget.symm.trans howned)

theorem Followed.asked (h : Followed user ids start n s) (hmode : RemoteMode user s')
    (hcollection : s'.firestore.favorites user = s.firestore.favorites user)
    (hlength : n ≤ s'.outputs.length)
    (hchanges : (s'.outputs.drop n).filterMap Output.change =
      (s.outputs.drop n).filterMap Output.change)
    (hcalls : ∀ call ∈ s'.calls,
      Phase user (s.firestore.favorites user) (s.told start n) call)
    (htargets : (s'.calls.filterMap Call.target).Perm (s.calls.filterMap Call.target))
    (hwrites : (s'.calls.filterMap Call.writes).Perm (s.calls.filterMap Call.writes))
    (hothers : ∀ call ∈ s.calls, call.target ≠ none → call ∈ s'.calls) :
    Followed user ids start n s' := by
  have htold : s'.told start n = s.told start n := congrArg (after start) hchanges
  refine ⟨hmode, ?_, hlength, ?_, ?_, htargets.nodup_iff.mpr h.alone, ?_, ?_⟩
  · rw [hcollection]
    exact h.kept
  · rw [hchanges]
    exact h.legal
  · rw [hcollection, htold]
    exact hcalls
  · rw [hcollection]
    exact h.fresh.perm (hwrites.append_right _)
  · intro origin horigin
    rw [hcollection, htold]
    refine h.settled origin fun call hcall htarget => ?_
    exact horigin call (hothers call hcall (by simp [htarget])) htarget

end Frame

/-! ## Sending -/

section Sending

variable {user : UserIdentifier} {ids start : Set Identifier} {n : Nat} {s s' : App}

/-- A call that starts the change of a proverb nobody else is changing. -/
theorem Followed.send (h : Followed user ids start n s) {origin : Identifier}
    {operation : Operation} {callback : Callback}
    (hfree : origin ∉ s.calls.filterMap Call.target)
    (htarget : Call.target ⟨operation, callback, none⟩ = some origin)
    (hwrites : Call.writes ⟨operation, callback, none⟩ = none)
    (hphase : Phase user (s.firestore.favorites user) (s.told start n)
      ⟨operation, callback, none⟩) :
    Followed user ids start n (s.takeRequest.call operation callback) := by
  have hcalls : (s.takeRequest.call operation callback).calls =
      s.calls ++ [⟨operation, callback, none⟩] := rfl
  refine h.moved origin ⟨h.mode.plan, h.mode.collection⟩ h.kept h.length h.legal
    (fun _ _ => .refl) (fun call hother => ?_) (fun call hcall hown => ?_) ?_ ?_ (fun hcalls => ?_)
  · rw [hcalls, List.mem_append, List.mem_singleton]
    refine or_iff_left fun hsame => hother ?_
    rw [hsame, htarget]
  · rw [hcalls, List.mem_append, List.mem_singleton] at hcall
    rcases hcall with hcall | rfl
    · exact h.calls call hcall
    · exact hphase
  · rw [hcalls, List.filterMap_append, List.nodup_append]
    refine ⟨h.alone, by simp [htarget], fun other hother new hnew hsame => hfree ?_⟩
    have hlast : new = origin := by simpa [htarget] using hnew
    exact hlast ▸ hsame ▸ hother
  · have hsame : (s.takeRequest.call operation callback).calls.filterMap Call.writes =
        s.calls.filterMap Call.writes := by
      rw [hcalls, List.filterMap_append]
      simp [hwrites]
    rw [hsame]
    exact h.fresh
  · refine h.settled origin fun call hcall => ?_
    exact hcalls call (List.mem_append_left _ hcall)

theorem Followed.ask (h : Followed user ids start n s) {operation : Operation} {callback : Callback}
    (htarget : Call.target ⟨operation, callback, none⟩ = none)
    (hwrites : Call.writes ⟨operation, callback, none⟩ = none)
    (hphase : Phase user (s.firestore.favorites user) (s.told start n)
      ⟨operation, callback, none⟩) :
    Followed user ids start n (s.takeRequest.call operation callback) := by
  have hcalls : (s.takeRequest.call operation callback).calls =
      s.calls ++ [⟨operation, callback, none⟩] := rfl
  refine h.asked ⟨h.mode.plan, h.mode.collection⟩ rfl h.length rfl (fun call hcall => ?_) ?_ ?_
    (fun call hcall _ => ?_)
  · rw [hcalls, List.mem_append, List.mem_singleton] at hcall
    rcases hcall with hcall | rfl
    · exact h.calls call hcall
    · exact hphase
  · rw [hcalls, List.filterMap_append]
    simp [htarget]
  · rw [hcalls, List.filterMap_append]
    simp [hwrites]
  · rw [hcalls]
    exact List.mem_append_left _ hcall

end Sending

/-! ## Carrying out -/

section Serving

variable {user : UserIdentifier} {ids start : Set Identifier} {n : Nat} {s s' : App}
  {index : Nat} {call new : Call}

theorem perm_writes_set (hcall : s.calls[index]? = some call) (hnew : new.writes = none) :
    ((s.calls.set index new).filterMap Call.writes).Perm
      ((s.calls.eraseIdx index).filterMap Call.writes) := by
  obtain ⟨hindex, _⟩ := List.getElem?_eq_some_iff.mp hcall
  have hset : (s.calls.set index new)[index]? = some new := by
    rw [List.getElem?_set_self hindex]
  have hperm := (InFlight.perm_eraseIdx hset).filterMap Call.writes
  rw [List.eraseIdx_set_eq, List.filterMap_cons_none hnew] at hperm
  exact hperm.symm

theorem Followed.fresh_eraseIdx (h : Followed user ids start n s) (index : Nat) :
    Fresh ids ((s.calls.eraseIdx index).filterMap Call.writes ++
      (s.firestore.favorites user).entries.map Document.documentID) :=
  h.fresh.sublist (((List.eraseIdx_sublist s.calls index).filterMap _).append_right _)

theorem Followed.fresh_write (h : Followed user ids start n s) (hcall : s.calls[index]? = some call)
    {documentID : Identifier} (hwrites : call.writes = some documentID) :
    Fresh ids (documentID :: ((s.calls.eraseIdx index).filterMap Call.writes ++
      (s.firestore.favorites user).entries.map Document.documentID)) := by
  have hperm := (InFlight.perm_eraseIdx hcall).filterMap Call.writes
  rw [List.filterMap_cons_some hwrites] at hperm
  exact h.fresh.perm (hperm.append_right _)

theorem Followed.served (h : Followed user ids start n s) {operation : Operation}
    {callback : Callback} {response : Response} {firestore : Firestore} {origin : Identifier}
    (hcall : s.calls[index]? = some ⟨operation, callback, none⟩)
    (htarget : Call.target ⟨operation, callback, none⟩ = some origin)
    (hkept : (firestore.favorites user).Kept)
    (hframe : ∀ other, other ≠ origin → SameAt other (s.firestore.favorites user)
      (firestore.favorites user) (s.told start n) (s.told start n))
    (hphase : Phase user (firestore.favorites user) (s.told start n)
      ⟨operation, callback, some response⟩)
    (hfresh : Fresh ids ((s.calls.eraseIdx index).filterMap Call.writes ++
      (firestore.favorites user).entries.map Document.documentID))
    (hsettled : response ≠ .written →
      ((firestore.favorites user).Holds origin ↔ origin ∈ s.told start n)) :
    Followed user ids start n { s with
      firestore := firestore
      calls := s.calls.set index ⟨operation, callback, some response⟩ } := by
  have hnew : Call.target ⟨operation, callback, some response⟩ = some origin := htarget
  have hwrites : Call.writes ⟨operation, callback, some response⟩ = none := by
    unfold Call.writes
    split <;> simp_all
  have hmem := InFlight.mem_set_iff hcall ⟨operation, callback, some response⟩
  have hmem' := fun y => (InFlight.perm_eraseIdx hcall).mem_iff (a := y)
  refine h.moved origin ⟨h.mode.plan, h.mode.collection⟩ hkept h.length h.legal hframe ?_ ?_ ?_ ?_
    ?_
  · intro call hother
    rw [hmem, ← hmem', List.mem_cons]
    constructor
    · rintro (rfl | hcall)
      · exact absurd hnew hother
      · exact Or.inr hcall
    · rintro (rfl | hcall)
      · exact absurd htarget hother
      · exact Or.inr hcall
  · intro call hin hown
    rcases (hmem call).mp hin with rfl | hin
    · exact hphase
    · exact absurd hown (InFlight.target_ne_of_mem_eraseIdx h.alone hcall htarget hin)
  · have hsame : (s.calls.set index ⟨operation, callback, some response⟩).filterMap Call.target =
        s.calls.filterMap Call.target := by
      have hmapped := InFlight.map_set_of_eq Call.target hcall (hnew.trans htarget.symm)
      simpa [List.filterMap_map] using congrArg (List.filterMap id) hmapped
    rw [hsame]
    exact h.alone
  · exact hfresh.perm ((perm_writes_set hcall hwrites).append_right _)
  · intro hothers
    apply hsettled
    intro hwritten
    exact hothers _ ((hmem _).mpr (Or.inl rfl)) hnew (congrArg some hwritten)

theorem Followed.servedQuestion (h : Followed user ids start n s) {operation : Operation}
    {callback : Callback} (response : Response)
    (hcall : s.calls[index]? = some ⟨operation, callback, none⟩)
    (htarget : Call.target ⟨operation, callback, none⟩ = none)
    (hwrites : Call.writes ⟨operation, callback, none⟩ = none)
    (hphase : Phase user (s.firestore.favorites user) (s.told start n)
      ⟨operation, callback, some response⟩) :
    Followed user ids start n { s with
      calls := s.calls.set index ⟨operation, callback, some response⟩ } := by
  have hnew : Call.target ⟨operation, callback, some response⟩ = none := htarget
  have hnone : Call.writes ⟨operation, callback, some response⟩ = none := by
    unfold Call.writes
    split <;> simp_all
  refine h.asked ⟨h.mode.plan, h.mode.collection⟩ rfl h.length rfl ?_ ?_ ?_ ?_
  · intro call hin
    rcases List.mem_or_eq_of_mem_set hin with hin | rfl
    · exact h.calls call hin
    · exact hphase
  · have hmapped := InFlight.map_set_of_eq Call.target hcall (hnew.trans htarget.symm)
    exact List.Perm.of_eq
      (by simpa [List.filterMap_map] using congrArg (List.filterMap id) hmapped)
  · have hmapped := InFlight.map_set_of_eq Call.writes hcall (hnone.trans hwrites.symm)
    exact List.Perm.of_eq
      (by simpa [List.filterMap_map] using congrArg (List.filterMap id) hmapped)
  · intro call hin htargeted
    refine (InFlight.mem_set_iff hcall _ _).mpr (Or.inr ?_)
    rcases List.mem_cons.mp ((InFlight.perm_eraseIdx hcall).mem_iff.mpr hin) with rfl | hin
    · exact absurd htarget htargeted
    · exact hin

/-- The lookup of a toggle ends with a snapshot. -/
def LookupSucceeds (s : App) (index : Nat) (outcome : Outcome) : Prop :=
  ∀ operation request proverb,
    s.calls[index]? =
      some ⟨operation, .isFavorite (.checkAndSaveOrDelete request (.rProverb proverb)), none⟩ →
    outcome = .success

/-- While nothing of the proverb is written, the collection holds what is told of it. -/
theorem Followed.holds_iff (h : Followed user ids start n s) {origin : Identifier}
    (hcall : s.calls[index]? = some call) (htarget : call.target = some origin)
    (hresponse : call.response ≠ some .written) :
    (s.firestore.favorites user).Holds origin ↔ origin ∈ s.told start n := by
  refine h.settled origin fun other hother hsame => ?_
  rcases List.mem_cons.mp ((InFlight.perm_eraseIdx hcall).mem_iff.mpr hother) with rfl | hin
  · exact hresponse
  · exact absurd hsame (InFlight.target_ne_of_mem_eraseIdx h.alone hcall htarget hin)

theorem Followed.servedSave (h : Followed user ids start n s) {favorite : FFavoriteProverb}
    {request : Nat}
    (hcall : s.calls[index]? = some ⟨.setData user favorite,
      .save request ⟨none, favorite.originIdentifier⟩ favorite, none⟩)
    (htold : favorite.originIdentifier ∉ s.told start n) :
    Followed user ids start n { s with
      firestore := s.firestore.updateFavorites user (KeyedStore.put (Document.ofFavorite favorite))
      calls := s.calls.set index ⟨.setData user favorite,
        .save request ⟨none, favorite.originIdentifier⟩ favorite, some .written⟩ } := by
  have hholds := h.holds_iff hcall rfl (by simp)
  have hwritten := h.fresh_write hcall rfl
  have hnew : ∀ document ∈ s.firestore.favorites user,
      document.documentID ≠ favorite.identifier := by
    intro document hmem hid
    exact (List.nodup_cons.mp hwritten.nodup).1
      (List.mem_append_right _ (List.mem_map.mpr ⟨document, hmem, hid⟩))
  have hcollection := Firestore.favorites_updateFavorites_self s.firestore user
    (KeyedStore.put (Document.ofFavorite favorite))
  refine h.served hcall rfl ?_ ?_ ?_ ?_ fun hne => absurd rfl hne
  · rw [hcollection]
    exact h.kept.put hnew fun hheld => htold (hholds.mp hheld)
  · intro other hother
    rw [hcollection]
    exact sameAt_put hnew hother
  · rw [hcollection]
    refine .saved favorite request htold ?_
    exact ⟨Document.ofFavorite favorite, KeyedStore.mem_put_self _ _, rfl⟩
  · rw [hcollection, KeyedStore.entries_put_of_new hnew, List.map_append, ← List.append_assoc]
    exact hwritten.perm (List.perm_append_singleton _ _)

theorem Followed.servedDelete (h : Followed user ids start n s) {favorite : FFavoriteProverb}
    {request : Nat} {identifiers : ProverbIdentifiers}
    (hcall : s.calls[index]? = some ⟨.deleteDocument user favorite.identifier,
      .delete request identifiers, none⟩)
    (horigin : identifiers.originIdentifier = favorite.originIdentifier)
    (htold : favorite.originIdentifier ∈ s.told start n)
    (hmem : Document.ofFavorite favorite ∈ s.firestore.favorites user) :
    Followed user ids start n { s with
      firestore := s.firestore.updateFavorites user (KeyedStore.erase favorite.identifier)
      calls := s.calls.set index ⟨.deleteDocument user favorite.identifier,
        .delete request identifiers, some .written⟩ } := by
  have hcollection := Firestore.favorites_updateFavorites_self s.firestore user
    (KeyedStore.erase favorite.identifier)
  refine h.served hcall (congrArg some horigin) ?_ ?_ ?_ ?_ fun hne => absurd rfl hne
  · rw [hcollection]
    exact h.kept.erase favorite.identifier
  · intro other hother
    rw [hcollection]
    exact sameAt_erase hmem hother
  · rw [hcollection]
    refine .deleted _ request identifiers (horigin ▸ htold) ?_
    rw [horigin]
    exact h.kept.not_holds_erase hmem
  · rw [hcollection]
    refine (h.fresh_eraseIdx index).sublist (List.Sublist.append_left ?_ _)
    exact List.filter_sublist.map _

theorem Followed.serve (h : Followed user ids start n s) {outcome : Outcome}
    (hlookup : LookupSucceeds s index outcome) :
    Followed user ids start n (s.serve index outcome) := by
  unfold App.serve
  split
  · rename_i operation callback hcall
    have hphase := h.calls _ (List.mem_of_getElem? hcall)
    have herased := h.fresh_eraseIdx index
    cases hphase with
    | listing request =>
        cases outcome <;> exact h.servedQuestion _ hcall rfl rfl (.listing request _)
    | checking origin request =>
        cases outcome <;> exact h.servedQuestion _ hcall rfl rfl (.checking origin request _)
    | lookupSent proverb request =>
        obtain rfl := hlookup _ _ _ hcall
        have hholds := h.holds_iff hcall rfl (by simp)
        refine h.served hcall rfl h.kept (fun _ _ => .refl) (.lookedUp proverb request _ ?_)
          herased fun _ => hholds
        rw [h.kept.whereOriginIdentifier_eq_nil, hholds]
    | saveSent favorite request htold =>
        cases outcome with
        | error =>
            have hholds := h.holds_iff hcall rfl (by simp)
            exact h.served hcall rfl h.kept (fun _ _ => .refl) (.saveRefused favorite request)
              herased fun _ => hholds
        | success => exact h.servedSave hcall htold
        | nothing => exact h.servedSave hcall htold
    | searchSent origin request htold =>
        have hholds := h.holds_iff hcall rfl (by simp)
        cases outcome with
        | error =>
            exact h.served hcall rfl h.kept (fun _ _ => .refl)
              (.searched origin request .error htold (by simp)
                (by simp [FirestoreManager.getFavoriteResult])) herased fun _ => hholds
        | nothing =>
            exact h.served hcall rfl h.kept (fun _ _ => .refl)
              (.searched origin request .nothing htold (by simp)
                (by simp [FirestoreManager.getFavoriteResult])) herased fun _ => hholds
        | success =>
            refine h.served hcall rfl h.kept (fun _ _ => .refl)
              (.searched origin request _ htold (by simp) ?_) herased fun _ => hholds
            intro favorite hfavorite
            exact h.kept.getFavorite_found hfavorite
    | deleteSent favorite request identifiers horigin htold hmem =>
        cases outcome with
        | error =>
            have hholds := h.holds_iff hcall rfl (by simp)
            exact h.served hcall rfl h.kept (fun _ _ => .refl)
              (.deleteRefused _ request identifiers) herased fun _ => hholds
        | success => exact h.servedDelete hcall horigin htold hmem
        | nothing => exact h.servedDelete hcall horigin htold hmem
  · exact h

end Serving

/-! ## Answering -/

section Delivering

variable {user : UserIdentifier} {ids start : Set Identifier} {n : Nat} {s s' : App}
  {index : Nat} {call new : Call} {origin : Identifier} {outputs : List Output}

theorem changes_append (hlength : n ≤ s.outputs.length)
    (houtputs : s'.outputs = s.outputs ++ outputs) :
    (s'.outputs.drop n).filterMap Output.change =
      (s.outputs.drop n).filterMap Output.change ++ outputs.filterMap Output.change := by
  rw [houtputs, List.drop_append_of_le_length hlength, List.filterMap_append]

theorem Followed.mem_eraseIdx_iff (hcall : s.calls[index]? = some call)
    (htarget : call.target = some origin) {other : Call} (hother : other.target ≠ some origin) :
    other ∈ s.calls.eraseIdx index ↔ other ∈ s.calls := by
  rw [← (InFlight.perm_eraseIdx hcall).mem_iff, List.mem_cons]
  refine (or_iff_right fun hsame => hother ?_).symm
  rw [hsame, htarget]

/-- An answer that ends the change of a proverb with a notification. -/
theorem Followed.posted (h : Followed user ids start n s) (outputs : List Output)
    (hcall : s.calls[index]? = some call)
    (htarget : call.target = some origin) (hmode : RemoteMode user s')
    (hfirestore : s'.firestore = s.firestore) (hcalls : s'.calls = s.calls.eraseIdx index)
    (houtputs : s'.outputs = s.outputs ++ outputs) {change : Change Identifier}
    (hchange : outputs.filterMap Output.change = [change]) (hkey : change.key = origin)
    (hlegal : change.Legal (s.told start n))
    (hsettled : (s.firestore.favorites user).Holds origin ↔
      origin ∈ change.apply (s.told start n)) :
    Followed user ids start n s' := by
  have hchanges := changes_append h.length houtputs
  rw [hchange] at hchanges
  have htold : s'.told start n = change.apply (s.told start n) := by
    unfold told
    rw [hchanges, after_concat]
  refine h.moved origin hmode ?_ ?_ ?_ ?_ ?_ ?_ ?_ ?_ ?_
  · rw [hfirestore]
    exact h.kept
  · rw [houtputs, List.length_append]
    exact h.length.trans (Nat.le_add_right _ _)
  · rw [hchanges]
    exact legal_concat.mpr ⟨h.legal, hlegal⟩
  · intro other hother
    rw [hfirestore, htold]
    exact ⟨fun _ _ => Iff.rfl, Change.mem_apply_of_ne (hkey ▸ hother)⟩
  · intro other hother
    rw [hcalls]
    exact Followed.mem_eraseIdx_iff hcall htarget hother
  · intro other hin hown
    rw [hcalls] at hin
    exact absurd hown (InFlight.target_ne_of_mem_eraseIdx h.alone hcall htarget hin)
  · rw [hcalls]
    exact InFlight.nodup_filterMap_eraseIdx h.alone index
  · rw [hcalls, hfirestore]
    exact h.fresh_eraseIdx index
  · intro _
    rw [hfirestore, htold]
    exact hsettled

/-- An answer without a notification: the change has ended, or goes on with its next
call. -/
theorem Followed.goneOn (h : Followed user ids start n s) (next : Option Call)
    (hcall : s.calls[index]? = some call)
    (htarget : call.target = some origin) (hresponse : call.response ≠ some .written)
    (hmode : RemoteMode user s') (hfirestore : s'.firestore = s.firestore)
    (hcalls : s'.calls = s.calls.eraseIdx index ++ next.toList)
    (houtputs : s'.outputs = s.outputs ++ outputs)
    (hchange : outputs.filterMap Output.change = [])
    (hnext : ∀ new ∈ next, new.target = some origin ∧
      Phase user (s.firestore.favorites user) (s.told start n) new ∧
      ∀ documentID, new.writes = some documentID → documentID ∈ ids ∧
        documentID ∉ s.calls.filterMap Call.writes ++
          (s.firestore.favorites user).entries.map Document.documentID) :
    Followed user ids start n s' := by
  have hchanges := changes_append h.length houtputs
  rw [hchange, List.append_nil] at hchanges
  have htold : s'.told start n = s.told start n := congrArg (after start) hchanges
  refine h.moved origin hmode ?_ ?_ ?_ ?_ ?_ ?_ ?_ ?_ ?_
  · rw [hfirestore]
    exact h.kept
  · rw [houtputs, List.length_append]
    exact h.length.trans (Nat.le_add_right _ _)
  · rw [hchanges]
    exact h.legal
  · intro other _
    rw [hfirestore, htold]
    exact .refl
  · intro other hother
    rw [hcalls, List.mem_append, Option.mem_toList,
      Followed.mem_eraseIdx_iff hcall htarget hother]
    exact or_iff_left fun hnew => hother (hnext other hnew).1
  · intro other hin hown
    rw [hcalls, List.mem_append, Option.mem_toList] at hin
    rw [hfirestore, htold]
    rcases hin with hin | hnew
    · exact absurd hown (InFlight.target_ne_of_mem_eraseIdx h.alone hcall htarget hin)
    · exact (hnext other hnew).2.1
  · rw [hcalls]
    cases next with
    | none =>
        rw [Option.toList_none, List.append_nil]
        exact InFlight.nodup_filterMap_eraseIdx h.alone index
    | some new =>
        exact InFlight.nodup_filterMap_eraseIdx_concat h.alone hcall htarget (hnext new rfl).1
  · rw [hcalls, hfirestore]
    have herased := h.fresh_eraseIdx index
    cases next with
    | none =>
        rw [Option.toList_none, List.append_nil]
        exact herased
    | some new =>
        cases hwrites : new.writes with
        | none => simpa [hwrites] using herased
        | some documentID =>
            obtain ⟨hids, hnew⟩ := (hnext new rfl).2.2 documentID hwrites
            have hsub : ((s.calls.eraseIdx index).filterMap Call.writes ++
                (s.firestore.favorites user).entries.map Document.documentID) ⊆
                s.calls.filterMap Call.writes ++
                  (s.firestore.favorites user).entries.map Document.documentID :=
              (((List.eraseIdx_sublist s.calls index).filterMap _).append_right _).subset
            have hcons := herased.cons hids fun hin => hnew (hsub hin)
            rw [List.filterMap_append, List.append_assoc]
            refine hcons.perm ?_
            simp [hwrites]
  · intro _
    rw [hfirestore, htold]
    exact h.holds_iff hcall htarget hresponse

theorem Followed.answeredQuestion (h : Followed user ids start n s)
    (hcall : s.calls[index]? = some call) (htarget : call.target = none)
    (hwrites : call.writes = none) (hmode : RemoteMode user s')
    (hfirestore : s'.firestore = s.firestore) (hcalls : s'.calls = s.calls.eraseIdx index)
    (houtputs : s'.outputs = s.outputs ++ outputs)
    (hchange : outputs.filterMap Output.change = []) : Followed user ids start n s' := by
  have hchanges := changes_append h.length houtputs
  rw [hchange, List.append_nil] at hchanges
  have hperm := InFlight.perm_eraseIdx hcall
  refine h.asked hmode (by rw [hfirestore]) ?_ hchanges ?_ ?_ ?_ ?_
  · rw [houtputs, List.length_append]
    exact h.length.trans (Nat.le_add_right _ _)
  · intro other hin
    rw [hcalls] at hin
    exact h.calls other (List.mem_of_mem_eraseIdx hin)
  · have htargets := hperm.filterMap Call.target
    rw [List.filterMap_cons_none htarget] at htargets
    rw [hcalls]
    exact htargets
  · have hsame := hperm.filterMap Call.writes
    rw [List.filterMap_cons_none hwrites] at hsame
    rw [hcalls]
    exact hsame
  · intro other hin htargeted
    rw [hcalls]
    rcases List.mem_cons.mp (hperm.mem_iff.mpr hin) with rfl | hin
    · exact absurd htarget htargeted
    · exact hin

/-- The identifier drawn for a favourite is not in use. -/
def DrawsFresh (user : UserIdentifier) (s : App) (random : Identifier) : Prop :=
  random ∉ s.calls.filterMap Call.writes ++
    (s.firestore.favorites user).entries.map Document.documentID

theorem Followed.deliver (h : Followed user ids start n s) {random : Identifier} {now : Date}
    (hfresh : DrawsFresh user s random) (hids : random ∈ ids) :
    ∃ s', s.deliver index random now = some s' ∧ Followed user ids start n s' := by
  unfold App.deliver
  split
  · rename_i operation callback response hcall
    have hphase := h.calls _ (List.mem_of_getElem? hcall)
    have hmode : RemoteMode user { s with calls := s.calls.eraseIdx index } :=
      ⟨h.mode.plan, h.mode.collection⟩
    cases hphase with
    | listing request =>
        exact ⟨_, rfl, h.answeredQuestion hcall rfl rfl ⟨h.mode.plan, h.mode.collection⟩ rfl rfl rfl
          rfl⟩
    | checking origin request =>
        exact ⟨_, rfl, h.answeredQuestion hcall rfl rfl ⟨h.mode.plan, h.mode.collection⟩ rfl rfl rfl
          rfl⟩
    | lookedUp proverb request documents hfound =>
        cases documents with
        | nil =>
            refine ⟨_, hmode.save_eq proverb request random now, ?_⟩
            let favorite := FFavoriteProverb.ofRProverb random now proverb
            refine h.goneOn (some ⟨.setData user favorite,
              .save request ⟨none, proverb.identifier⟩ favorite, none⟩) hcall rfl (by simp)
              ⟨h.mode.plan, h.mode.collection⟩ rfl rfl rfl rfl ?_
            intro new hnew
            obtain rfl := Option.some.inj hnew
            refine ⟨rfl, .saveSent favorite request (hfound.mp rfl), fun documentID hwrites => ?_⟩
            obtain rfl := Option.some.inj hwrites
            exact ⟨hids, hfresh⟩
        | cons document documents =>
            refine ⟨_, hmode.delete_eq proverb request, ?_⟩
            refine h.goneOn (some ⟨.whereOriginIdentifier user proverb.identifier,
              .getFavorite request ⟨none, proverb.identifier⟩, none⟩) hcall rfl (by simp)
              ⟨h.mode.plan, h.mode.collection⟩ rfl rfl (List.append_nil _).symm rfl ?_
            intro new hnew
            obtain rfl := Option.some.inj hnew
            refine ⟨rfl, .searchSent proverb.identifier request ?_, by simp [Call.writes]⟩
            by_contra htold
            exact absurd (hfound.mpr htold) (by simp)
    | saved favorite request htold hholds =>
        let ids : ProverbIdentifiers := ⟨none, favorite.originIdentifier⟩
        refine ⟨_, rfl, h.posted [.didSave ids, .saved request (.ok (.fFavorite favorite))] hcall
          rfl ⟨h.mode.plan, h.mode.collection⟩ rfl rfl ?_ rfl rfl htold ?_⟩
        · simp [saveCompleted, FirestoreManager.saveResult, output, Except.map, ids]
        · exact iff_of_true hholds (Set.mem_insert _ _)
    | saveRefused favorite request =>
        exact ⟨_, rfl, h.goneOn none hcall rfl (by simp) ⟨h.mode.plan, h.mode.collection⟩ rfl
          (List.append_nil _).symm rfl rfl (by simp)⟩
    | searched origin request response htold hwritten hfound =>
        have hunwritten : (some response : Option Response) ≠ some .written := by
          simpa using hwritten
        simp only [called]
        cases hresult : FirestoreManager.getFavoriteResult response with
        | ok favorite =>
            obtain ⟨horigin, hmem⟩ := hfound favorite hresult
            refine ⟨_, rfl, ?_⟩
            simp only [favoriteFound]
            rw [hmode.deleteRemote_eq]
            split
            · refine h.goneOn (some ⟨.deleteDocument user favorite.identifier,
                .delete request ⟨none, origin⟩, none⟩) hcall rfl hunwritten
                ⟨h.mode.plan, h.mode.collection⟩ rfl rfl (List.append_nil _).symm rfl ?_
              intro new hnew
              obtain rfl := Option.some.inj hnew
              exact ⟨rfl, .deleteSent favorite request ⟨none, origin⟩ horigin.symm
                (horigin ▸ htold) hmem, by simp [Call.writes]⟩
            · exact h.goneOn none hcall rfl hunwritten ⟨h.mode.plan, h.mode.collection⟩ rfl
                (List.append_nil _).symm (List.append_nil _).symm rfl (by simp)
        | error error =>
            exact ⟨_, rfl, h.goneOn none hcall rfl hunwritten ⟨h.mode.plan, h.mode.collection⟩ rfl
              (List.append_nil _).symm rfl rfl (by simp)⟩
    | deleted documentID request identifiers htold hgone =>
        refine ⟨_, rfl, h.posted [.didDelete identifiers, .deleted request none] hcall rfl
          ⟨h.mode.plan, h.mode.collection⟩ rfl rfl ?_ rfl rfl htold ?_⟩
        · simp [deleteCompleted, FirestoreManager.deleteResult, output]
        · exact iff_of_false hgone (by simp [Change.apply])
    | deleteRefused documentID request identifiers =>
        exact ⟨_, rfl, h.goneOn none hcall rfl (by simp) ⟨h.mode.plan, h.mode.collection⟩ rfl
          (List.append_nil _).symm rfl rfl (by simp)⟩
  · exact ⟨s, rfl, h⟩

end Delivering

/-! ## Runs -/

section Runs

variable {user : UserIdentifier} {ids start : Set Identifier} {n : Nat} {s : App}

/-- What happens while the favourites are on the screens: questions, and changes of
proverbs of which no change is in flight. A favourite to be deleted is one of the
collection, and the lookup of a toggle ends with a snapshot. -/
def Attended (user : UserIdentifier) (s : App) (input : Input) : Prop :=
  match input.event with
  | .getAll | .isFavorite (.rProverb _) => True
  | .checkAndSaveOrDeleteFavorite (.rProverb proverb) =>
      proverb.identifier ∉ s.calls.filterMap Call.target
  | .checkAndSaveOrDeleteFavorite (.fFavorite favorite) | .delete (.fFavorite favorite) =>
      favorite.originIdentifier ∉ s.calls.filterMap Call.target ∧
        Document.ofFavorite favorite ∈ s.firestore.favorites user
  | .serve index outcome => LookupSucceeds s index outcome
  | .deliver _ => DrawsFresh user s input.random
  | _ => False

theorem Followed.sendDelete (h : Followed user ids start n s) {favorite : FFavoriteProverb}
    (hfree : favorite.originIdentifier ∉ s.calls.filterMap Call.target)
    (hmem : Document.ofFavorite favorite ∈ s.firestore.favorites user) :
    ∃ s', s.takeRequest.delete (.fFavorite favorite) s.nextRequest = some s' ∧
      Followed user ids start n s' := by
  have hmode : RemoteMode user s.takeRequest := ⟨h.mode.plan, h.mode.collection⟩
  have hremote : s.takeRequest.isLocalStorage = false := hmode.isLocalStorage
  simp only [delete, readable, if_true, hremote, Bool.false_eq_true, if_false,
    checkAndDeleteRemote]
  rw [hmode.deleteRemote_eq]
  have hholds := h.settled favorite.originIdentifier fun call hcall htarget =>
    absurd (List.mem_filterMap.mpr ⟨call, hcall, htarget⟩) hfree
  have htold := hholds.mp ⟨Document.ofFavorite favorite, hmem, rfl⟩
  split
  · exact ⟨_, rfl, h.send hfree rfl rfl (.deleteSent favorite _ _ rfl htold hmem)⟩
  · exact ⟨_, rfl, ⟨hmode.plan, hmode.collection⟩, h.kept, h.length, h.legal, h.calls, h.alone,
      h.fresh, h.settled⟩

theorem followed_step (h : Followed user ids start n s) {input : Input}
    (hguard : Attended user s input) (hids : input.random ∈ ids) :
    ∃ s', step s input = some s' ∧ Followed user ids start n s' := by
  obtain ⟨event, random, now⟩ := input
  have hmode : RemoteMode user s.takeRequest := ⟨h.mode.plan, h.mode.collection⟩
  have hremote : s.takeRequest.isLocalStorage = false := hmode.isLocalStorage
  obtain ⟨manager, hmanager, huser⟩ := hmode.manager
  cases event with
  | getAll =>
      simp only [step, getAll]
      rw [hremote, hmanager]
      simp only [Bool.false_eq_true, if_false, FirestoreManager.getAllFavoriteProverbs, huser]
      exact ⟨_, rfl, h.ask rfl rfl (.listing _ none)⟩
  | isFavorite proverb =>
      cases proverb with
      | rProverb proverb =>
          simp only [step, isFavorite]
          rw [hremote]
          simp only [Bool.false_eq_true, if_false, isFavoriteRemote]
          rw [hmanager]
          simp only [FirestoreManager.isFavorite, huser]
          exact ⟨_, rfl, h.ask rfl rfl (.checking proverb.identifier _ none)⟩
      | rFavorite f => exact hguard.elim
      | fFavorite f => exact hguard.elim
  | checkAndSaveOrDeleteFavorite proverb =>
      cases proverb with
      | rProverb proverb =>
          rw [h.mode.toggle_eq]
          exact ⟨_, rfl, h.send hguard rfl rfl (.lookupSent proverb _)⟩
      | rFavorite f => exact hguard.elim
      | fFavorite favorite =>
          have htoggle : step s ⟨.checkAndSaveOrDeleteFavorite (.fFavorite favorite), random, now⟩ =
              s.takeRequest.delete (.fFavorite favorite) s.nextRequest := by
            simp only [step, isFavorite]
            rw [hremote]
            rfl
          rw [htoggle]
          exact h.sendDelete hguard.1 hguard.2
  | delete proverb =>
      cases proverb with
      | rProverb proverb => exact hguard.elim
      | rFavorite f => exact hguard.elim
      | fFavorite favorite => exact h.sendDelete hguard.1 hguard.2
  | serve index outcome => exact ⟨_, rfl, h.serve hguard⟩
  | deliver index => exact h.deliver hguard hids
  | _ => exact hguard.elim

def posted (s t : App) : List (Change Identifier) :=
  (t.outputs.drop s.outputs.length).filterMap Output.change

theorem Followed.addressed (h : Followed user ids start n s) {input : Input}
    (hguard : Attended user s input) : ∀ documentID ∈ s.addressedBy input, documentID ∈ ids := by
  have hstored : ∀ favorite, Document.ofFavorite favorite ∈ s.firestore.favorites user →
      ∀ documentID ∈ s.deletedDocument favorite, documentID ∈ ids := by
    intro favorite hmem documentID haddressed
    rw [deletedDocument, h.mode.collection, Option.isSome_some, if_pos rfl,
      List.mem_singleton] at haddressed
    rw [haddressed]
    exact h.fresh.mem _ (List.mem_append_right _ (List.mem_map.mpr ⟨_, hmem, rfl⟩))
  obtain ⟨event, random, now⟩ := input
  cases event with
  | delete proverb | checkAndSaveOrDeleteFavorite proverb =>
      cases proverb with
      | rProverb proverb => simp [addressedBy, addressedByDelete]
      | rFavorite f => exact hguard.elim
      | fFavorite favorite =>
          simp only [addressedBy, addressedByDelete, h.mode.isLocalStorage]
          exact hstored favorite hguard.2
  | deliver index =>
      simp only [addressedBy]
      split
      · rename_i operation callback response hcall
        have hphase := h.calls _ (List.mem_of_getElem? hcall)
        cases hphase with
        | searched origin request response htold hwritten hfound =>
            simp only [addressedByCallback]
            cases hresult : FirestoreManager.getFavoriteResult response with
            | ok favorite => exact hstored favorite (hfound favorite hresult).2
            | error error => simp
        | lookedUp => simp [addressedByCallback, addressedByDelete]
        | _ => simp [addressedByCallback]
      · simp
  | _ => simp [addressedBy]

theorem Followed.aborted_step (h : Followed user ids start n s) {input : Input}
    (hguard : Attended user s input) (hpaths : ∀ documentID ∈ ids, isDocumentPath documentID = true)
    {s' : App} (hs : step s input = some s') : s'.aborted = s.aborted := by
  have hleaves : Leaves s s' (s.writtenBy input) (s.addressedBy input) := by
    obtain ⟨event, random, now⟩ := input
    cases event with
    | launch => exact hguard.elim
    | realmWrites => exact hguard.elim
    | _ => exact leaves_step (by simp) (by simp) hs
  have hall : (s.addressedBy input).all isDocumentPath = true := by
    rw [List.all_eq_true]
    exact fun documentID hmem => hpaths documentID (h.addressed hguard documentID hmem)
  rw [hleaves.aborted, hall, Bool.not_true, Bool.or_false]

theorem followed_run (h : Followed user ids start n s) {inputs : List Input}
    (hguard : Transition.Along step (Attended user) s inputs)
    (hids : ∀ input ∈ inputs, input.random ∈ ids) :
    ∃ t, Transition.run step s inputs = some t ∧ Followed user ids start n t ∧
      ((∀ documentID ∈ ids, isDocumentPath documentID = true) → t.aborted = s.aborted) := by
  induction inputs generalizing s with
  | nil => exact ⟨s, rfl, h, fun _ => rfl⟩
  | cons input inputs ih =>
      obtain ⟨s', hs, hnext⟩ := followed_step h hguard.1 (hids input List.mem_cons_self)
      obtain ⟨t, ht, hend, haborted⟩ := ih hnext (hguard.2 s' hs) fun other hmem =>
        hids other (List.mem_cons_of_mem _ hmem)
      refine ⟨t, Transition.run_cons_eq_some.mpr ⟨s', hs, ht⟩, hend, fun hpaths => ?_⟩
      rw [haborted hpaths, h.aborted_step hguard.1 hpaths hs]

theorem followed_start (hmode : RemoteMode user s) (hcalls : s.calls = [])
    (hkept : (s.firestore.favorites user).Kept)
    (hids : ∀ document ∈ s.firestore.favorites user, document.documentID ∈ ids) :
    Followed user ids (s.firestore.favorites user).origins s.outputs.length s := by
  have hnone : (s.outputs.drop s.outputs.length).filterMap Output.change = [] := by simp
  refine ⟨hmode, hkept, Nat.le_refl _, ?_, ?_, ?_, ⟨?_, ?_⟩, ?_⟩
  · rw [hnone]
    trivial
  · simp [hcalls]
  · simp [hcalls]
  · simpa [hcalls] using (s.firestore.favorites user).nodup
  · intro documentID hmem
    rw [hcalls, List.filterMap_nil, List.nil_append] at hmem
    obtain ⟨document, hdocument, rfl⟩ := List.mem_map.mp hmem
    exact hids document hdocument
  · intro origin _
    unfold told
    rw [hnone]
    exact Iff.rfl

/-- In remote mode, with nothing in flight at the start and changes of one proverb one
after the other, however the calls of several proverbs are interleaved and whichever
writes fail: no run stops, the collection keeps one document for each origin, the
notifications are a legal history of the set of favourites, and a proverb of which no
change is in flight has a favourite exactly if the history says so. The process is not
ended either, as long as the ids of documents are paths. -/
theorem notifications_tell_collection (hmode : RemoteMode user s) (hcalls : s.calls = [])
    (hkept : (s.firestore.favorites user).Kept) {inputs : List Input}
    (hguard : Transition.Along step (Attended user) s inputs) :
    ∃ t, Transition.run step s inputs = some t ∧ (t.firestore.favorites user).Kept ∧
      Legal (s.firestore.favorites user).origins (posted s t) ∧
      (∀ origin, origin ∉ t.calls.filterMap Call.target →
        (origin ∈ (t.firestore.favorites user).origins ↔
          origin ∈ after (s.firestore.favorites user).origins (posted s t))) ∧
      ((∀ document ∈ s.firestore.favorites user, isDocumentPath document.documentID = true) →
        (∀ input ∈ inputs, isDocumentPath input.random = true) → t.aborted = s.aborted) := by
  have hany : Followed user Set.univ (s.firestore.favorites user).origins s.outputs.length s :=
    followed_start hmode hcalls hkept fun _ _ => Set.mem_univ _
  obtain ⟨t, ht, hend, _⟩ := followed_run hany hguard fun _ _ => Set.mem_univ _
  refine ⟨t, ht, hend.kept, hend.legal, fun origin hfree => ?_, fun hdocuments hinputs => ?_⟩
  · refine hend.settled origin fun call hcall htarget => ?_
    exact absurd (List.mem_filterMap.mpr ⟨call, hcall, htarget⟩) hfree
  · have hpaths : Followed user {documentID | isDocumentPath documentID = true}
        (s.firestore.favorites user).origins s.outputs.length s :=
      followed_start hmode hcalls hkept hdocuments
    obtain ⟨t', ht', _, haborted⟩ := followed_run hpaths hguard hinputs
    rw [Option.some.inj (ht.symm.trans ht')]
    exact haborted fun _ hpath => hpath

/-- Toggles of two proverbs whose lookups are answered the other way round; one write is
refused. -/
def crossedToggles : List Input :=
  [⟨.checkAndSaveOrDeleteFavorite (.rProverb ⟨"1", 0, "", "", "", false⟩), "", 0⟩,
    ⟨.checkAndSaveOrDeleteFavorite (.rProverb ⟨"2", 0, "", "", "", false⟩), "", 0⟩,
    ⟨.serve 0 .success, "", 0⟩, ⟨.serve 1 .success, "", 0⟩, ⟨.deliver 1, "b", 0⟩,
    ⟨.deliver 0, "a", 0⟩, ⟨.serve 0 .error, "", 0⟩, ⟨.serve 1 .success, "", 0⟩,
    ⟨.deliver 1, "c", 0⟩]

theorem notifications_tell_collection_crossed :
    ∃ t, Transition.run step registered crossedToggles = some t ∧
      (t.firestore.favorites "user").Kept ∧
      Legal (registered.firestore.favorites "user").origins (posted registered t) := by
  have hkept : (registered.firestore.favorites "user").Kept :=
    ⟨fun document hmem => absurd hmem List.not_mem_nil, List.nodup_nil⟩
  have hguard : Transition.Along step (Attended "user") registered crossedToggles := by
    refine ⟨List.not_mem_nil, fun s₁ h₁ => ?_⟩
    obtain rfl := Option.some.inj h₁
    refine ⟨show "2" ∉ ["1"] by decide, fun s₂ h₂ => ?_⟩
    obtain rfl := Option.some.inj h₂
    refine ⟨fun _ _ _ _ => rfl, fun s₃ h₃ => ?_⟩
    obtain rfl := Option.some.inj h₃
    refine ⟨fun _ _ _ _ => rfl, fun s₄ h₄ => ?_⟩
    obtain rfl := Option.some.inj h₄
    refine ⟨List.not_mem_nil, fun s₅ h₅ => ?_⟩
    obtain rfl := Option.some.inj h₅
    refine ⟨show "a" ∉ ["b"] by decide, fun s₆ h₆ => ?_⟩
    obtain rfl := Option.some.inj h₆
    refine ⟨fun operation request proverb hcall => ?_, fun s₇ h₇ => ?_⟩
    · have hcallback := congrArg Call.callback (Option.some.inj hcall)
      exact absurd hcallback (by simp)
    obtain rfl := Option.some.inj h₇
    refine ⟨fun _ _ _ _ => rfl, fun s₈ h₈ => ?_⟩
    obtain rfl := Option.some.inj h₈
    exact ⟨show "c" ∉ ["a"] by decide, fun _ _ => trivial⟩
  obtain ⟨t, ht, hkept', hlegal, _⟩ :=
    notifications_tell_collection ⟨rfl, rfl⟩ rfl hkept hguard
  exact ⟨t, ht, hkept', hlegal⟩

end Runs

end App

end Proverbs
