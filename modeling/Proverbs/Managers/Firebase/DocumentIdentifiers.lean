import Mathlib.Algebra.Group.Nat.Defs
import Proverbs.Core.Transition
import Proverbs.Managers.Firebase.FirestoreManager

/-! # Documents and their identifiers

A favourite is written under its own identifier and read back from the document's
fields. A deletion decodes the document and takes the identifier of the result for
the document's id, so it is right as long as the two agree. Every write keeps them
equal, and identifiers are UUIDs, which are paths of documents and so never empty.
-/

namespace Proverbs

/-! ## Random identifiers -/

/-- The 128 bits of a `UUID()`. -/
abbrev UUID := BitVec 128

namespace UUID

/-- Hexadecimal digits in upper case, the first one the most significant. -/
def digits (uuid : UUID) (first count : Nat) : List Char :=
  (List.range' first count).map fun i => (uuid.toNat / 16 ^ (31 - i) % 16).digitChar.toUpper

def uuidString (uuid : UUID) : String :=
  String.ofList <| uuid.digits 0 8 ++ '-' :: uuid.digits 8 4 ++ '-' :: uuid.digits 12 4 ++
    '-' :: uuid.digits 16 4 ++ '-' :: uuid.digits 20 12

theorem length_digits (uuid : UUID) (first count : Nat) :
    (uuid.digits first count).length = count := by
  rw [digits, List.length_map, List.length_range']

theorem length_uuidString (uuid : UUID) : uuid.uuidString.length = 36 := by
  simp only [uuidString, String.length_ofList, List.length_append, List.length_cons,
    length_digits]

theorem uuidString_ne_empty (uuid : UUID) : uuid.uuidString ≠ "" := by
  intro h
  have hlength := length_uuidString uuid
  rw [h] at hlength
  exact absurd hlength (by decide)

theorem digits_ne_slash (uuid : UUID) (first count : Nat) : '/' ∉ uuid.digits first count := by
  intro h
  obtain ⟨i, _, hdigit⟩ := List.mem_map.mp h
  have hhex : ∀ digit < 16, digit.digitChar.toUpper ≠ '/' := by decide
  exact hhex _ (Nat.mod_lt _ (by decide)) hdigit

theorem isDocumentPath_uuidString (uuid : UUID) : isDocumentPath uuid.uuidString = true := by
  apply isDocumentPath_of_no_slash uuid.uuidString_ne_empty
  simp [uuidString, digits_ne_slash]

end UUID

/-! ## Favourites that are written -/

/-- How the app comes to a favourite it writes: from a catalogue proverb, or from a
local favourite, itself made from a catalogue proverb. `uuid` is `String.random()`. -/
inductive BuiltFavorite where
  | ofRProverb (uuid : UUID) (now : Date) (rProverb : RProverb)
  | ofRFavoriteProverb (uuid : UUID) (now : Date) (rProverb : RProverb)
deriving DecidableEq, Repr

namespace BuiltFavorite

def proverb : BuiltFavorite → FFavoriteProverb
  | ofRProverb uuid now rProverb => FFavoriteProverb.ofRProverb uuid.uuidString now rProverb
  | ofRFavoriteProverb uuid now rProverb =>
      FFavoriteProverb.ofRFavoriteProverb
        (RFavoriteProverb.ofRProverb uuid.uuidString now rProverb)

theorem isDocumentPath_identifier (built : BuiltFavorite) :
    isDocumentPath built.proverb.identifier = true := by
  cases built with
  | ofRProverb uuid now rProverb => exact uuid.isDocumentPath_uuidString
  | ofRFavoriteProverb uuid now rProverb => exact uuid.isDocumentPath_uuidString

end BuiltFavorite

inductive FavoritesMethod where
  | save (proverb : BuiltFavorite)
  | saveAll (proverbs : List BuiltFavorite)
  | delete (proverb : FFavoriteProverb)
deriving DecidableEq, Repr

/-- A call of a method on some manager, and how the operation it sends ends. -/
structure FavoritesCall where
  manager : FirestoreManager
  method : FavoritesMethod
  outcome : Outcome
deriving DecidableEq, Repr

def Request.operation {α : Type} : Request α → Option Operation
  | .sent operation => some operation
  | .answered _ => none

namespace FavoritesCall

def operation (call : FavoritesCall) : Option Operation :=
  match call.method with
  | .save proverb => (call.manager.save proverb.proverb).operation
  | .saveAll proverbs => (call.manager.saveAll (proverbs.map BuiltFavorite.proverb)).operation
  | .delete proverb => (call.manager.delete proverb).bind Request.operation

end FavoritesCall

namespace Firestore

def favoritesStep (firestore : Firestore) (call : FavoritesCall) : Option Firestore :=
  match call.operation with
  | some operation => some (firestore.serve operation call.outcome).1
  | none => some firestore

end Firestore

/-! ## The invariant -/

/-- The document's id is the identifier it stores, and a path. -/
def Document.Addressed (document : Document) : Prop :=
  document.data.identifier = some document.documentID ∧ isDocumentPath document.documentID = true

def Collection.Addressed (collection : Collection) : Prop :=
  ∀ document ∈ collection, document.Addressed

section Addressed

variable {collection : Collection} {document : Document}

theorem Document.addressed_ofFavorite {proverb : FFavoriteProverb}
    (h : isDocumentPath proverb.identifier = true) : (Document.ofFavorite proverb).Addressed :=
  ⟨rfl, h⟩

theorem Document.Addressed.documentID_ne_empty (h : document.Addressed) :
    document.documentID ≠ "" := by
  intro hempty
  have hpath := h.2
  rw [hempty] at hpath
  exact absurd hpath (by decide)

theorem Document.Addressed.identifier_favorite (h : document.Addressed) :
    document.favorite.identifier = document.documentID := by
  unfold favorite FFavoriteProverb.ofDictionary
  rw [h.1]
  rfl

theorem Collection.Addressed.put (h : collection.Addressed) (hdocument : document.Addressed) :
    Collection.Addressed (KeyedStore.put document collection) := by
  intro other hother
  rcases KeyedStore.mem_put.mp hother with rfl | ⟨hmem, _⟩
  · exact hdocument
  · exact h other hmem

theorem Collection.Addressed.putAll (h : collection.Addressed) {documents : List Document}
    (hdocuments : ∀ document ∈ documents, document.Addressed) :
    Collection.Addressed (KeyedStore.putAll documents collection) := by
  induction documents generalizing collection with
  | nil => exact h
  | cons document documents ih =>
      rw [KeyedStore.putAll_cons]
      apply ih
      · exact h.put (hdocuments document List.mem_cons_self)
      · intro other hother
        exact hdocuments other (List.mem_cons_of_mem _ hother)

theorem Collection.Addressed.erase (h : collection.Addressed) (documentID : Identifier) :
    Collection.Addressed (KeyedStore.erase documentID collection) := by
  intro other hother
  exact h other (KeyedStore.mem_erase.mp hother).1

/-- A document deleted by what it decodes to takes no other one with it. -/
theorem Collection.mem_erase_favorite (h : collection.Addressed) (hmem : document ∈ collection)
    {other : Document} :
    other ∈ collection.erase document.favorite.identifier ↔
      other ∈ collection ∧ other ≠ document := by
  rw [KeyedStore.mem_erase, (h document hmem).identifier_favorite]
  constructor
  · rintro ⟨hother, hne⟩
    exact ⟨hother, fun hsame => hne (by rw [hsame])⟩
  · rintro ⟨hother, hne⟩
    exact ⟨hother, fun hkey => hne (KeyedStore.eq_of_key_eq hother hmem hkey)⟩

end Addressed

/-! ## Runs -/

section Runs

variable {firestore t : Firestore} {user : UserIdentifier}

/-- A write to any user's favourites keeps what the change keeps. -/
theorem addressed_write (h : (firestore.favorites user).Addressed) (outcome : Outcome)
    (other : UserIdentifier) {change : Collection → Collection}
    (hchange : ∀ collection : Collection, collection.Addressed → (change collection).Addressed) :
    Collection.Addressed
      ((firestore.write outcome (firestore.updateFavorites other change)).1.favorites user) := by
  have hupdated : ((firestore.updateFavorites other change).favorites user).Addressed := by
    by_cases hother : user = other
    · rw [← hother, Firestore.favorites_updateFavorites_self]
      exact hchange _ h
    · rw [Firestore.favorites_updateFavorites_ne firestore change hother]
      exact h
  cases outcome with
  | success => exact hupdated
  | error => exact h
  | nothing => exact hupdated

theorem addressed_step (h : (firestore.favorites user).Addressed) (call : FavoritesCall)
    (hs : firestore.favoritesStep call = some t) : (t.favorites user).Addressed := by
  unfold Firestore.favoritesStep at hs
  cases hoperation : call.operation with
  | none =>
      rw [hoperation, Option.some.injEq] at hs
      exact hs ▸ h
  | some operation =>
      rw [hoperation, Option.some.injEq] at hs
      rw [← hs]
      unfold FavoritesCall.operation at hoperation
      cases hmethod : call.method with
      | save proverb =>
          simp only [hmethod, FirestoreManager.save] at hoperation
          split at hoperation
          · simp [Request.operation] at hoperation
          · rename_i other _
            rw [← Option.some.inj hoperation]
            apply addressed_write h
            intro collection hcollection
            exact hcollection.put (Document.addressed_ofFavorite proverb.isDocumentPath_identifier)
      | saveAll proverbs =>
          simp only [hmethod, FirestoreManager.saveAll] at hoperation
          split at hoperation
          · simp [Request.operation] at hoperation
          · split at hoperation
            · simp [Request.operation] at hoperation
            · rename_i other _ _
              rw [← Option.some.inj hoperation]
              apply addressed_write h
              intro collection hcollection
              apply hcollection.putAll
              intro document hdocument
              simp only [List.map_map, List.mem_map, Function.comp_apply] at hdocument
              obtain ⟨proverb, _, rfl⟩ := hdocument
              exact Document.addressed_ofFavorite proverb.isDocumentPath_identifier
      | delete proverb =>
          simp only [hmethod] at hoperation
          obtain ⟨request, hrequest, hsent⟩ := Option.bind_eq_some_iff.mp hoperation
          cases request with
          | answered error => simp [Request.operation] at hsent
          | sent sentOperation =>
              obtain ⟨other, _, _, hdelete⟩ := FirestoreManager.delete_sent hrequest
              rw [← Option.some.inj hsent, hdelete]
              apply addressed_write h
              intro collection hcollection
              exact hcollection.erase _

end Runs

/-- After any calls of the three methods, by any managers and with any outcomes, on
favourites the app has built: every document of a collection that was empty is
addressed by the identifier it stores, which is not empty. Decoding one and deleting
the result sends a deletion that, unless it fails, removes this document and no other. -/
theorem documents_addressed_by_identifier {user : UserIdentifier} {firestore t : Firestore}
    (hempty : firestore.favorites user = KeyedStore.empty) {calls : List FavoritesCall}
    (h : Transition.run Firestore.favoritesStep firestore calls = some t) :
    ∀ document ∈ t.favorites user,
      document.data.identifier = some document.documentID ∧ document.documentID ≠ "" ∧
        ∀ manager : FirestoreManager, manager.favoritesCollection = some user →
          ∃ operation, manager.delete document.favorite = some (.sent operation) ∧
            ∀ outcome, outcome ≠ .error → ∀ other,
              other ∈ (t.serve operation outcome).1.favorites user ↔
                other ∈ t.favorites user ∧ other ≠ document := by
  have hstart : (firestore.favorites user).Addressed := by
    intro document hmem
    rw [hempty] at hmem
    exact absurd hmem List.not_mem_nil
  have haddressed : (t.favorites user).Addressed := by
    have hreached : Transition.Reachable Firestore.favoritesStep firestore t := ⟨calls, h⟩
    apply hreached.invariant (I := fun s => (s.favorites user).Addressed)
    · intro s call s' hs hstep
      exact addressed_step hs call hstep
    · exact hstart
  intro document hmem
  have hdocument := haddressed document hmem
  refine ⟨hdocument.1, hdocument.documentID_ne_empty, fun manager hmanager => ?_⟩
  refine ⟨.deleteDocument user document.favorite.identifier, ?_, ?_⟩
  · apply FirestoreManager.delete_of_path hmanager
    rw [hdocument.identifier_favorite]
    exact hdocument.2
  · intro outcome houtcome other
    have hdeleted : (t.serve (.deleteDocument user document.favorite.identifier)
        outcome).1.favorites user =
          (t.favorites user).erase document.favorite.identifier := by
      cases outcome with
      | error => exact absurd rfl houtcome
      | success => exact Firestore.favorites_updateFavorites_self t user _
      | nothing => exact Firestore.favorites_updateFavorites_self t user _
    rw [hdeleted]
    exact Collection.mem_erase_favorite haddressed hmem

def noFavorites : Firestore := ⟨fun _ => false, fun _ => KeyedStore.empty⟩

/-- A favourite is saved, two others are uploaded, and one of them is deleted. -/
def savesAndDeletion : List FavoritesCall :=
  let manager : FirestoreManager := ⟨0, "user", some "user"⟩
  let uploaded : BuiltFavorite := .ofRFavoriteProverb 2 0 ⟨"2", 0, "", "", "", false⟩
  [⟨manager, .save (.ofRProverb 1 0 ⟨"1", 0, "", "", "", false⟩), .success⟩,
    ⟨manager, .saveAll [uploaded, .ofRFavoriteProverb 3 0 ⟨"3", 0, "", "", "", false⟩], .nothing⟩,
    ⟨manager, .delete uploaded.proverb, .success⟩]

theorem documents_addressed_by_identifier_savesAndDeletion :
    ∃ t, Transition.run Firestore.favoritesStep noFavorites savesAndDeletion = some t ∧
      (t.favorites "user").entries.length = 2 ∧
      ∀ document ∈ t.favorites "user", document.documentID ≠ "" := by
  have hempty : noFavorites.favorites "user" = KeyedStore.empty := rfl
  have hrun : (Transition.run Firestore.favoritesStep noFavorites savesAndDeletion).map
      (fun t => (t.favorites "user").entries.length) = some 2 := by
    decide +kernel
  obtain ⟨t, ht, hlength⟩ := Option.map_eq_some_iff.mp hrun
  refine ⟨t, ht, hlength, fun document hmem => ?_⟩
  exact (documents_addressed_by_identifier hempty ht document hmem).2.1

end Proverbs
