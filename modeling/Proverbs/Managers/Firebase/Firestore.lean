import Mathlib.Data.List.Infix
import Mathlib.Data.List.Sort
import Proverbs.Models.Proverb

/-! # The Firestore service

The remote side as the app sees it: for every user a document that may exist and
a collection of favourites. An operation is carried out at one moment, with an
outcome the environment chooses; what the app's callback is later given is the
response fixed at that moment. A batch is applied as a whole or not at all.
-/

namespace Proverbs

abbrev UserIdentifier := String

/-- `document(_:)` of a collection raises for every other string. -/
def isDocumentPath (identifier : Identifier) : Bool :=
  !decide (['/', '/'] <:+: identifier.toList) &&
    ((identifier.toList.splitOn '/').filter (· ≠ [])).length % 2 == 1

theorem isDocumentPath_of_no_slash {identifier : Identifier} (hne : identifier ≠ "")
    (h : '/' ∉ identifier.toList) : isDocumentPath identifier = true := by
  have hsegments : identifier.toList ≠ [] := by simpa using hne
  have hdouble : ¬ ['/', '/'] <:+: identifier.toList := by
    intro hdouble
    exact h (hdouble.subset List.mem_cons_self)
  simp [isDocumentPath, List.splitOn_eq_singleton h, hsegments, hdouble]

/-- A document of a favourites collection, addressed by its id. -/
structure Document where
  documentID : Identifier
  data : FavoriteFields
deriving DecidableEq, Repr

/-- `collection.document(proverb.identifier)` holding `proverb.dictionary()`. -/
def Document.ofFavorite (proverb : FFavoriteProverb) : Document :=
  ⟨proverb.identifier, proverb.dictionary⟩

def Document.favorite (document : Document) : FFavoriteProverb :=
  FFavoriteProverb.ofDictionary document.data

@[simp] theorem Document.documentID_ofFavorite (proverb : FFavoriteProverb) :
    (Document.ofFavorite proverb).documentID = proverb.identifier := rfl

theorem map_documentID_ofFavorite (batch : List FFavoriteProverb) :
    (batch.map Document.ofFavorite).map Document.documentID =
      batch.map FFavoriteProverb.identifier := by
  simp

abbrev Collection := KeyedStore Document.documentID

namespace Collection

/-- A query without an order returns the documents by ascending id. -/
def documents (collection : Collection) : List Document :=
  collection.entries.insertionSort fun a b => a.documentID ≤ b.documentID

@[simp] theorem mem_documents {collection : Collection} {document : Document} :
    document ∈ collection.documents ↔ document ∈ collection :=
  List.mem_insertionSort _

/-- Some document is decoded to a favourite of this catalogue proverb. -/
def Holds (collection : Collection) (originIdentifier : Identifier) : Prop :=
  ∃ document ∈ collection, document.favorite.originIdentifier = originIdentifier

instance (collection : Collection) (originIdentifier : Identifier) :
    Decidable (collection.Holds originIdentifier) :=
  inferInstanceAs (Decidable (∃ document ∈ collection.entries, _ = originIdentifier))

/-- The documents a query on the `originIdentifier` field matches. -/
def whereOriginIdentifier (collection : Collection) (identifier : Identifier) : List Document :=
  collection.documents.filter fun document => document.data.originIdentifier = some identifier

end Collection

structure Firestore where
  userExists : UserIdentifier → Bool
  favorites : UserIdentifier → Collection

inductive Operation where
  | getUserDocument (user : UserIdentifier)
  | setUserDocument (user : UserIdentifier)
  | getDocuments (user : UserIdentifier)
  | whereOriginIdentifier (user : UserIdentifier) (identifier : Identifier)
  | commit (user : UserIdentifier) (batch : List FFavoriteProverb)
  | setData (user : UserIdentifier) (proverb : FFavoriteProverb)
  | deleteDocument (user : UserIdentifier) (documentID : Identifier)
deriving DecidableEq, Repr

/-- How an operation ends. A callback without a value needs no error to count as
done, so for a write `nothing` is a success. -/
inductive Outcome where
  | success
  | error
  | nothing
deriving DecidableEq, Repr

/-- What the callback of an operation is given. -/
inductive Response where
  | error
  | nothing
  | userDocument (hasData : Bool)
  | documents (documents : List Document)
  | written
deriving DecidableEq, Repr

namespace Firestore

def setUser (firestore : Firestore) (user : UserIdentifier) : Firestore :=
  { firestore with userExists := Function.update firestore.userExists user true }

def updateFavorites (firestore : Firestore) (user : UserIdentifier)
    (change : Collection → Collection) : Firestore :=
  { firestore with
    favorites := Function.update firestore.favorites user (change (firestore.favorites user)) }

@[simp] theorem favorites_updateFavorites_self (firestore : Firestore) (user : UserIdentifier)
    (change : Collection → Collection) :
    (firestore.updateFavorites user change).favorites user = change (firestore.favorites user) := by
  simp [updateFavorites]

theorem favorites_updateFavorites_ne (firestore : Firestore) {user other : UserIdentifier}
    (change : Collection → Collection) (h : other ≠ user) :
    (firestore.updateFavorites user change).favorites other = firestore.favorites other := by
  simp [updateFavorites, h]

def query (firestore : Firestore) (outcome : Outcome) (found : Response) :
    Firestore × Response :=
  match outcome with
  | .success => (firestore, found)
  | .error => (firestore, .error)
  | .nothing => (firestore, .nothing)

/-- A write that reports an error has written nothing. -/
def write (firestore : Firestore) (outcome : Outcome) (written : Firestore) :
    Firestore × Response :=
  match outcome with
  | .error => (firestore, .error)
  | .success | .nothing => (written, .written)

def serve (firestore : Firestore) (operation : Operation) (outcome : Outcome) :
    Firestore × Response :=
  match operation with
  | .getUserDocument user =>
      firestore.query outcome (.userDocument (firestore.userExists user))
  | .setUserDocument user => firestore.write outcome (firestore.setUser user)
  | .getDocuments user =>
      firestore.query outcome (.documents (firestore.favorites user).documents)
  | .whereOriginIdentifier user identifier =>
      firestore.query outcome
        (.documents ((firestore.favorites user).whereOriginIdentifier identifier))
  | .commit user batch =>
      firestore.write outcome <|
        firestore.updateFavorites user (KeyedStore.putAll (batch.map Document.ofFavorite))
  | .setData user proverb =>
      firestore.write outcome <|
        firestore.updateFavorites user (KeyedStore.put (Document.ofFavorite proverb))
  | .deleteDocument user documentID =>
      firestore.write outcome <| firestore.updateFavorites user (KeyedStore.erase documentID)

end Firestore

end Proverbs
