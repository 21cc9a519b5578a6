import Proverbs.LocalStorages.LocalStorage

/-! # The three kinds of proverb

A catalogue proverb (`RProverb`), a favourite kept in Realm (`RFavoriteProverb`)
and a favourite kept in Firestore (`FFavoriteProverb`), with the conversions
between them. Random identifiers and the current time are arguments: they are
drawn by the caller's environment.
-/

namespace Proverbs

/-- An instant, counted from 1970. -/
abbrev Date := Int

def Date.zero : Date := 0

/-- Firestore's `Timestamp(date:)` with `dateValue()`. -/
structure Timestamp where
  dateValue : Date
deriving DecidableEq, Repr

structure RProverb where
  identifier : Identifier
  createdAt : Date
  text : String
  meaning : String
  proverbSection : String
  viewed : Bool
deriving DecidableEq, Repr

structure RFavoriteProverb where
  identifier : Identifier
  originIdentifier : Identifier
  createdAt : Date
  text : String
  meaning : String
  proverbSection : String
deriving DecidableEq, Repr

/-- A remote favourite; its text and meaning are looked up in the catalogue. -/
structure FFavoriteProverb where
  identifier : Identifier
  originIdentifier : Identifier
  createdAt : Date
  proverbSection : String
deriving DecidableEq, Repr

instance : RealmObject RProverb := ⟨RProverb.identifier⟩

instance : RealmObject RFavoriteProverb := ⟨RFavoriteProverb.identifier⟩

/-- `RFavoriteProverb(rProverb:)`: `random` is `String.random()`, `now` is `Date()`. -/
def RFavoriteProverb.ofRProverb (random : Identifier) (now : Date) (rProverb : RProverb) :
    RFavoriteProverb where
  identifier := random
  originIdentifier := rProverb.identifier
  createdAt := now
  text := rProverb.text
  meaning := rProverb.meaning
  proverbSection := rProverb.proverbSection

/-- The fields of a favourite document; a field that is missing or holds a value
of another type is `none`. -/
structure FavoriteFields where
  identifier : Option String
  originIdentifier : Option String
  createdAt : Option Timestamp
  proverbSection : Option String
deriving DecidableEq, Repr

namespace FFavoriteProverb

def ofRFavoriteProverb (rFavoriteProverb : RFavoriteProverb) : FFavoriteProverb where
  identifier := rFavoriteProverb.identifier
  originIdentifier := rFavoriteProverb.originIdentifier
  createdAt := rFavoriteProverb.createdAt
  proverbSection := rFavoriteProverb.proverbSection

def ofRProverb (random : Identifier) (now : Date) (rProverb : RProverb) : FFavoriteProverb where
  identifier := random
  originIdentifier := rProverb.identifier
  createdAt := now
  proverbSection := rProverb.proverbSection

def ofDictionary (dictionary : FavoriteFields) : FFavoriteProverb where
  identifier := dictionary.identifier.getD ""
  originIdentifier := dictionary.originIdentifier.getD ""
  createdAt := (dictionary.createdAt.map Timestamp.dateValue).getD Date.zero
  proverbSection := dictionary.proverbSection.getD ""

def dictionary (f : FFavoriteProverb) : FavoriteFields where
  identifier := some f.identifier
  originIdentifier := some f.originIdentifier
  createdAt := some ⟨f.createdAt⟩
  proverbSection := some f.proverbSection

/-- What is written is what is read back. -/
@[simp] theorem ofDictionary_dictionary (f : FFavoriteProverb) :
    ofDictionary f.dictionary = f := rfl

/-- `ProverbsStorage.getProverb(withIdentifier:)` as the getters use it. -/
def origin (storage : LocalStorage RProverb) (f : FFavoriteProverb) : Option RProverb :=
  storage.get RProverb.identifier f.originIdentifier

def text (storage : LocalStorage RProverb) (f : FFavoriteProverb) : String :=
  ((f.origin storage).map RProverb.text).getD ""

def meaning (storage : LocalStorage RProverb) (f : FFavoriteProverb) : String :=
  ((f.origin storage).map RProverb.meaning).getD ""

end FFavoriteProverb

/-! ## The `Proverb` protocol -/

/-- A value behind the `Proverb` protocol: one of the three classes. -/
inductive Proverb where
  | rProverb (proverb : RProverb)
  | rFavorite (proverb : RFavoriteProverb)
  | fFavorite (proverb : FFavoriteProverb)
deriving DecidableEq, Repr

namespace Proverb

def identifier : Proverb → Identifier
  | rProverb p => p.identifier
  | rFavorite p => p.identifier
  | fFavorite p => p.identifier

def createdAt : Proverb → Date
  | rProverb p => p.createdAt
  | rFavorite p => p.createdAt
  | fFavorite p => p.createdAt

def isRealm : Proverb → Bool
  | rProverb _ => true
  | rFavorite _ => true
  | fFavorite _ => false

def text (storage : LocalStorage RProverb) : Proverb → String
  | rProverb p => p.text
  | rFavorite p => p.text
  | fFavorite p => p.text storage

def meaning (storage : LocalStorage RProverb) : Proverb → String
  | rProverb p => p.meaning
  | rFavorite p => p.meaning
  | fFavorite p => p.meaning storage

def proverbSection : Proverb → String
  | rProverb p => p.proverbSection
  | rFavorite p => p.proverbSection
  | fFavorite p => p.proverbSection

def originIdentifier? : Proverb → Option Identifier
  | rProverb _ => none
  | rFavorite p => some p.originIdentifier
  | fFavorite p => some p.originIdentifier

end Proverb

end Proverbs
