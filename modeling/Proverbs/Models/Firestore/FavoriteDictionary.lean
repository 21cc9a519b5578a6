import Proverbs.Core.Dictionary
import Proverbs.Models.Proverb

/-! # Favourites as dictionaries

What Firestore stores for a favourite is a `[String: Any]` dictionary. The rest of the
development works with its four fields (`FavoriteFields`); here the dictionary itself
is built and read under the source's keys, and shown to carry just these fields.
-/

namespace Proverbs

/-- A value of a `[String: Any]` dictionary, as far as the casts of the model see it. -/
inductive FieldValue where
  | string (value : String)
  | timestamp (value : Timestamp)
  | other
deriving DecidableEq, Repr

namespace FieldValue

def string? : FieldValue → Option String
  | string value => some value
  | _ => none

def timestamp? : FieldValue → Option Timestamp
  | timestamp value => some value
  | _ => none

end FieldValue

abbrev FieldDictionary := Dictionary String FieldValue

def FieldDictionary.fields (dictionary : FieldDictionary) : FavoriteFields where
  identifier := (dictionary.value "identifier").bind FieldValue.string?
  originIdentifier := (dictionary.value "originIdentifier").bind FieldValue.string?
  createdAt := (dictionary.value "createdAt").bind FieldValue.timestamp?
  proverbSection := (dictionary.value "section").bind FieldValue.string?

namespace FFavoriteProverb

def fieldDictionary (f : FFavoriteProverb) : FieldDictionary :=
  KeyedStore.putAll
    [("identifier", .string f.identifier),
      ("originIdentifier", .string f.originIdentifier),
      ("createdAt", .timestamp ⟨f.createdAt⟩),
      ("section", .string f.proverbSection)]
    KeyedStore.empty

def ofFieldDictionary (dictionary : FieldDictionary) : FFavoriteProverb where
  identifier := ((dictionary.value "identifier").bind FieldValue.string?).getD ""
  originIdentifier := ((dictionary.value "originIdentifier").bind FieldValue.string?).getD ""
  createdAt := (((dictionary.value "createdAt").bind FieldValue.timestamp?).map
    Timestamp.dateValue).getD Date.zero
  proverbSection := ((dictionary.value "section").bind FieldValue.string?).getD ""

/-! ## The dictionary and its fields -/

theorem ofFieldDictionary_eq (dictionary : FieldDictionary) :
    ofFieldDictionary dictionary = ofDictionary dictionary.fields := rfl

@[simp] theorem fields_fieldDictionary (f : FFavoriteProverb) :
    f.fieldDictionary.fields = f.dictionary := by
  rfl

/-- What is stored is what is read back. -/
theorem ofFieldDictionary_fieldDictionary (f : FFavoriteProverb) :
    ofFieldDictionary f.fieldDictionary = f := by
  rw [ofFieldDictionary_eq, fields_fieldDictionary, ofDictionary_dictionary]

/-! ## A migrated favourite -/

/-- The remote favourite shows what the local one does, in all that a screen reads. -/
structure LooksSame (catalogue : LocalStorage RProverb) (favorite : RFavoriteProverb)
    (migrated : FFavoriteProverb) : Prop where
  identifier : migrated.identifier = favorite.identifier
  originIdentifier : migrated.originIdentifier = favorite.originIdentifier
  createdAt : migrated.createdAt = favorite.createdAt
  proverbSection : migrated.proverbSection = favorite.proverbSection
  text : migrated.text catalogue = favorite.text
  meaning : migrated.meaning catalogue = favorite.meaning

theorem origin_of_mem {catalogue : LocalStorage RProverb} {proverb : RProverb}
    (h : proverb ∈ catalogue.objects) {f : FFavoriteProverb}
    (horigin : f.originIdentifier = proverb.identifier) : f.origin catalogue = some proverb := by
  unfold origin
  rw [horigin]
  exact LocalStorage.get_of_mem h

theorem looksSame_ofRFavoriteProverb {catalogue : LocalStorage RProverb} {proverb : RProverb}
    (h : proverb ∈ catalogue.objects) (random : Identifier) (now : Date) :
    LooksSame catalogue (.ofRProverb random now proverb)
      (ofRFavoriteProverb (.ofRProverb random now proverb)) := by
  let favorite := RFavoriteProverb.ofRProverb random now proverb
  have horigin : (ofRFavoriteProverb favorite).origin catalogue = some proverb :=
    origin_of_mem h rfl
  have htext : (ofRFavoriteProverb favorite).text catalogue = favorite.text := by
    rw [text, horigin]
    rfl
  have hmeaning : (ofRFavoriteProverb favorite).meaning catalogue = favorite.meaning := by
    rw [meaning, horigin]
    rfl
  exact ⟨rfl, rfl, rfl, rfl, htext, hmeaning⟩

/-- A favourite made from a catalogue proverb, migrated, stored and read back. -/
theorem migrated_looks_same {catalogue : LocalStorage RProverb} {proverb : RProverb}
    (h : proverb ∈ catalogue.objects) (random : Identifier) (now : Date) :
    LooksSame catalogue (.ofRProverb random now proverb)
      (ofFieldDictionary
        (ofRFavoriteProverb (.ofRProverb random now proverb)).fieldDictionary) := by
  rw [ofFieldDictionary_fieldDictionary]
  exact looksSame_ofRFavoriteProverb h random now

def twoProverbs : LocalStorage RProverb where
  realm := some <| KeyedStore.putAll
    [⟨"1", 0, "one", "first", "A", false⟩, ⟨"2", 0, "two", "second", "B", true⟩] KeyedStore.empty
  writes := .commit

theorem migrated_looks_same_second :
    LooksSame twoProverbs ⟨"random", "2", 7, "two", "second", "B"⟩
      (ofFieldDictionary
        (ofRFavoriteProverb ⟨"random", "2", 7, "two", "second", "B"⟩).fieldDictionary) := by
  have hmem : (⟨"2", 0, "two", "second", "B", true⟩ : RProverb) ∈ twoProverbs.objects := by
    decide
  exact migrated_looks_same hmem "random" 7

end FFavoriteProverb

end Proverbs
