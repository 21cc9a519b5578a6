import Proverbs.Models.Proverb

/-! # The catalogue in Realm

`ProverbsStorage` and the opening of the Realm file by `MainStorage`: one attempt,
and when it fails a reset that removes the file and a second attempt.
-/

namespace Proverbs

/-! ## MainStorage -/

/-- How the Realm is opened in one process. The reset and the second attempt only
take place when the first attempt failed. -/
structure Opening where
  firstAttempt : Bool
  /-- `hardReset` could remove the file. -/
  removed : Bool
  secondAttempt : Bool
deriving DecidableEq, Repr

namespace Opening

/-- `MainStorage.realm` is not nil. -/
def opens (opening : Opening) : Bool := opening.firstAttempt || opening.secondAttempt

def erases (opening : Opening) : Bool := !opening.firstAttempt && opening.removed

end Opening

/-- The file a process works on once `MainStorage.realm` has been set up. -/
def openRealm {α : Type} [RealmObject α] (file : Table α) (opening : Opening) : Table α :=
  if opening.erases then KeyedStore.empty else file

/-! ## ProverbsStorage -/

namespace ProverbsStorage

def getAll (storage : LocalStorage RProverb) : List RProverb := storage.realmFindAll.getD []

def getAllUnviewed (storage : LocalStorage RProverb) : List RProverb :=
  ((storage.realmFindAll.map fun all => all.filter fun proverb => !proverb.viewed)).getD []

def markAsViewed (storage : LocalStorage RProverb) (proverb : RProverb) : LocalStorage RProverb :=
  (storage.realmWrite <| KeyedStore.modify
    (fun other =>
      if other.identifier = proverb.identifier then { other with viewed := true } else other)
    (by
      intro other
      split
      · rfl
      · rfl)).1

def markAllAsUnviewed (storage : LocalStorage RProverb) : LocalStorage RProverb :=
  match storage.realmFindAll with
  | none => storage
  | some _ =>
      (storage.realmWrite <|
        KeyedStore.modify (fun proverb => { proverb with viewed := false }) fun _ => rfl).1

end ProverbsStorage

end Proverbs
