import Proverbs.Core.KeyedStore

/-! # The local storage over Realm

`BaseStorage` and `LocalStorage` as the app uses them on the main thread: one
Realm that is either open or could not be opened, and write transactions that
commit or throw. A transaction on a Realm that is not open runs nothing and
reports no error, exactly as `try writeRealm?.write` does. A commit that throws
is taken to have changed nothing, for the reads after it as well. It leaves its
transaction open; to begin another one is an exception, which no `catch` of the
app sees.
-/

namespace Proverbs

abbrev Identifier := String

/-- A class stored in Realm, with its `primaryKey()`. -/
class RealmObject (α : Type) where
  primaryKey : α → Identifier

inductive RealmError where
  | writeFailed
deriving DecidableEq, Repr

/-- The objects of one class. Realm keeps primary keys unique; the order of an
unsorted query is its own affair and nothing below depends on it. -/
abbrev Table (α : Type) [RealmObject α] := KeyedStore (RealmObject.primaryKey : α → Identifier)

/-- The fate of the next write transaction. -/
inductive Writes where
  | commit
  | throws
  /-- A commit has thrown, and its transaction is still open. -/
  | leftOpen
  /-- A transaction was begun inside the open one: the exception has ended the process. -/
  | raised
deriving DecidableEq, Repr

namespace Writes

def set (throw : Bool) : Writes → Writes
  | commit | throws => if throw then throws else commit
  | writes => writes

/-- What a transaction leaves for the one after it. -/
def next : Writes → Writes
  | commit => commit
  | throws => leftOpen
  | leftOpen | raised => raised

/-- The open transaction ends with its process. -/
def reopened : Writes → Writes
  | throws => throws
  | _ => commit

theorem reopened_closed (writes : Writes) :
    writes.reopened ≠ leftOpen ∧ writes.reopened ≠ raised := by
  cases writes <;> simp [reopened]

end Writes

structure LocalStorage (α : Type) [RealmObject α] where
  /-- `currentThreadRealm`: the table of the class, or nothing when Realm did not open. -/
  realm : Option (Table α)
  writes : Writes

/-- A reference to an object. Realm takes itself away from the one an object is deleted through. -/
structure Accessor (α : Type) where
  object : α
  hasRealm : Bool

namespace LocalStorage

variable {α : Type} [RealmObject α]

def setThrows (s : LocalStorage α) (throw : Bool) : LocalStorage α :=
  { s with writes := s.writes.set throw }

def reopened (s : LocalStorage α) : LocalStorage α := { s with writes := s.writes.reopened }

/-! ## BaseStorage -/

/-- Only what is committed is stored. -/
def realmWrite (s : LocalStorage α) (processBlock : Table α → Table α) :
    LocalStorage α × Option RealmError :=
  match s.realm with
  | none => (s, none)
  | some realm =>
      match s.writes with
      | .commit => ({ s with realm := some (processBlock realm) }, none)
      | .throws => ({ s with writes := .leftOpen }, some .writeFailed)
      | .leftOpen | .raised => ({ s with writes := .raised }, some .writeFailed)

def realmFindAll (s : LocalStorage α) : Option (List α) := s.realm.map (·.entries)

def realmAddOrUpdate (s : LocalStorage α) (objects : List α) :
    LocalStorage α × Option (List α) :=
  match s.realmWrite (KeyedStore.putAll objects) with
  | (s', none) => (s', some objects)
  | (s', some _) => (s', none)

/-- The object is still managed: reading it does not trap. -/
def isValid (s : LocalStorage α) (object : α) : Bool :=
  match s.realm with
  | none => true
  | some realm =>
      realm.entries.any fun y => RealmObject.primaryKey y = RealmObject.primaryKey object

/-- An open Realm raises (`none`) for an object that is not its own; an object of its own that
is no longer stored is deleted by doing nothing. -/
def realmDelete (s : LocalStorage α) (accessor : Accessor α) :
    Option (LocalStorage α × Option RealmError) :=
  if s.realm.isNone || accessor.hasRealm then
    some (s.realmWrite (KeyedStore.erase (RealmObject.primaryKey accessor.object)))
  else none

def realmDeleteAll (s : LocalStorage α) : LocalStorage α × Option RealmError :=
  match s.realmFindAll with
  | none => (s, none)
  | some _ => s.realmWrite fun _ => KeyedStore.empty

/-! ## LocalStorage -/

def get (s : LocalStorage α) (key : α → Identifier) (value : Identifier) : Option α :=
  s.realmFindAll.bind fun objects => objects.find? fun object => key object = value

def getAll (s : LocalStorage α) : Option (List α) := s.realmFindAll

def saveUpdateList (s : LocalStorage α) (modelsList : List α) : LocalStorage α × Bool :=
  let (s', objects) := s.realmAddOrUpdate modelsList
  (s', objects.isSome)

def saveUpdate (s : LocalStorage α) (model : α) : LocalStorage α × Bool :=
  s.saveUpdateList [model]

def delete (s : LocalStorage α) (accessor : Accessor α) : Option (LocalStorage α × Bool) :=
  (s.realmDelete accessor).map fun (s', error) => (s', error.isNone)

/-- `delete(objectWithIdentifier:)`. -/
def deleteWithIdentifier (s : LocalStorage α) (identifier : Identifier) :
    Option (LocalStorage α × Bool) :=
  match s.get RealmObject.primaryKey identifier with
  | some rObj => s.delete ⟨rObj, true⟩
  | none => some (s, false)

/-- `deleteAll(exceptID: nil)`. -/
def deleteAll (s : LocalStorage α) : LocalStorage α := s.realmDeleteAll.1

/-! ## What the operations leave behind -/

/-- The stored objects; none when Realm is not open. -/
def objects (s : LocalStorage α) : List α := s.getAll.getD []

/-- Realm is open and its transactions commit. -/
def Available (s : LocalStorage α) : Prop := s.realm.isSome ∧ s.writes = .commit

instance (s : LocalStorage α) : Decidable s.Available := inferInstanceAs (Decidable (_ ∧ _))

theorem objects_nodup (s : LocalStorage α) :
    (s.objects.map RealmObject.primaryKey).Nodup := by
  cases h : s.realm with
  | none => simp [objects, getAll, realmFindAll, h]
  | some realm => simpa [objects, getAll, realmFindAll, h] using realm.nodup

theorem getAll_of_available {s : LocalStorage α} (h : s.Available) :
    s.getAll = some s.objects := by
  obtain ⟨realm, hr⟩ := Option.isSome_iff_exists.mp h.1
  simp [objects, getAll, realmFindAll, hr]

theorem objects_of_getAll {s : LocalStorage α} {xs : List α} (h : s.getAll = some xs) :
    s.objects = xs := by
  simp [objects, h]

theorem objects_of_realm_none {s : LocalStorage α} (h : s.realm = none) : s.objects = [] := by
  simp [objects, getAll, realmFindAll, h]

theorem realm_isSome_of_mem {s : LocalStorage α} {x : α} (h : x ∈ s.objects) :
    s.realm.isSome := by
  cases hrealm : s.realm with
  | some realm => rfl
  | none =>
      rw [objects_of_realm_none hrealm] at h
      exact absurd h List.not_mem_nil

theorem not_commit_of_not_available {s : LocalStorage α} {realm : Table α}
    (h : ¬ s.Available) (hrealm : s.realm = some realm) : s.writes ≠ .commit := by
  simpa [Available, hrealm] using h

theorem realm_realmWrite_of_not_available {s : LocalStorage α} (h : ¬ s.Available)
    (processBlock : Table α → Table α) : (s.realmWrite processBlock).1.realm = s.realm := by
  unfold realmWrite
  cases hrealm : s.realm with
  | none => exact hrealm
  | some realm =>
      have hw := not_commit_of_not_available h hrealm
      cases hwrites : s.writes with
      | commit => exact absurd hwrites hw
      | throws | leftOpen | raised => rfl

/-- A Realm that is not open begins no transaction. -/
theorem writes_realmWrite (s : LocalStorage α) (processBlock : Table α → Table α) :
    (s.realmWrite processBlock).1.writes = if s.realm.isSome then s.writes.next else s.writes := by
  unfold realmWrite
  cases s.realm with
  | none => rfl
  | some realm => cases s.writes <;> rfl

theorem objects_of_realm_eq {s t : LocalStorage α} (h : s.realm = t.realm) :
    s.objects = t.objects := by
  simp only [objects, getAll, realmFindAll, h]

/-- An open Realm reports the transactions that are not committed. -/
theorem realmWrite_reports {s : LocalStorage α} {realm : Table α} (hrealm : s.realm = some realm)
    (hw : s.writes ≠ .commit) (processBlock : Table α → Table α) :
    (s.realmWrite processBlock).2 = some .writeFailed := by
  cases hwrites : s.writes with
  | commit => exact absurd hwrites hw
  | throws | leftOpen | raised => simp [realmWrite, hrealm, hwrites]

/-- The objects are given back whatever the transaction has done. -/
theorem saveUpdate_fst (s : LocalStorage α) (model : α) :
    (s.saveUpdate model).1 = (s.realmWrite (KeyedStore.putAll [model])).1 := by
  simp only [saveUpdate, saveUpdateList, realmAddOrUpdate]
  cases s.realmWrite (KeyedStore.putAll [model]) with
  | mk s' error => cases error <;> rfl

theorem deleteAll_eq (s : LocalStorage α) :
    s.deleteAll = (s.realmWrite fun _ => KeyedStore.empty).1 := by
  unfold deleteAll realmDeleteAll realmFindAll realmWrite
  cases s.realm <;> rfl

theorem objects_deleteAll_of_available {s : LocalStorage α} (h : s.Available) :
    s.deleteAll.objects = [] := by
  obtain ⟨realm, hr⟩ := Option.isSome_iff_exists.mp h.1
  simp [deleteAll, realmDeleteAll, realmFindAll, realmWrite, hr, h.2, objects, getAll,
    KeyedStore.empty]

theorem realm_deleteAll_of_not_available {s : LocalStorage α} (h : ¬ s.Available) :
    s.deleteAll.realm = s.realm := by
  rw [deleteAll_eq]
  exact realm_realmWrite_of_not_available h _

theorem objects_deleteAll_of_not_available {s : LocalStorage α} (h : ¬ s.Available) :
    s.deleteAll.objects = s.objects :=
  objects_of_realm_eq (realm_deleteAll_of_not_available h)

theorem saveUpdateList_of_realm_none {s : LocalStorage α} (h : s.realm = none)
    (models : List α) : s.saveUpdateList models = (s, true) := by
  simp [saveUpdateList, realmAddOrUpdate, realmWrite, h]

theorem saveUpdate_of_available {s : LocalStorage α} (h : s.Available) (model : α) :
    (s.saveUpdate model).2 = true ∧ (s.saveUpdate model).1.Available ∧
      ∀ x, x ∈ (s.saveUpdate model).1.objects ↔
        x = model ∨ (x ∈ s.objects ∧
          RealmObject.primaryKey x ≠ RealmObject.primaryKey model) := by
  obtain ⟨realm, hr⟩ := Option.isSome_iff_exists.mp h.1
  refine ⟨?_, ?_, fun x => ?_⟩
  · simp [saveUpdate, saveUpdateList, realmAddOrUpdate, realmWrite, hr, h.2]
  · simp [Available, saveUpdate, saveUpdateList, realmAddOrUpdate, realmWrite, hr, h.2]
  · simpa [saveUpdate, saveUpdateList, realmAddOrUpdate, realmWrite, hr, h.2, objects, getAll,
      realmFindAll, KeyedStore.putAll] using KeyedStore.mem_put (s := realm)

theorem saveUpdate_of_new {s : LocalStorage α} (h : s.Available) {model : α}
    (hnew : ∀ x ∈ s.objects, RealmObject.primaryKey x ≠ RealmObject.primaryKey model) :
    (s.saveUpdate model).1.objects = s.objects ++ [model] := by
  obtain ⟨realm, hr⟩ := Option.isSome_iff_exists.mp h.1
  have hkey : ∀ x ∈ realm, RealmObject.primaryKey x ≠ RealmObject.primaryKey model := by
    simpa [objects, getAll, realmFindAll, hr] using hnew
  simp [saveUpdate, saveUpdateList, realmAddOrUpdate, realmWrite, hr, h.2, objects, getAll,
    realmFindAll, KeyedStore.putAll, KeyedStore.entries_put_of_new hkey]

theorem isValid_of_mem {s : LocalStorage α} {x : α} (h : x ∈ s.objects) :
    s.isValid x = true := by
  cases hr : s.realm with
  | none => simp [isValid, hr]
  | some realm =>
      have hx : x ∈ realm.entries := by simpa [objects, getAll, realmFindAll, hr] using h
      simp only [isValid, hr, List.any_eq_true]
      exact ⟨x, hx, by simp⟩

theorem all_isValid_of_subset {s : LocalStorage α} {xs : List α} (h : xs ⊆ s.objects) :
    xs.all s.isValid = true := by
  rw [List.all_eq_true]
  exact fun x hx => isValid_of_mem (h hx)

theorem delete_of_hasRealm (s : LocalStorage α) (object : α) :
    s.delete ⟨object, true⟩ =
      let written := s.realmWrite (KeyedStore.erase (RealmObject.primaryKey object))
      some (written.1, written.2.isNone) := by
  simp [delete, realmDelete]

theorem delete_of_available {s : LocalStorage α} (h : s.Available) (object : α) :
    ∃ s', s.delete ⟨object, true⟩ = some (s', true) ∧ s'.Available ∧
      s'.objects = s.objects.filter fun x =>
        RealmObject.primaryKey x ≠ RealmObject.primaryKey object := by
  obtain ⟨realm, hr⟩ := Option.isSome_iff_exists.mp h.1
  refine ⟨{ s with realm := some (realm.erase (RealmObject.primaryKey object)) }, ?_, ?_, ?_⟩
  · simp [delete, realmDelete, realmWrite, hr, h.2]
  · simp [Available, h.2]
  · simp [objects, getAll, realmFindAll, hr, KeyedStore.erase]

theorem get_eq_some {s : LocalStorage α} {key : α → Identifier} {value : Identifier} {x : α}
    (h : s.get key value = some x) : x ∈ s.objects ∧ key x = value := by
  obtain ⟨xs, hxs, hfind⟩ := Option.bind_eq_some_iff.mp h
  have hobj : s.objects = xs := objects_of_getAll hxs
  rw [hobj]
  exact ⟨List.mem_of_find?_eq_some hfind, by simpa using List.find?_some hfind⟩

theorem get_of_mem {s : LocalStorage α} {x : α} (h : x ∈ s.objects) :
    s.get RealmObject.primaryKey (RealmObject.primaryKey x) = some x := by
  cases hr : s.realm with
  | none => simp [objects, getAll, realmFindAll, hr] at h
  | some realm =>
      have hx : x ∈ realm := by simpa [objects, getAll, realmFindAll, hr] using h
      obtain ⟨y, hfind⟩ : ∃ y, realm.entries.find? (fun object =>
          RealmObject.primaryKey object = RealmObject.primaryKey x) = some y :=
        Option.isSome_iff_exists.mp (List.find?_isSome.mpr ⟨x, hx, by simp⟩)
      have hkey : RealmObject.primaryKey y = RealmObject.primaryKey x := by
        simpa using List.find?_some hfind
      have hsame : y = x := KeyedStore.eq_of_key_eq (List.mem_of_find?_eq_some hfind) hx hkey
      simp [get, realmFindAll, hr, hfind, hsame]

theorem get_isSome {s : LocalStorage α} {key : α → Identifier} {value : Identifier} :
    (s.get key value).isSome ↔ ∃ x ∈ s.objects, key x = value := by
  cases hr : s.realm with
  | none => simp [get, realmFindAll, objects, getAll, hr]
  | some realm => simp [get, realmFindAll, objects, getAll, hr]

/-! ## Managed objects -/

section Valid

variable {s s' : LocalStorage α} {object x : α}

theorem isValid_iff {realm : Table α} (h : s.realm = some realm) :
    s.isValid x = true ↔
      ∃ y ∈ realm, RealmObject.primaryKey y = RealmObject.primaryKey x := by
  simp [isValid, h]

theorem isValid_of_realm_eq {s t : LocalStorage α} (h : s.realm = t.realm) :
    s.isValid x = t.isValid x := by
  unfold isValid
  rw [h]

theorem isValid_saveUpdate (hx : s.isValid x = true) (model : α) :
    (s.saveUpdate model).1.isValid x = true := by
  rw [saveUpdate_fst]
  by_cases havailable : s.Available
  · obtain ⟨realm, hrealm⟩ := Option.isSome_iff_exists.mp havailable.1
    have hrealm' : (s.realmWrite (KeyedStore.putAll [model])).1.realm =
        some (realm.put model) := by
      simp [realmWrite, hrealm, havailable.2, KeyedStore.putAll]
    obtain ⟨y, hy, hkey⟩ := (isValid_iff hrealm).mp hx
    rw [isValid_iff hrealm']
    by_cases hmodel : RealmObject.primaryKey y = RealmObject.primaryKey model
    · exact ⟨model, KeyedStore.mem_put_self realm model, hmodel.symm.trans hkey⟩
    · exact ⟨y, KeyedStore.mem_put.mpr (Or.inr ⟨hy, hmodel⟩), hkey⟩
  · rw [isValid_of_realm_eq (realm_realmWrite_of_not_available havailable _)]
    exact hx

theorem isValid_delete {done : Bool} (h : s.delete ⟨object, true⟩ = some (s', done))
    (hx : s.isValid x = true)
    (hother : s.Available → RealmObject.primaryKey object ≠ RealmObject.primaryKey x) :
    s'.isValid x = true := by
  simp only [delete_of_hasRealm, Option.some.injEq, Prod.mk.injEq] at h
  rw [← h.1]
  by_cases havailable : s.Available
  · obtain ⟨realm, hrealm⟩ := Option.isSome_iff_exists.mp havailable.1
    have hrealm' : (s.realmWrite (KeyedStore.erase (RealmObject.primaryKey object))).1.realm =
        some (realm.erase (RealmObject.primaryKey object)) := by
      simp [realmWrite, hrealm, havailable.2]
    obtain ⟨y, hy, hkey⟩ := (isValid_iff hrealm).mp hx
    rw [isValid_iff hrealm']
    refine ⟨y, KeyedStore.mem_erase.mpr ⟨hy, ?_⟩, hkey⟩
    rw [hkey]
    exact (hother havailable).symm
  · rw [isValid_of_realm_eq (realm_realmWrite_of_not_available havailable _)]
    exact hx

theorem isValid_deleteAll (hx : s.isValid x = true)
    (hother : s.Available → ∀ y ∈ s.objects,
      RealmObject.primaryKey y ≠ RealmObject.primaryKey x) :
    s.deleteAll.isValid x = true := by
  by_cases havailable : s.Available
  · obtain ⟨realm, hrealm⟩ := Option.isSome_iff_exists.mp havailable.1
    obtain ⟨y, hy, hkey⟩ := (isValid_iff hrealm).mp hx
    have hstored : y ∈ s.objects := by
      simpa [objects, getAll, realmFindAll, hrealm] using hy
    exact absurd hkey (hother havailable y hstored)
  · rw [isValid_of_realm_eq (realm_deleteAll_of_not_available havailable)]
    exact hx

end Valid

end LocalStorage

end Proverbs
