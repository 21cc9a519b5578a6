import Proverbs.Managers.Calculus

/-! # What the local storage reports

A transaction reports an error when it throws, and a Realm that is not open has no
transaction that could. So `realmWrite` answers "no error" in two cases: everything
was committed, or there was nothing to commit it to. A committed deletion may have
found nothing either: an object that another reference has deleted is passed over.
Each report passed upwards is true exactly when these cases are ruled out, or when
nothing had to be done.
-/

namespace Proverbs

namespace LocalStorage

variable {α : Type} [RealmObject α]

/-- Every model is stored; of several with one primary key the last one counts. -/
def Stores (s : LocalStorage α) (models : List α) : Prop :=
  ∀ model ∈ models, ∃ object ∈ s.objects,
    models.reverse.find? (fun other =>
      RealmObject.primaryKey other = RealmObject.primaryKey model) = some object

/-- An object under this key was stored in `s` and is not any more in `s'`. -/
def Removes (s s' : LocalStorage α) (key : Identifier) : Prop :=
  (∃ object ∈ s.objects, RealmObject.primaryKey object = key) ∧
    ∀ object ∈ s'.objects, RealmObject.primaryKey object ≠ key

/-! ## saveUpdate -/

section SaveUpdate

variable {s : LocalStorage α} {models : List α}

/-- With a Realm, success means that the transaction was committed. -/
theorem objects_saveUpdateList {realm : Table α} (h : s.realm = some realm)
    (hdone : (s.saveUpdateList models).2 = true) :
    (s.saveUpdateList models).1.objects = (realm.putAll models).entries := by
  have hcommits : s.writes = .commit := by
    by_contra hw
    have hreported := realmWrite_reports h hw (KeyedStore.putAll models)
    have hfailed : (s.saveUpdateList models).2 = false := by
      simp only [saveUpdateList, realmAddOrUpdate]
      cases hwritten : s.realmWrite (KeyedStore.putAll models) with
      | mk s' error =>
          rw [hwritten] at hreported
          obtain rfl : error = some .writeFailed := hreported
          rfl
    rw [hfailed] at hdone
    cases hdone
  simp [saveUpdateList, realmAddOrUpdate, realmWrite, h, hcommits, objects, getAll, realmFindAll]

theorem stores_saveUpdateList (h : s.realm.isSome)
    (hdone : (s.saveUpdateList models).2 = true) : (s.saveUpdateList models).1.Stores models := by
  obtain ⟨realm, hrealm⟩ := Option.isSome_iff_exists.mp h
  intro model hmodel
  rw [objects_saveUpdateList hrealm hdone]
  obtain ⟨object, hlast⟩ : ∃ object, models.reverse.find? (fun other =>
      RealmObject.primaryKey other = RealmObject.primaryKey model) = some object := by
    apply Option.isSome_iff_exists.mp
    rw [List.find?_isSome]
    exact ⟨model, List.mem_reverse.mpr hmodel, by simp⟩
  have hkey : RealmObject.primaryKey object = RealmObject.primaryKey model := by
    simpa using List.find?_some hlast
  refine ⟨object, ?_, hlast⟩
  exact KeyedStore.mem_putAll_last.mpr (Or.inl (by simpa only [hkey] using hlast))

theorem saveUpdateList_reports_iff (s : LocalStorage α) (models : List α) :
    ((s.saveUpdateList models).2 = true → (s.saveUpdateList models).1.Stores models) ↔
      s.realm.isSome ∨ models = [] := by
  cases hrealm : s.realm with
  | some realm =>
      have hopen : s.realm.isSome := by rw [hrealm]; rfl
      exact iff_of_true (stores_saveUpdateList hopen) (Or.inl rfl)
  | none =>
      rw [saveUpdateList_of_realm_none hrealm]
      simp only [true_implies, Option.isSome_none, Bool.false_eq_true, false_or]
      constructor
      · intro hstores
        rw [List.eq_nil_iff_forall_not_mem]
        intro model hmodel
        obtain ⟨object, hobject, _⟩ := hstores model hmodel
        rw [objects_of_realm_none hrealm] at hobject
        exact List.not_mem_nil hobject
      · rintro rfl model hmodel
        exact absurd hmodel List.not_mem_nil

end SaveUpdate

/-! ## delete -/

section Delete

variable {s s' : LocalStorage α} {accessor : Accessor α}

/-- With a Realm, success means a committed transaction that has taken the key away. -/
theorem delete_done (h : s.realm.isSome) (hdone : s.delete accessor = some (s', true)) :
    s.writes = .commit ∧ accessor.hasRealm = true ∧
      ∀ object ∈ s'.objects, RealmObject.primaryKey object ≠
        RealmObject.primaryKey accessor.object := by
  obtain ⟨realm, hrealm⟩ := Option.isSome_iff_exists.mp h
  obtain ⟨object, hasRealm⟩ := accessor
  cases hasRealm with
  | false => simp [delete, realmDelete, hrealm] at hdone
  | true =>
      rw [delete_of_hasRealm] at hdone
      simp only [Option.some.injEq, Prod.mk.injEq] at hdone
      obtain ⟨rfl, hnone⟩ := hdone
      have hcommits : s.writes = .commit := by
        by_contra hw
        rw [realmWrite_reports hrealm hw] at hnone
        cases hnone
      refine ⟨hcommits, rfl, ?_⟩
      have hentries : (s.realmWrite
          (KeyedStore.erase (RealmObject.primaryKey object))).1.objects =
          (realm.erase (RealmObject.primaryKey object)).entries := by
        simp [realmWrite, hrealm, hcommits, objects, getAll, realmFindAll]
      intro other hother
      rw [hentries] at hother
      exact (KeyedStore.mem_erase.mp hother).2

theorem removes_delete (hstored : ∃ object ∈ s.objects,
      RealmObject.primaryKey object = RealmObject.primaryKey accessor.object)
    (hdone : s.delete accessor = some (s', true)) :
    s.Removes s' (RealmObject.primaryKey accessor.object) := by
  have hopen : s.realm.isSome := by
    obtain ⟨object, hmem, _⟩ := hstored
    exact realm_isSome_of_mem hmem
  exact ⟨hstored, (delete_done hopen hdone).2.2⟩

theorem delete_reports_iff (s : LocalStorage α) (accessor : Accessor α) :
    (∀ s', s.delete accessor = some (s', true) →
      s.Removes s' (RealmObject.primaryKey accessor.object)) ↔
      s.realm.isSome ∧ (s.writes = .commit → accessor.hasRealm = true →
        ∃ object ∈ s.objects,
          RealmObject.primaryKey object = RealmObject.primaryKey accessor.object) := by
  constructor
  · intro hremoves
    cases hrealm : s.realm with
    | none =>
        have hdone : s.delete accessor = some (s, true) := by
          simp [delete, realmDelete, realmWrite, hrealm]
        obtain ⟨⟨other, hother, _⟩, _⟩ := hremoves s hdone
        rw [objects_of_realm_none hrealm] at hother
        exact absurd hother List.not_mem_nil
    | some realm =>
        refine ⟨rfl, fun hcommits hasRealm => ?_⟩
        obtain ⟨object, _⟩ := accessor
        obtain rfl := hasRealm
        have havailable : s.Available := ⟨by rw [hrealm]; rfl, hcommits⟩
        obtain ⟨s', hdone, _, _⟩ := delete_of_available havailable object
        exact (hremoves s' hdone).1
  · rintro ⟨hopen, hstored⟩ s' hdone
    obtain ⟨hcommits, hasRealm, _⟩ := delete_done hopen hdone
    exact removes_delete (hstored hcommits hasRealm) hdone

theorem deleteWithIdentifier_reports {identifier : Identifier}
    (hdone : s.deleteWithIdentifier identifier = some (s', true)) : s.Removes s' identifier := by
  unfold deleteWithIdentifier at hdone
  split at hdone
  · rename_i rObj hget
    obtain ⟨hmem, hkey⟩ := get_eq_some hget
    exact hkey ▸ removes_delete ⟨rObj, hmem, rfl⟩ hdone
  · simp at hdone

end Delete

end LocalStorage

/-! ## A local save -/

namespace App

def putOut (s s' : App) : List Output := s'.outputs.drop s.outputs.length

def SaveSucceeds : Output → Prop
  | .didSave _ => True
  | .saved _ (.ok _) => True
  | _ => False

/-- When a `save` succeeds, the favourite it has made is in the store. -/
def SaveReports (s : App) (proverb : Proverb) (request : Nat) (random : Identifier)
    (now : Date) : Prop :=
  ∀ s', s.save proverb request random now = some s' →
    (∃ o ∈ s.putOut s', SaveSucceeds o) →
      ∃ rProverb, proverb = .rProverb rProverb ∧
        RFavoriteProverb.ofRProverb random now rProverb ∈ s'.localStorage.objects

section Save

variable {s t : App} {random : Identifier} {now : Date}

theorem checkAndSaveLocal_ok {proverb p : Proverb}
    (h : s.checkAndSaveLocal proverb random now = (t, .ok p)) :
    ∃ rProverb, proverb = .rProverb rProverb ∧
      s.localStorage.saveUpdate (RFavoriteProverb.ofRProverb random now rProverb) =
        (t.localStorage, true) := by
  cases proverb with
  | rProverb rProverb =>
      refine ⟨rProverb, rfl, ?_⟩
      simp only [checkAndSaveLocal] at h
      split at h
      · simp at h
      · split at h
        · rename_i hdone
          rw [← (Prod.mk.inj h).1]
          exact Prod.ext rfl hdone
        · simp at h
  | rFavorite => simp [checkAndSaveLocal] at h
  | fFavorite => simp [checkAndSaveLocal] at h

theorem outputs_checkAndSaveLocal (s : App) (proverb : Proverb) :
    (s.checkAndSaveLocal proverb random now).1.outputs = s.outputs := by
  cases proverb with
  | rProverb rProverb =>
      simp only [checkAndSaveLocal]
      split
      · rfl
      · split <;> rfl
  | rFavorite => rfl
  | fFavorite => rfl

theorem saveCompleted_succeeds_iff {request : Nat} {isPurchased : Bool} {stored : Nat}
    (houtputs : t.outputs = s.outputs ++ [.saveCalled request isPurchased stored])
    (ids : ProverbIdentifiers) (result : Except AppError Proverb) :
    (∃ o ∈ s.putOut (t.saveCompleted request ids result), SaveSucceeds o) ↔
      ∃ p, result = .ok p := by
  cases result <;> simp [putOut, saveCompleted, output, houtputs, SaveSucceeds]

theorem save_of_local (hlocal : s.isLocalStorage = true) {proverb : Proverb}
    (hreadable : s.readable proverb = true) (request : Nat) (random : Identifier) (now : Date) :
    s.save proverb request random now =
      let saved := (s.output (.saveCalled request s.isPurchased s.storedCount)).checkAndSaveLocal
        proverb random now
      some (saved.1.saveCompleted request (identifiers proverb) saved.2) := by
  have hlocal' : (s.output (.saveCalled request s.isPurchased s.storedCount)).isLocalStorage =
      true := hlocal
  simp only [save, hreadable, if_true]
  rw [if_pos hlocal']

theorem save_reports_iff (hlocal : s.isLocalStorage = true) (proverb : Proverb) (request : Nat) :
    s.SaveReports proverb request random now ↔
      s.localStorage.realm.isSome ∨ ∀ rProverb, proverb ≠ .rProverb rProverb := by
  let u := s.output (.saveCalled request s.isPurchased s.storedCount)
  constructor
  · intro hreports
    by_cases hcatalogue : ∃ rProverb, proverb = .rProverb rProverb
    · left
      obtain ⟨rProverb, rfl⟩ := hcatalogue
      cases hrealm : s.localStorage.realm with
      | some realm => rfl
      | none =>
          have hsaved : u.checkAndSaveLocal (.rProverb rProverb) random now =
              (u, .ok (.rFavorite (RFavoriteProverb.ofRProverb random now rProverb))) := by
            have hcount : u.getLocalCount = 0 := by
              simp [getLocalCount, LocalStorage.getAll, LocalStorage.realmFindAll, u, output,
                hrealm]
            have hdone :
                u.localStorage.saveUpdate (RFavoriteProverb.ofRProverb random now rProverb) =
                  (u.localStorage, true) := LocalStorage.saveUpdateList_of_realm_none hrealm _
            simp [checkAndSaveLocal, hcount, freeMaxCount, hdone]
          have hreadable : s.readable (.rProverb rProverb) = true := rfl
          have hs := save_of_local hlocal hreadable request random now
          rw [show s.output _ = u from rfl, hsaved] at hs
          obtain ⟨_, _, hmem⟩ := hreports _ hs
            ((saveCompleted_succeeds_iff rfl _ _).mpr ⟨_, rfl⟩)
          rw [localStorage_saveCompleted,
            show u.localStorage.objects = [] from LocalStorage.objects_of_realm_none hrealm] at hmem
          exact absurd hmem List.not_mem_nil
    · exact Or.inr fun rProverb h => hcatalogue ⟨rProverb, h⟩
  · intro hguard s' hs hsucceeds
    have hreadable : s.readable proverb = true := by
      by_contra hnot
      simp [save, hnot] at hs
    rw [save_of_local hlocal hreadable] at hs
    obtain rfl := Option.some.inj hs
    have houtputs : (u.checkAndSaveLocal proverb random now).1.outputs =
        s.outputs ++ [.saveCalled request s.isPurchased s.storedCount] :=
      outputs_checkAndSaveLocal u proverb
    obtain ⟨p, hp⟩ := (saveCompleted_succeeds_iff houtputs _ _).mp hsucceeds
    obtain ⟨rProverb, rfl, hsaved⟩ := checkAndSaveLocal_ok (Prod.ext rfl hp)
    have hopen : s.localStorage.realm.isSome :=
      hguard.resolve_right fun hnot => hnot rProverb rfl
    refine ⟨rProverb, rfl, ?_⟩
    rw [localStorage_saveCompleted]
    have hstores := LocalStorage.stores_saveUpdateList (s := u.localStorage) hopen
      (congrArg Prod.snd hsaved)
    obtain ⟨object, hobject, hlast⟩ := hstores _ List.mem_cons_self
    obtain rfl : RFavoriteProverb.ofRProverb random now rProverb = object := by simpa using hlast
    have hstorage := congrArg Prod.fst hsaved
    simp only at hstorage
    rw [← hstorage]
    exact hobject

end Save

/-- Each of the four reports is true exactly when the Realm is open or there is nothing
to do: no models, an object that is looked up first, a save of something else than a
catalogue proverb. A deletion that is committed must find its object, too. -/
theorem reports_only_done_iff {α : Type} [RealmObject α] :
    (∀ (s : LocalStorage α) (models : List α),
      ((s.saveUpdateList models).2 = true → (s.saveUpdateList models).1.Stores models) ↔
        s.realm.isSome ∨ models = []) ∧
    (∀ (s : LocalStorage α) (accessor : Accessor α),
      (∀ s', s.delete accessor = some (s', true) →
        s.Removes s' (RealmObject.primaryKey accessor.object)) ↔
        s.realm.isSome ∧ (s.writes = .commit → accessor.hasRealm = true →
          ∃ object ∈ s.objects,
            RealmObject.primaryKey object = RealmObject.primaryKey accessor.object)) ∧
    (∀ (s s' : LocalStorage α) (identifier : Identifier),
      s.deleteWithIdentifier identifier = some (s', true) → s.Removes s' identifier) ∧
    (∀ (s : App) (proverb : Proverb) (request : Nat) (random : Identifier) (now : Date),
      s.isLocalStorage = true →
        (s.SaveReports proverb request random now ↔
          s.localStorage.realm.isSome ∨ ∀ rProverb, proverb ≠ .rProverb rProverb)) := by
  refine ⟨LocalStorage.saveUpdateList_reports_iff, LocalStorage.delete_reports_iff, ?_, ?_⟩
  · intro s s' identifier
    exact LocalStorage.deleteWithIdentifier_reports
  · intro s proverb request random now hlocal
    exact save_reports_iff hlocal proverb request

def openedWithOne : LocalStorage RProverb :=
  (LocalStorage.mk (some KeyedStore.empty) .commit).saveUpdate ⟨"1", 0, "text", "", "A", false⟩ |>.1

/-- A Realm that is open keeps its word on what it stores and on what it has stored. -/
theorem reports_only_done_open :
    installed.SaveReports (.rProverb ⟨"1", 0, "text", "", "A", false⟩) 0 "random" 0 ∧
      ∀ s', openedWithOne.delete ⟨⟨"1", 0, "", "", "", false⟩, true⟩ = some (s', true) →
        openedWithOne.Removes s' "1" := by
  constructor
  · exact ((reports_only_done_iff (α := RProverb)).2.2.2 installed _ 0 "random" 0 rfl).mpr
      (Or.inl rfl)
  · exact ((reports_only_done_iff (α := RProverb)).2.1 openedWithOne _).mpr
      ⟨rfl, fun _ _ => ⟨⟨"1", 0, "text", "", "A", false⟩, by decide, rfl⟩⟩

def unopened : App := { installed with localStorage := ⟨none, .commit⟩ }

/-- Realm could not be opened, and the favourite is announced as saved. -/
theorem unopened_realm_reports_save :
    ¬ unopened.SaveReports (.rProverb ⟨"1", 0, "text", "", "A", false⟩) 0 "random" 0 := by
  intro h
  obtain ⟨_, _, hmem⟩ := h _ rfl ⟨.didSave ⟨none, "1"⟩, by decide, trivial⟩
  exact List.not_mem_nil hmem

end App

end Proverbs
