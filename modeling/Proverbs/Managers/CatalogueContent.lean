import Proverbs.Managers.State
import Proverbs.Models.Firestore.FavoriteDictionary

/-! # Proverbs of the catalogue

A favourite is a copy of a catalogue proverb in Realm, or refers to one from Firestore,
and a migration turns the first into the second. Here is what it means that a proverb, a
stored object, a document or a call in flight comes from the catalogue, with the
conversions and the writes that keep it so.
-/

namespace Proverbs

/-! ## Stored objects -/

namespace LocalStorage

variable {α : Type} [RealmObject α] {s s' : LocalStorage α} {x object : α}

theorem mem_objects_realmWrite {processBlock : Table α → Table α}
    (h : x ∈ (s.realmWrite processBlock).1.objects) :
    x ∈ s.objects ∨ ∃ realm, s.realm = some realm ∧ x ∈ processBlock realm := by
  by_cases havailable : s.Available
  · obtain ⟨realm, hrealm⟩ := Option.isSome_iff_exists.mp havailable.1
    refine Or.inr ⟨realm, hrealm, ?_⟩
    simpa [realmWrite, hrealm, havailable.2, objects, getAll, realmFindAll] using h
  · rw [objects_of_realm_eq (realm_realmWrite_of_not_available havailable processBlock)] at h
    exact Or.inl h

theorem mem_objects {realm : Table α} (hrealm : s.realm = some realm) :
    x ∈ s.objects ↔ x ∈ realm := by
  simp [objects, getAll, realmFindAll, hrealm]

theorem mem_objects_saveUpdate (h : x ∈ (s.saveUpdate object).1.objects) :
    x ∈ s.objects ∨ x = object := by
  rw [saveUpdate_fst] at h
  rcases mem_objects_realmWrite h with hmem | ⟨realm, hrealm, hput⟩
  · exact Or.inl hmem
  · rcases KeyedStore.mem_put.mp hput with hsame | ⟨hmem, -⟩
    · exact Or.inr hsame
    · exact Or.inl ((mem_objects hrealm).mpr hmem)

theorem objects_delete_subset {done : Bool} (h : s.delete ⟨object, true⟩ = some (s', done)) :
    s'.objects ⊆ s.objects := by
  rw [delete_of_hasRealm] at h
  have hwritten := (Prod.mk.inj (Option.some.inj h)).1
  intro x hx
  rw [← hwritten] at hx
  rcases mem_objects_realmWrite hx with hmem | ⟨realm, hrealm, herase⟩
  · exact hmem
  · exact (mem_objects hrealm).mpr (KeyedStore.mem_erase.mp herase).1

theorem objects_deleteAll_subset (s : LocalStorage α) : s.deleteAll.objects ⊆ s.objects := by
  intro x hx
  unfold deleteAll realmDeleteAll at hx
  split at hx
  · exact hx
  · rcases mem_objects_realmWrite hx with hmem | ⟨realm, -, hempty⟩
    · exact hmem
    · cases hempty

end LocalStorage

/-! ## Proverbs of the catalogue -/

/-- On the screen the proverb looks like the catalogue proverb it comes from. -/
structure Proverb.Shows (catalogue : LocalStorage RProverb) (proverb : Proverb)
    (origin : RProverb) : Prop where
  identifier : (proverb.originIdentifier?).getD proverb.identifier = origin.identifier
  text : proverb.text catalogue = origin.text
  meaning : proverb.meaning catalogue = origin.meaning
  proverbSection : proverb.proverbSection = origin.proverbSection

def Proverb.OfCatalogue (catalogue : LocalStorage RProverb) (proverb : Proverb) : Prop :=
  ∃ origin ∈ catalogue.objects, proverb.Shows catalogue origin

section Proverbs

variable {catalogue : LocalStorage RProverb} {proverb : Proverb} {origin : RProverb}

theorem Proverb.ofCatalogue_rProverb (h : origin ∈ catalogue.objects) (viewed : Bool) :
    OfCatalogue catalogue (.rProverb { origin with viewed := viewed }) :=
  ⟨origin, h, rfl, rfl, rfl, rfl⟩

theorem Proverb.ofCatalogue_fFavorite {f : FFavoriteProverb} (h : origin ∈ catalogue.objects)
    (horigin : f.originIdentifier = origin.identifier)
    (hsection : f.proverbSection = origin.proverbSection) :
    OfCatalogue catalogue (.fFavorite f) := by
  have hfound : f.origin catalogue = some origin := FFavoriteProverb.origin_of_mem h horigin
  have htext : f.text catalogue = origin.text := by
    rw [FFavoriteProverb.text, hfound]
    rfl
  have hmeaning : f.meaning catalogue = origin.meaning := by
    rw [FFavoriteProverb.meaning, hfound]
    rfl
  exact ⟨origin, h, horigin, htext, hmeaning, hsection⟩

theorem Proverb.OfCatalogue.rFavorite {rProverb : RProverb}
    (h : OfCatalogue catalogue (.rProverb rProverb)) (random : Identifier) (now : Date) :
    OfCatalogue catalogue (.rFavorite (.ofRProverb random now rProverb)) := by
  obtain ⟨origin, hmem, hshows⟩ := h
  exact ⟨origin, hmem, hshows.identifier, hshows.text, hshows.meaning, hshows.proverbSection⟩

theorem Proverb.OfCatalogue.fFavorite {rProverb : RProverb}
    (h : OfCatalogue catalogue (.rProverb rProverb)) (random : Identifier) (now : Date) :
    OfCatalogue catalogue (.fFavorite (.ofRProverb random now rProverb)) := by
  obtain ⟨origin, hmem, hshows⟩ := h
  exact ofCatalogue_fFavorite hmem hshows.identifier hshows.proverbSection

theorem Proverb.OfCatalogue.migrated {f : RFavoriteProverb}
    (h : OfCatalogue catalogue (.rFavorite f)) :
    OfCatalogue catalogue (.fFavorite (.ofRFavoriteProverb f)) := by
  obtain ⟨origin, hmem, hshows⟩ := h
  exact ofCatalogue_fFavorite hmem hshows.identifier hshows.proverbSection

end Proverbs

/-- Local favourites with the contents of catalogue proverbs. -/
def CopiesOf (catalogue : LocalStorage RProverb) (favorites : List RFavoriteProverb) : Prop :=
  ∀ f ∈ favorites, Proverb.OfCatalogue catalogue (.rFavorite f)

/-! ## Firestore, calls and outputs -/

def Firestore.OfCatalogue (catalogue : LocalStorage RProverb) (firestore : Firestore) : Prop :=
  ∀ user, ∀ document ∈ firestore.favorites user,
    Proverb.OfCatalogue catalogue (.fFavorite document.favorite)

def Operation.written : Operation → List FFavoriteProverb
  | .setData _ proverb => [proverb]
  | .commit _ batch => batch
  | _ => []

def Response.found : Response → List FFavoriteProverb
  | .documents snapshots => snapshots.map Document.favorite
  | _ => []

def Callback.proverbs : Callback → List Proverb
  | .save _ _ proverb => [.fFavorite proverb]
  | .isFavorite (.checkAndSaveOrDelete _ proverb) => [proverb]
  | .favoritesFetched migration | .favoritesUploaded migration =>
      migration.localProverbs.map Proverb.rFavorite
  | _ => []

def Output.proverbs : Output → List Proverb
  | .saved _ (.ok proverb) => [proverb]
  | .gotAll _ (.ok proverbs) => proverbs
  | _ => []

namespace FirestoreManager

variable {manager : FirestoreManager} {operation : Operation}

theorem written_getAllFavoriteProverbs (h : manager.getAllFavoriteProverbs = .sent operation) :
    operation.written = [] := by
  unfold getAllFavoriteProverbs at h
  split at h
  · cases h
  · rw [← Request.sent.inj h]
    rfl

theorem written_getFavorite {identifier : Identifier}
    (h : manager.getFavorite identifier = .sent operation) : operation.written = [] := by
  unfold getFavorite at h
  split at h
  · cases h
  · rw [← Request.sent.inj h]
    rfl

theorem written_isFavorite {identifier : Identifier}
    (h : manager.isFavorite identifier = .sent operation) : operation.written = [] := by
  unfold isFavorite at h
  split at h
  · cases h
  · rw [← Request.sent.inj h]
    rfl

theorem written_delete {proverb : FFavoriteProverb}
    (h : manager.delete proverb = some (.sent operation)) : operation.written = [] := by
  obtain ⟨collection, _, _, rfl⟩ := delete_sent h
  rfl

theorem written_save {proverb : FFavoriteProverb} (h : manager.save proverb = .sent operation) :
    operation.written = [proverb] := by
  unfold save at h
  split at h
  · cases h
  · rw [← Request.sent.inj h]
    rfl

theorem written_saveAll {proverbs : List FFavoriteProverb}
    (h : manager.saveAll proverbs = .sent operation) : operation.written = proverbs := by
  unfold saveAll at h
  split at h
  · cases h
  · split at h
    · cases h
    · rw [← Request.sent.inj h]
      rfl

end FirestoreManager

structure Call.OfCatalogue (catalogue : LocalStorage RProverb) (call : Call) : Prop where
  written : ∀ f ∈ call.operation.written, Proverb.OfCatalogue catalogue (.fFavorite f)
  captured : ∀ proverb ∈ call.callback.proverbs, Proverb.OfCatalogue catalogue proverb
  found : ∀ response ∈ call.response, ∀ f ∈ response.found,
    Proverb.OfCatalogue catalogue (.fFavorite f)

def Output.OfCatalogue (catalogue : LocalStorage RProverb) (o : Output) : Prop :=
  ∀ proverb ∈ o.proverbs, Proverb.OfCatalogue catalogue proverb

/-! ## Serving a call -/

section Serve

variable {catalogue : LocalStorage RProverb} {firestore : Firestore} {operation : Operation}

theorem Firestore.OfCatalogue.updateFavorites (h : firestore.OfCatalogue catalogue)
    {user : UserIdentifier} {change : Collection → Collection}
    (hchange : ∀ document ∈ change (firestore.favorites user),
      document ∈ firestore.favorites user ∨
        Proverb.OfCatalogue catalogue (.fFavorite document.favorite)) :
    (firestore.updateFavorites user change).OfCatalogue catalogue := by
  intro other document hdocument
  by_cases hother : other = user
  · subst hother
    rw [Firestore.favorites_updateFavorites_self] at hdocument
    exact (hchange document hdocument).elim (h other document) id
  · rw [Firestore.favorites_updateFavorites_ne _ _ hother] at hdocument
    exact h other document hdocument

theorem Firestore.OfCatalogue.written (h : firestore.OfCatalogue catalogue)
    (hwritten : ∀ f ∈ operation.written, Proverb.OfCatalogue catalogue (.fFavorite f))
    (outcome : Outcome) : (firestore.serve operation outcome).1.OfCatalogue catalogue := by
  have hwrite : ∀ written : Firestore, written.OfCatalogue catalogue →
      (firestore.write outcome written).1.OfCatalogue catalogue := by
    intro written hnew
    cases outcome with
    | error => exact h
    | success | nothing => exact hnew
  have hquery : ∀ response, (firestore.query outcome response).1.OfCatalogue catalogue := by
    intro response
    cases outcome <;> exact h
  cases operation with
  | getUserDocument user => exact hquery _
  | getDocuments user => exact hquery _
  | whereOriginIdentifier user identifier => exact hquery _
  | setUserDocument user => exact hwrite _ h
  | commit user batch =>
      refine hwrite _ (h.updateFavorites fun document hdocument => ?_)
      rcases KeyedStore.mem_putAll_last.mp hdocument with hfind | ⟨hold, -⟩
      · have hmem := List.mem_reverse.mp (List.mem_of_find?_eq_some hfind)
        obtain ⟨f, hf, rfl⟩ := List.mem_map.mp hmem
        exact Or.inr (hwritten f hf)
      · exact Or.inl hold
  | setData user proverb =>
      refine hwrite _ (h.updateFavorites fun document hdocument => ?_)
      rcases KeyedStore.mem_put.mp hdocument with rfl | ⟨hold, -⟩
      · exact Or.inr (hwritten proverb (List.mem_singleton.mpr rfl))
      · exact Or.inl hold
  | deleteDocument user documentID =>
      refine hwrite _ (h.updateFavorites fun document hdocument => ?_)
      exact Or.inl (KeyedStore.mem_erase.mp hdocument).1

theorem Firestore.OfCatalogue.found (h : firestore.OfCatalogue catalogue)
    (operation : Operation) (outcome : Outcome) :
    ∀ f ∈ (firestore.serve operation outcome).2.found,
      Proverb.OfCatalogue catalogue (.fFavorite f) := by
  have hwrite : ∀ written, ∀ f ∈ (firestore.write outcome written).2.found,
      Proverb.OfCatalogue catalogue (.fFavorite f) := by
    intro written f hf
    cases outcome <;> cases hf
  have hquery : ∀ response, (∀ f ∈ response.found,
      Proverb.OfCatalogue catalogue (.fFavorite f)) →
      ∀ f ∈ (firestore.query outcome response).2.found,
        Proverb.OfCatalogue catalogue (.fFavorite f) := by
    intro response hresponse f hf
    cases outcome with
    | success => exact hresponse f hf
    | error | nothing => cases hf
  cases operation with
  | getUserDocument user => exact hquery _ fun _ hf => by cases hf
  | getDocuments user =>
      apply hquery
      intro f hf
      obtain ⟨document, hdocument, rfl⟩ := List.mem_map.mp hf
      exact h user document (Collection.mem_documents.mp hdocument)
  | whereOriginIdentifier user identifier =>
      apply hquery
      intro f hf
      obtain ⟨document, hdocument, rfl⟩ := List.mem_map.mp hf
      exact h user document (Collection.mem_documents.mp (List.mem_filter.mp hdocument).1)
  | setUserDocument user => exact hwrite _
  | commit user batch => exact hwrite _
  | setData user proverb => exact hwrite _
  | deleteDocument user documentID => exact hwrite _

end Serve

end Proverbs
