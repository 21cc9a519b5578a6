import Proverbs.Managers.RemoteToggles

/-! # Toggles whose lookup fails

A toggle that meets nothing else is a short run: the lookup, then a write or a search
and a removal. Its effect on the collection is an explicit function of the outcomes of
its calls. A lookup that fails is answered like one that finds nothing, so the toggle
goes on to write.
-/

namespace Proverbs.App

/-- One use of `checkAndSaveOrDeleteFavorite` with the outcomes of its calls, in their
order, and the identifier and the time it draws. -/
structure RemoteToggle where
  proverb : RProverb
  lookup : Outcome
  /-- Of the write, or of the search for the document to delete. -/
  second : Outcome
  deletion : Outcome
  random : Identifier
  now : Date

namespace RemoteToggle

/-- Every call is served and delivered before anything else happens; where a toggle
makes fewer calls the rest does nothing. -/
def inputs (t : RemoteToggle) : List Input :=
  [.checkAndSaveOrDeleteFavorite (.rProverb t.proverb), .serve 0 t.lookup, .deliver 0,
    .serve 0 t.second, .deliver 0, .serve 0 t.deletion, .deliver 0].map
      fun event => ⟨event, t.random, t.now⟩

def favorite (t : RemoteToggle) : FFavoriteProverb :=
  FFavoriteProverb.ofRProverb t.random t.now t.proverb

def written (t : RemoteToggle) (collection : Collection) : Collection :=
  if t.second = .error then collection else collection.put (Document.ofFavorite t.favorite)

def removed (t : RemoteToggle) (collection : Collection) (document : Document) : Collection :=
  if t.second = .success ∧ isDocumentPath document.favorite.identifier ∧ t.deletion ≠ .error then
    collection.erase document.favorite.identifier
  else collection

/-- What a toggle does to the collection. -/
def changed (t : RemoteToggle) (collection : Collection) : Collection :=
  match t.lookup, collection.whereOriginIdentifier t.proverb.identifier with
  | .success, document :: _ => t.removed collection document
  | _, _ => t.written collection

/-- The lookup ends with a snapshot; or the write is refused, or finds the very
document it writes. -/
def LookupCounts (t : RemoteToggle) (collection : Collection) : Prop :=
  t.lookup = .success ∨ t.second = .error ∨ Document.ofFavorite t.favorite ∈ collection

end RemoteToggle

def toggled (s : App) (t : RemoteToggle) : Option App := Transition.run step s t.inputs

structure Idle (user : UserIdentifier) (s : App) : Prop where
  mode : RemoteMode user s
  calls : s.calls = []

/-- What the toggle owes: nothing is written after a failed lookup, and no proverb
gets a second document. -/
def LookupRespected (user : UserIdentifier) (s : App) (t : RemoteToggle) : Prop :=
  ∀ s', toggled s t = some s' →
    (t.lookup ≠ .success → s'.firestore.favorites user = s.firestore.favorites user) ∧
      OnePerOrigin (s'.firestore.favorites user)

/-! ## A toggle as a function of the collection -/

section Effect

variable {user : UserIdentifier} {s : App} {random : Identifier} {now : Date}

/-- With nothing in flight there is nothing to serve or to deliver. -/
theorem run_serve_deliver_idle (hcalls : s.calls = []) (outcome : Outcome) (inputs : List Input) :
    Transition.run step s
        (⟨.serve 0 outcome, random, now⟩ :: ⟨.deliver 0, random, now⟩ :: inputs) =
      Transition.run step s inputs := by
  have hserve : s.serve 0 outcome = s := by simp [serve, hcalls]
  have hdeliver : s.deliver 0 random now = some s := by simp [deliver, hcalls]
  simp only [Transition.run_cons, step, Option.bind_some, hserve, hdeliver]

theorem run_serve_deliver_call (hcalls : s.calls = []) (operation : Operation)
    (callback : Callback) (outcome : Outcome) (inputs : List Input) :
    Transition.run step (s.call operation callback)
        (⟨.serve 0 outcome, random, now⟩ :: ⟨.deliver 0, random, now⟩ :: inputs) =
      ({ s with firestore := (s.firestore.serve operation outcome).1 }.called callback
        (s.firestore.serve operation outcome).2 random now).bind
          fun s' => Transition.run step s' inputs := by
  have hlength : s.calls.length = 0 := by rw [hcalls, List.length_nil]
  simp only [Transition.run_cons, step, Option.bind_some]
  rw [← hlength, deliver_serve_call]

theorem firestore_query (firestore : Firestore) (identifier : Identifier) (outcome : Outcome) :
    (firestore.serve (.whereOriginIdentifier user identifier) outcome).1 = firestore := by
  cases outcome <;> rfl

theorem Idle.output (h : Idle user s) (o : Output) : Idle user (s.output o) :=
  ⟨⟨h.mode.plan, h.mode.collection⟩, h.calls⟩

theorem Idle.firestore (h : Idle user s) (firestore : Firestore) :
    Idle user { s with firestore := firestore } :=
  ⟨⟨h.mode.plan, h.mode.collection⟩, h.calls⟩

theorem Idle.takeRequest (h : Idle user s) : Idle user s.takeRequest :=
  ⟨⟨h.mode.plan, h.mode.collection⟩, h.calls⟩

theorem Idle.saveCompleted (h : Idle user s) (request : Nat) (ids : ProverbIdentifiers)
    (result : Except AppError Proverb) : Idle user (s.saveCompleted request ids result) := by
  cases result with
  | ok proverb => exact (h.output _).output _
  | error error => exact h.output _

theorem Idle.deleteCompleted (h : Idle user s) (request : Nat) (ids : ProverbIdentifiers)
    (error : Option AppError) : Idle user (s.deleteCompleted request ids error) := by
  cases error with
  | none => exact (h.output _).output _
  | some error => exact h.output _

theorem firestore_saveCompleted (s : App) (request : Nat) (ids : ProverbIdentifiers)
    (result : Except AppError Proverb) :
    (s.saveCompleted request ids result).firestore = s.firestore := by
  cases result <;> rfl

theorem firestore_deleteCompleted (s : App) (request : Nat) (ids : ProverbIdentifiers)
    (error : Option AppError) :
    (s.deleteCompleted request ids error).firestore = s.firestore := by
  cases error <;> rfl

theorem run_save (h : Idle user s) (t : RemoteToggle) (request : Nat) :
    ∃ s', ((s.save (.rProverb t.proverb) request t.random t.now).bind fun s' =>
        Transition.run step s'
          [⟨.serve 0 t.second, t.random, t.now⟩, ⟨.deliver 0, t.random, t.now⟩,
            ⟨.serve 0 t.deletion, t.random, t.now⟩, ⟨.deliver 0, t.random, t.now⟩]) = some s' ∧
      Idle user s' ∧
        s'.firestore.favorites user = t.written (s.firestore.favorites user) := by
  rw [h.mode.save_eq, Option.bind_some, run_serve_deliver_call (h.output _).calls]
  simp only [called, Option.bind_some]
  have hidle := ((h.output (.saveCalled request s.isPurchased s.storedCount)).firestore
    (s.firestore.serve (.setData user t.favorite) t.second).1).saveCompleted request
      ⟨none, t.proverb.identifier⟩
      ((FirestoreManager.saveResult t.favorite
        (s.firestore.serve (.setData user t.favorite) t.second).2).map Proverb.fFavorite)
  refine ⟨_, run_serve_deliver_idle hidle.calls _ _, hidle, ?_⟩
  rw [firestore_saveCompleted]
  unfold RemoteToggle.written
  cases t.second <;> simp [Firestore.serve, Firestore.write]

theorem run_delete (h : Idle user s) (t : RemoteToggle) (request : Nat) {document : Document}
    {documents : List Document}
    (hfound : (s.firestore.favorites user).whereOriginIdentifier t.proverb.identifier =
      document :: documents) :
    ∃ s', ((s.delete (.rProverb t.proverb) request).bind fun s' =>
        Transition.run step s'
          [⟨.serve 0 t.second, t.random, t.now⟩, ⟨.deliver 0, t.random, t.now⟩,
            ⟨.serve 0 t.deletion, t.random, t.now⟩, ⟨.deliver 0, t.random, t.now⟩]) = some s' ∧
      Idle user s' ∧
        s'.firestore.favorites user = t.removed (s.firestore.favorites user) document := by
  rw [h.mode.delete_eq, Option.bind_some, run_serve_deliver_call h.calls, firestore_query]
  simp only [called, Option.bind_some]
  have hfailed : ∀ error, ∃ s', Transition.run step
      (s.deleteCompleted request ⟨none, t.proverb.identifier⟩ (some error))
        [⟨.serve 0 t.deletion, t.random, t.now⟩, ⟨.deliver 0, t.random, t.now⟩] = some s' ∧
      Idle user s' ∧ s'.firestore.favorites user = s.firestore.favorites user := by
    intro error
    have hidle := h.deleteCompleted request ⟨none, t.proverb.identifier⟩ (some error)
    refine ⟨_, run_serve_deliver_idle hidle.calls _ _, hidle, ?_⟩
    rw [firestore_deleteCompleted]
  unfold RemoteToggle.removed
  cases hsecond : t.second with
  | error => simpa [Firestore.serve, Firestore.query, favoriteFound,
      FirestoreManager.getFavoriteResult] using hfailed .firestore
  | nothing => simpa [Firestore.serve, Firestore.query, favoriteFound,
      FirestoreManager.getFavoriteResult] using hfailed .undefinedError
  | success =>
      simp only [Firestore.serve, Firestore.query, hfound, FirestoreManager.getFavoriteResult,
        favoriteFound]
      rw [h.mode.deleteRemote_eq]
      cases hpath : isDocumentPath document.favorite.identifier with
      | false =>
          have hidle : Idle user s.abort := ⟨⟨h.mode.plan, h.mode.collection⟩, h.calls⟩
          refine ⟨s.abort, run_serve_deliver_idle hidle.calls _ _, hidle, ?_⟩
          simp [abort]
      | true =>
          rw [if_pos rfl, run_serve_deliver_call h.calls]
          simp only [called, Option.bind_some, Transition.run_nil]
          have hidle := (h.firestore (s.firestore.serve
            (.deleteDocument user document.favorite.identifier) t.deletion).1).deleteCompleted
              request ⟨none, t.proverb.identifier⟩ (FirestoreManager.deleteResult
                (s.firestore.serve (.deleteDocument user document.favorite.identifier)
                  t.deletion).2)
          refine ⟨_, rfl, hidle, ?_⟩
          rw [firestore_deleteCompleted]
          cases t.deletion <;> simp [Firestore.serve, Firestore.write]

/-- A toggle that meets nothing else never stops, and changes the collection as its
outcomes say. -/
theorem toggled_spec (h : Idle user s) (t : RemoteToggle) :
    ∃ s', toggled s t = some s' ∧ Idle user s' ∧
      s'.firestore.favorites user = t.changed (s.firestore.favorites user) := by
  have hrun : toggled s t = (s.takeRequest.checkCompleted
      (.checkAndSaveOrDelete s.nextRequest (.rProverb t.proverb))
      (FirestoreManager.isFavoriteResult (s.firestore.serve
        (.whereOriginIdentifier user t.proverb.identifier) t.lookup).2) t.random t.now).bind
      fun s' => Transition.run step s'
        [⟨.serve 0 t.second, t.random, t.now⟩, ⟨.deliver 0, t.random, t.now⟩,
          ⟨.serve 0 t.deletion, t.random, t.now⟩, ⟨.deliver 0, t.random, t.now⟩] := by
    have hstart := h.mode.toggle_eq t.proverb t.random t.now
    unfold toggled RemoteToggle.inputs
    simp only [List.map_cons, List.map_nil]
    rw [Transition.run_cons, hstart, Option.bind_some,
      run_serve_deliver_call h.takeRequest.calls, called, firestore_query]
    rfl
  rw [hrun]
  unfold RemoteToggle.changed
  simp only [checkCompleted]
  cases hlookup : t.lookup with
  | error => exact run_save h.takeRequest t s.nextRequest
  | nothing => exact run_save h.takeRequest t s.nextRequest
  | success =>
      cases hfound : (s.firestore.favorites user).whereOriginIdentifier t.proverb.identifier with
      | nil =>
          simp only [Firestore.serve, Firestore.query, hfound, FirestoreManager.isFavoriteResult]
          exact run_save h.takeRequest t s.nextRequest
      | cons document documents =>
          simp only [Firestore.serve, Firestore.query, hfound, FirestoreManager.isFavoriteResult,
            List.length_cons]
          exact run_delete h.takeRequest t s.nextRequest hfound

end Effect

/-! ## One document for each origin -/

section Collections

variable {t : RemoteToggle} {collection : Collection}

/-- After a failed lookup the collection is left alone exactly when the write is
refused or writes what is there. -/
theorem written_eq_iff :
    t.written collection = collection ↔
      t.second = .error ∨ Document.ofFavorite t.favorite ∈ collection := by
  unfold RemoteToggle.written
  by_cases hsecond : t.second = .error
  · simp [hsecond]
  · rw [if_neg hsecond, or_iff_right hsecond]
    constructor
    · intro hsame
      exact hsame ▸ KeyedStore.mem_put_self collection (Document.ofFavorite t.favorite)
    · exact KeyedStore.put_of_mem

theorem changed_of_failed (hlookup : t.lookup ≠ .success) :
    t.changed collection = t.written collection := by
  unfold RemoteToggle.changed
  split
  · rename_i hsuccess _
    exact absurd hsuccess hlookup
  · rfl

theorem unchanged_iff :
    (t.lookup ≠ .success → t.changed collection = collection) ↔ t.LookupCounts collection := by
  unfold RemoteToggle.LookupCounts
  by_cases hlookup : t.lookup = .success
  · simp [hlookup]
  · rw [changed_of_failed hlookup, written_eq_iff]
    simp [hlookup]

/-- A favourite is only added where the lookup has found none of its proverb. -/
theorem onePerOrigin_written (hone : OnePerOrigin collection)
    (hnone : collection.whereOriginIdentifier t.proverb.identifier = []) :
    OnePerOrigin (t.written collection) := by
  intro origin
  have hdocuments := hone origin
  unfold RemoteToggle.written
  split
  · exact hdocuments
  · have hput := originDocuments_put_le collection t.favorite origin
    have horigin : t.favorite.originIdentifier = t.proverb.identifier := rfl
    by_cases hsame : t.favorite.originIdentifier = origin
    · have hzero : originDocuments collection origin = 0 := by
        rw [← whereOriginIdentifier_length, ← hsame, horigin, hnone, List.length_nil]
      rw [if_pos hsame] at hput
      omega
    · rw [if_neg hsame] at hput
      omega

theorem onePerOrigin_changed (hone : OnePerOrigin collection) (h : t.LookupCounts collection) :
    OnePerOrigin (t.changed collection) := by
  by_cases hlookup : t.lookup = .success
  · unfold RemoteToggle.changed
    rw [hlookup]
    cases hfound : collection.whereOriginIdentifier t.proverb.identifier with
    | nil => exact onePerOrigin_written hone hfound
    | cons document documents =>
        simp only [RemoteToggle.removed]
        split
        · intro origin
          exact (originDocuments_erase_le _ _ origin).trans (hone origin)
        · exact hone
  · rw [unchanged_iff.mpr h hlookup]
    exact hone

end Collections

theorem lookupRespected_iff {user : UserIdentifier} {s : App} (h : Idle user s)
    (hone : OnePerOrigin (s.firestore.favorites user)) (t : RemoteToggle) :
    LookupRespected user s t ↔ t.LookupCounts (s.firestore.favorites user) := by
  obtain ⟨t', htoggled, _, hcollection⟩ := toggled_spec h t
  constructor
  · intro hrespected
    apply unchanged_iff.mp
    intro hlookup
    rw [← hcollection]
    exact (hrespected t' htoggled).1 hlookup
  · intro hcounts s' hs'
    have hsame : s' = t' := Option.some.inj (hs'.symm.trans htoggled)
    rw [hsame, hcollection]
    exact ⟨unchanged_iff.mpr hcounts, onePerOrigin_changed hone hcounts⟩

/-- In remote mode with nothing in flight: a toggle with a failed lookup leaves any
collection alone exactly when its write is refused, or finds the very document it
writes. From a collection with one document for each origin, a sequence of toggles in
which every failed lookup is without a write, and no origin ever has two documents,
is exactly one in which every toggle is so. -/
theorem failed_lookup_writes_nothing_iff {user : UserIdentifier} {s : App}
    (hmode : RemoteMode user s) (hcalls : s.calls = []) :
    (∀ t, ∃ s', toggled s t = some s' ∧
        ((t.lookup ≠ .success →
            s'.firestore.favorites user = s.firestore.favorites user) ↔
          t.LookupCounts (s.firestore.favorites user))) ∧
      ∀ toggles, OnePerOrigin (s.firestore.favorites user) →
        (Transition.Along toggled (LookupRespected user) s toggles ↔
          Transition.Along toggled
            (fun s t => t.LookupCounts (s.firestore.favorites user)) s toggles) := by
  have hidle : Idle user s := ⟨hmode, hcalls⟩
  constructor
  · intro t
    obtain ⟨s', htoggled, _, hcollection⟩ := toggled_spec hidle t
    refine ⟨s', htoggled, ?_⟩
    rw [hcollection]
    exact unchanged_iff
  · intro toggles hone
    apply Transition.along_congr
      (I := fun s => Idle user s ∧ OnePerOrigin (s.firestore.favorites user))
    · intro s t _ s' hs hcounts h
      obtain ⟨t', htoggled, hidle', _⟩ := toggled_spec hs.1 t
      have hsame : s' = t' := Option.some.inj (h.symm.trans htoggled)
      have hrespected := (lookupRespected_iff hs.1 hs.2 t).mpr hcounts
      exact ⟨hsame ▸ hidle', (hrespected s' h).2⟩
    · intro s t _ hs
      exact lookupRespected_iff hs.1 hs.2 t
    · exact ⟨hidle, hone⟩

/-- A proverb is saved; the next lookup fails, and the write that follows is refused; then the
proverb is deleted. -/
theorem failed_lookup_writes_nothing_twice :
    let toggle (lookup second : Outcome) (random : Identifier) : RemoteToggle :=
      ⟨⟨"proverb", 0, "", "", "", false⟩, lookup, second, .success, random, 0⟩
    Transition.Along toggled (LookupRespected "user") registered
      [toggle .success .success "a", toggle .error .error "b", toggle .success .success "c"] := by
  have h := failed_lookup_writes_nothing_iff (s := registered) ⟨rfl, rfl⟩ rfl
  refine (h.2 _ fun _ => Nat.zero_le 1).mpr ?_
  refine ⟨Or.inl rfl, fun s _ => ⟨Or.inr (Or.inl rfl), fun s _ => ⟨Or.inl rfl, fun s _ => ?_⟩⟩⟩
  trivial

/-- The proverb is saved; the next lookup fails and it is saved once more. -/
theorem failed_lookup_duplicates_favorite :
    let toggle (lookup : Outcome) (random : Identifier) : RemoteToggle :=
      ⟨⟨"proverb", 0, "", "", "", false⟩, lookup, .success, .success, random, 0⟩
    ¬ Transition.Along toggled (LookupRespected "user") registered
      [toggle .success "a", toggle .error "b"] := by
  intro toggle h
  have hstart : Idle "user" registered := ⟨⟨rfl, rfl⟩, rfl⟩
  obtain ⟨s', hsaved, hidle, hcollection⟩ :=
    toggled_spec hstart (toggle .success "a")
  have hone : OnePerOrigin (s'.firestore.favorites "user") := (h.1 s' hsaved).2
  have hcounts := (lookupRespected_iff hidle hone _).mp (h.2 s' hsaved).1
  rw [hcollection] at hcounts
  rcases hcounts with hlookup | hsecond | hmem
  · exact absurd hlookup (by decide)
  · exact absurd hsecond (by decide)
  · exact absurd (KeyedStore.mem_entries.mpr hmem) (by decide)

end Proverbs.App
