import Proverbs.Core.InFlight
import Proverbs.Managers.Calculus

/-! # Concurrent toggles of remote favourites

A toggle checks the collection and writes later, under a fresh document id. Once
its query has been answered without a document the toggle is committed to a
write. Documents and committed toggles of one proverb are counted together: the
count is kept by every step except an answer that commits a second toggle.
-/

namespace Proverbs.App

/-- How many documents carry this origin. -/
def originDocuments (collection : Collection) (origin : Identifier) : Nat :=
  collection.entries.countP fun document => document.data.originIdentifier = some origin

def OnePerOrigin (collection : Collection) : Prop :=
  ∀ origin, originDocuments collection origin ≤ 1

/-- The call will end in a new document of this origin: a toggle that found none,
or its write before it is carried out. -/
def commits (origin : Identifier) : Call → Bool
  | ⟨_, .isFavorite (.checkAndSaveOrDelete _ (.rProverb proverb)), some response⟩ =>
      decide (proverb.identifier = origin) && !FirestoreManager.isFavoriteResult response
  | ⟨_, .save _ _ proverb, none⟩ => decide (proverb.originIdentifier = origin)
  | _ => false

def committed (s : App) (origin : Identifier) : Nat := s.calls.countP (commits origin)

/-- Toggles of catalogue proverbs, operations that succeed, and their callbacks. -/
def ToggleEvent : Event → Prop
  | .checkAndSaveOrDeleteFavorite (.rProverb _) => True
  | .serve _ .success => True
  | .deliver _ => True
  | _ => False

/-- Where the query of a toggle is answered without a document, no other toggle of
that proverb is committed to a write. -/
def TogglesAlone (user : UserIdentifier) (s : App) (input : Input) : Prop :=
  match input.event with
  | .serve index _ =>
      ∀ operation request proverb,
        s.calls[index]? =
          some ⟨operation, .isFavorite (.checkAndSaveOrDelete request (.rProverb proverb)), none⟩ →
        originDocuments (s.firestore.favorites user) proverb.identifier = 0 →
          s.committed proverb.identifier = 0
  | _ => True

inductive ToggleCall (user : UserIdentifier) : Call → Prop where
  | check (request : Nat) (proverb : RProverb) (response : Option Response) :
      ToggleCall user ⟨.whereOriginIdentifier user proverb.identifier,
        .isFavorite (.checkAndSaveOrDelete request (.rProverb proverb)), response⟩
  | write (request : Nat) (ids : ProverbIdentifiers) (proverb : FFavoriteProverb)
      (response : Option Response) :
      ToggleCall user ⟨.setData user proverb, .save request ids proverb, response⟩
  | find (request : Nat) (ids : ProverbIdentifiers) (identifier : Identifier)
      (response : Option Response) :
      ToggleCall user
        ⟨.whereOriginIdentifier user identifier, .getFavorite request ids, response⟩
  | erase (request : Nat) (ids : ProverbIdentifiers) (documentID : Identifier)
      (response : Option Response) :
      ToggleCall user ⟨.deleteDocument user documentID, .delete request ids, response⟩

/-- The invariant: remote mode for this user, only calls of toggles, and at most one
document or commitment for each proverb. -/
structure Toggling (user : UserIdentifier) (s : App) : Prop where
  plan : s.currentPlan = .paidRegistered
  collection : s.remoteCollection = some user
  calls : ∀ call ∈ s.calls, ToggleCall user call
  weight : ∀ origin,
    originDocuments (s.firestore.favorites user) origin + s.committed origin ≤ 1

/-! ## Counting -/

section Counting

theorem whereOriginIdentifier_length (collection : Collection) (origin : Identifier) :
    (collection.whereOriginIdentifier origin).length = originDocuments collection origin := by
  rw [Collection.whereOriginIdentifier, ← List.countP_eq_length_filter]
  exact (List.perm_insertionSort _ _).countP_eq _

theorem originDocuments_put_le (collection : Collection) (proverb : FFavoriteProverb)
    (origin : Identifier) :
    originDocuments (collection.put (Document.ofFavorite proverb)) origin ≤
      originDocuments collection origin + if proverb.originIdentifier = origin then 1 else 0 := by
  have hput := KeyedStore.countP_put_le
    (fun document => decide (document.data.originIdentifier = some origin)) collection
    (Document.ofFavorite proverb)
  have hnew : decide ((Document.ofFavorite proverb).data.originIdentifier = some origin) =
      decide (proverb.originIdentifier = origin) := by
    simp [Document.ofFavorite, FFavoriteProverb.dictionary]
  simpa only [originDocuments, hnew, decide_eq_true_eq] using hput

theorem originDocuments_erase_le (collection : Collection) (documentID origin : Identifier) :
    originDocuments (collection.erase documentID) origin ≤ originDocuments collection origin :=
  KeyedStore.countP_erase_le _ collection documentID

end Counting

/-! ## Remote mode -/

/-- Favourites live in this user's collection. -/
structure RemoteMode (user : UserIdentifier) (s : App) : Prop where
  plan : s.currentPlan = .paidRegistered
  collection : s.remoteCollection = some user

namespace RemoteMode

variable {user : UserIdentifier} {s : App}

theorem isLocalStorage (h : RemoteMode user s) : s.isLocalStorage = false := by
  simp [App.isLocalStorage, h.plan]

theorem manager (h : RemoteMode user s) :
    ∃ manager, s.remoteStorage = some manager ∧ manager.favoritesCollection = some user :=
  Option.bind_eq_some_iff.mp h.collection

theorem deleteRemote_eq (h : RemoteMode user s) (request : Nat) (ids : ProverbIdentifiers)
    (proverb : FFavoriteProverb) :
    s.deleteRemote request ids proverb =
      if isDocumentPath proverb.identifier then
        s.call (.deleteDocument user proverb.identifier) (.delete request ids)
      else s.abort := by
  obtain ⟨manager, hm, hu⟩ := h.manager
  simp only [deleteRemote, hm, FirestoreManager.delete, hu]
  cases isDocumentPath proverb.identifier <;> rfl

theorem delete_eq (h : RemoteMode user s) (proverb : RProverb) (request : Nat) :
    s.delete (.rProverb proverb) request =
      some (s.call (.whereOriginIdentifier user proverb.identifier)
        (.getFavorite request ⟨none, proverb.identifier⟩)) := by
  obtain ⟨manager, hm, hu⟩ := h.manager
  simp [delete, readable, h.isLocalStorage, checkAndDeleteRemote, hm,
    FirestoreManager.getFavorite, hu, identifiers]

theorem save_eq (h : RemoteMode user s) (proverb : RProverb) (request : Nat)
    (random : Identifier) (now : Date) :
    s.save (.rProverb proverb) request random now =
      some ((s.output (.saveCalled request s.isPurchased s.storedCount)).call
        (.setData user (FFavoriteProverb.ofRProverb random now proverb))
        (.save request ⟨none, proverb.identifier⟩
          (FFavoriteProverb.ofRProverb random now proverb))) := by
  obtain ⟨manager, hm, hu⟩ := h.manager
  let t := s.output (.saveCalled request s.isPurchased s.storedCount)
  have hm' : t.remoteStorage = some manager := hm
  have hremote : t.isLocalStorage = false := h.isLocalStorage
  simp only [save, readable, if_true]
  rw [hremote]
  simp only [Bool.false_eq_true, if_false, chackAndSaveRemote]
  rw [hm']
  simp only [FirestoreManager.save, hu]
  rfl

theorem toggle_eq (h : RemoteMode user s) (proverb : RProverb) (random : Identifier) (now : Date) :
    step s ⟨.checkAndSaveOrDeleteFavorite (.rProverb proverb), random, now⟩ =
      some (s.takeRequest.call (.whereOriginIdentifier user proverb.identifier)
        (.isFavorite (.checkAndSaveOrDelete s.nextRequest (.rProverb proverb)))) := by
  obtain ⟨manager, hm, hu⟩ := h.manager
  have hm' : s.takeRequest.remoteStorage = some manager := hm
  have hremote : s.takeRequest.isLocalStorage = false := h.isLocalStorage
  simp only [step, isFavorite]
  rw [hremote]
  simp only [Bool.false_eq_true, if_false, isFavoriteRemote]
  rw [hm']
  simp only [FirestoreManager.isFavorite, hu]

end RemoteMode

/-! ## Calls that are sent -/

section Sent

variable {user : UserIdentifier} {s : App}

/-- A call of a toggle that commits to no more than is already counted. -/
theorem Toggling.call (h : Toggling user s) {operation : Operation} {callback : Callback}
    (hcall : ToggleCall user ⟨operation, callback, none⟩)
    (hcommits : ∀ origin, commits origin ⟨operation, callback, none⟩ = true →
      originDocuments (s.firestore.favorites user) origin + s.committed origin = 0) :
    Toggling user (s.call operation callback) := by
  refine ⟨h.plan, h.collection, ?_, fun origin => ?_⟩
  · intro call hmem
    rw [calls_call, List.mem_append, List.mem_singleton] at hmem
    rcases hmem with hmem | rfl
    · exact h.calls call hmem
    · exact hcall
  · have hcount : (s.call operation callback).committed origin =
        s.committed origin + if commits origin ⟨operation, callback, none⟩ then 1 else 0 := by
      simp [committed, List.countP_append, List.countP_cons]
    change originDocuments (s.firestore.favorites user) origin + _ ≤ 1
    rw [hcount]
    have hweight := h.weight origin
    split
    · rename_i hnew
      have hzero := hcommits origin hnew
      omega
    · omega

theorem Toggling.call_uncommitted (h : Toggling user s) {operation : Operation}
    {callback : Callback} (hcall : ToggleCall user ⟨operation, callback, none⟩)
    (hcommits : ∀ origin, commits origin ⟨operation, callback, none⟩ = false) :
    Toggling user (s.call operation callback) :=
  h.call hcall fun origin hnew => by simp [hcommits origin] at hnew

theorem Toggling.remoteMode (h : Toggling user s) : RemoteMode user s := ⟨h.plan, h.collection⟩

theorem Toggling.output (h : Toggling user s) (o : Output) : Toggling user (s.output o) :=
  ⟨h.plan, h.collection, h.calls, h.weight⟩

theorem Toggling.takeRequest (h : Toggling user s) : Toggling user s.takeRequest :=
  ⟨h.plan, h.collection, h.calls, h.weight⟩

theorem Toggling.saveCompleted (h : Toggling user s) (request : Nat) (ids : ProverbIdentifiers)
    (result : Except AppError Proverb) : Toggling user (s.saveCompleted request ids result) := by
  cases result with
  | ok proverb => exact (h.output _).output _
  | error error => exact h.output _

theorem Toggling.deleteCompleted (h : Toggling user s) (request : Nat) (ids : ProverbIdentifiers)
    (error : Option AppError) : Toggling user (s.deleteCompleted request ids error) := by
  cases error with
  | none => exact (h.output _).output _
  | some error => exact h.output _

theorem Toggling.deleteRemote (h : Toggling user s) (request : Nat) (ids : ProverbIdentifiers)
    (proverb : FFavoriteProverb) : Toggling user (s.deleteRemote request ids proverb) := by
  rw [h.remoteMode.deleteRemote_eq]
  split
  · exact h.call_uncommitted (.erase request ids _ none) fun _ => rfl
  · exact ⟨h.plan, h.collection, h.calls, h.weight⟩

theorem Toggling.delete (h : Toggling user s) {s' : App} (request : Nat) {proverb : RProverb}
    (hs : s.delete (.rProverb proverb) request = some s') : Toggling user s' := by
  rw [h.remoteMode.delete_eq] at hs
  rw [← Option.some.inj hs]
  exact h.call_uncommitted (.find request _ _ none) fun _ => rfl

theorem Toggling.save (h : Toggling user s) {s' : App} (request : Nat) {proverb : RProverb}
    {random : Identifier} {now : Date}
    (hfree : originDocuments (s.firestore.favorites user) proverb.identifier +
      s.committed proverb.identifier = 0)
    (hs : s.save (.rProverb proverb) request random now = some s') : Toggling user s' := by
  rw [h.remoteMode.save_eq] at hs
  rw [← Option.some.inj hs]
  refine (h.output _).call (.write request _ _ none) fun origin hnew => ?_
  have horigin : proverb.identifier = origin := of_decide_eq_true hnew
  exact horigin ▸ hfree

end Sent

/-! ## Steps -/

section Steps

variable {user : UserIdentifier} {s s' : App} {random : Identifier} {now : Date}

theorem Toggling.toggle (h : Toggling user s) {proverb : RProverb}
    (hs : step s ⟨.checkAndSaveOrDeleteFavorite (.rProverb proverb), random, now⟩ = some s') :
    Toggling user s' := by
  rw [h.remoteMode.toggle_eq] at hs
  rw [← Option.some.inj hs]
  exact h.takeRequest.call_uncommitted (.check _ proverb none) fun _ => rfl

/-- Carrying a call out trades what the call was committed to for what it finds or
writes. -/
theorem Toggling.served (h : Toggling user s) {index : Nat} {operation : Operation}
    {callback : Callback} {response : Response} {firestore : Firestore}
    (hcall : s.calls[index]? = some ⟨operation, callback, none⟩)
    (hserved : ToggleCall user ⟨operation, callback, some response⟩)
    (hweight : ∀ origin,
      originDocuments (firestore.favorites user) origin + s.committed origin +
          (if commits origin ⟨operation, callback, some response⟩ then 1 else 0) ≤
        1 + if commits origin ⟨operation, callback, none⟩ then 1 else 0) :
    Toggling user { s with
      firestore := firestore
      calls := s.calls.set index ⟨operation, callback, some response⟩ } := by
  refine ⟨h.plan, h.collection, ?_, fun origin => ?_⟩
  · intro call hmem
    rcases List.mem_or_eq_of_mem_set hmem with hmem | rfl
    · exact h.calls call hmem
    · exact hserved
  · have hset := InFlight.countP_set_add (commits origin) hcall ⟨operation, callback, some response⟩
    have hlimit := hweight origin
    simp only [committed] at hlimit ⊢
    omega

theorem Toggling.serve (h : Toggling user s) {index : Nat}
    (halone : TogglesAlone user s ⟨.serve index .success, random, now⟩) :
    Toggling user (s.serve index .success) := by
  unfold App.serve
  split
  · rename_i operation callback hcall
    have htoggle := h.calls _ (List.mem_of_getElem? hcall)
    cases htoggle with
    | check request proverb =>
        refine h.served hcall (.check request proverb _) fun origin => ?_
        have hweight := h.weight origin
        simp only [commits, FirestoreManager.isFavoriteResult, whereOriginIdentifier_length,
          Bool.and_eq_true, Bool.not_eq_true', decide_eq_true_eq, decide_eq_false_iff_not,
          Bool.false_eq_true, if_false]
        split
        · rename_i hnone
          obtain ⟨rfl, hempty⟩ := hnone
          have hzero : originDocuments (s.firestore.favorites user) proverb.identifier = 0 := by
            omega
          have hfree := halone _ _ _ hcall hzero
          omega
        · omega
    | write request ids proverb =>
        refine h.served hcall (.write request ids proverb _) fun origin => ?_
        have hweight := h.weight origin
        have hput := originDocuments_put_le (s.firestore.favorites user) proverb origin
        simp only [commits, Bool.false_eq_true, if_false,
          Firestore.favorites_updateFavorites_self, decide_eq_true_eq]
        omega
    | find request ids identifier =>
        refine h.served hcall (.find request ids identifier _) fun origin => ?_
        simpa [Firestore.serve, Firestore.query, commits] using h.weight origin
    | erase request ids documentID =>
        refine h.served hcall (.erase request ids documentID _) fun origin => ?_
        have hweight := h.weight origin
        have herase := originDocuments_erase_le (s.firestore.favorites user) documentID origin
        simp only [commits, Bool.false_eq_true, if_false,
          Firestore.favorites_updateFavorites_self]
        omega
  · exact h

theorem Toggling.eraseIdx (h : Toggling user s) {index : Nat} {call : Call}
    (hcall : s.calls[index]? = some call) :
    Toggling user { s with calls := s.calls.eraseIdx index } ∧
      ∀ origin, commits origin call = true →
        originDocuments (s.firestore.favorites user) origin +
          ({ s with calls := s.calls.eraseIdx index } : App).committed origin = 0 := by
  have hcount := fun origin => InFlight.countP_eraseIdx_add (commits origin) hcall
  refine ⟨⟨h.plan, h.collection, ?_, fun origin => ?_⟩, fun origin hcommits => ?_⟩
  · exact fun call hmem => h.calls call (List.mem_of_mem_eraseIdx hmem)
  · have hweight := h.weight origin
    have hone := hcount origin
    simp only [committed] at hweight ⊢
    omega
  · have hweight := h.weight origin
    have hone := hcount origin
    simp only [hcommits, if_true] at hone
    simp only [committed] at hweight ⊢
    omega

theorem Toggling.deliver (h : Toggling user s) {index : Nat}
    (hs : s.deliver index random now = some s') : Toggling user s' := by
  unfold App.deliver at hs
  split at hs
  · rename_i operation callback response hcall
    obtain ⟨herase, hfree⟩ := h.eraseIdx hcall
    have htoggle := h.calls _ (List.mem_of_getElem? hcall)
    cases htoggle with
    | check request proverb =>
        simp only [called, checkCompleted] at hs
        split at hs
        · exact herase.delete request hs
        · rename_i hnone
          refine herase.save request (hfree proverb.identifier ?_) hs
          simp [commits, hnone]
    | write request ids proverb =>
        rw [← Option.some.inj hs]
        exact herase.saveCompleted request ids _
    | find request ids identifier =>
        rw [← Option.some.inj hs]
        cases FirestoreManager.getFavoriteResult response with
        | ok proverb => exact herase.deleteRemote request ids proverb
        | error error => exact herase.deleteCompleted request ids (some error)
    | erase request ids documentID =>
        rw [← Option.some.inj hs]
        exact herase.deleteCompleted request ids _
  · rw [← Option.some.inj hs]
    exact h

theorem toggling_step {input : Input} (h : Toggling user s)
    (hguard : ToggleEvent input.event ∧ TogglesAlone user s input)
    (hs : step s input = some s') : Toggling user s' := by
  obtain ⟨event, random, now⟩ := input
  obtain ⟨hevent, halone⟩ := hguard
  cases event with
  | checkAndSaveOrDeleteFavorite proverb =>
      cases proverb with
      | rProverb proverb => exact h.toggle hs
      | rFavorite f => exact hevent.elim
      | fFavorite f => exact hevent.elim
  | serve index outcome =>
      cases outcome with
      | success =>
          rw [← Option.some.inj hs]
          exact h.serve halone
      | error => exact hevent.elim
      | nothing => exact hevent.elim
  | deliver index => exact h.deliver hs
  | _ => exact hevent.elim

end Steps

/-- In remote mode, from a collection with one document for each origin and for any
number of toggles in any order, the collection keeps one document for each origin
as long as no query commits a toggle beside another one of its proverb. -/
theorem toggles_keep_one_per_origin {user : UserIdentifier} {s : App}
    (hplan : s.currentPlan = .paidRegistered) (hcollection : s.remoteCollection = some user)
    (hcalls : s.calls = []) (hone : OnePerOrigin (s.firestore.favorites user))
    {inputs : List Input} (hevents : ∀ input ∈ inputs, ToggleEvent input.event)
    (halone : Transition.Along step (TogglesAlone user) s inputs) :
    Transition.Along step (fun s _ => OnePerOrigin (s.firestore.favorites user)) s inputs ∧
      ∀ t, Transition.run step s inputs = some t →
        OnePerOrigin (t.firestore.favorites user) := by
  have hstart : Toggling user s := by
    refine ⟨hplan, hcollection, by simp [hcalls], fun origin => ?_⟩
    have hdocuments := hone origin
    simp only [committed, hcalls, List.countP_nil]
    omega
  have hkeep : ∀ s input s', Toggling user s →
      ToggleEvent input.event ∧ TogglesAlone user s input → step s input = some s' →
      Toggling user s' := fun _ _ _ hs hguard h => toggling_step hs hguard h
  have hunique : ∀ {s}, Toggling user s → OnePerOrigin (s.firestore.favorites user) := by
    intro s hs origin
    have hweight := hs.weight origin
    omega
  have hguarded := (Transition.along_of_forall hevents s).and halone
  constructor
  · exact Transition.along_of_invariant hkeep (fun _ _ hs _ => hunique hs) hstart hguarded
  · intro t ht
    exact hunique (Transition.run_invariant hkeep hstart hguarded ht)

/-- A user signed in with a purchase, and an empty collection. -/
def registered : App :=
  { installed with
    currentUser := some "user"
    isPurchased := true
    firstLaunchFlag := true
    currentPlan := .paidRegistered
    remoteStorage := some ⟨0, "user", some "user"⟩
    nextReference := 1 }

/-- Two toggles under way at once: the later one asks and writes before the other has written. -/
def twoToggles : List Input :=
  [⟨.checkAndSaveOrDeleteFavorite (.rProverb ⟨"1", 0, "", "", "", false⟩), "", 0⟩,
    ⟨.checkAndSaveOrDeleteFavorite (.rProverb ⟨"2", 0, "", "", "", false⟩), "", 0⟩,
    ⟨.serve 0 .success, "", 0⟩, ⟨.serve 1 .success, "", 0⟩, ⟨.deliver 1, "b", 0⟩,
    ⟨.deliver 0, "a", 0⟩, ⟨.serve 0 .success, "", 0⟩, ⟨.serve 1 .success, "", 0⟩]

theorem toggles_keep_one_per_origin_saved :
    ∃ t, Transition.run step registered twoToggles = some t ∧
      (t.firestore.favorites "user").entries.length = 2 ∧
      OnePerOrigin (t.firestore.favorites "user") := by
  have hone : OnePerOrigin (registered.firestore.favorites "user") := fun _ => Nat.zero_le 1
  have hevents : ∀ input ∈ twoToggles, ToggleEvent input.event := by
    simp [twoToggles, ToggleEvent]
  have halone : Transition.Along step (TogglesAlone "user") registered twoToggles := by
    refine ⟨trivial, fun s₁ h₁ => ?_⟩
    obtain rfl := Option.some.inj h₁
    refine ⟨trivial, fun s₂ h₂ => ?_⟩
    obtain rfl := Option.some.inj h₂
    refine ⟨fun _ _ _ _ _ => rfl, fun s₃ h₃ => ?_⟩
    obtain rfl := Option.some.inj h₃
    refine ⟨fun operation request proverb hcall _ => ?_, fun s₄ h₄ => ?_⟩
    · have hcallback := congrArg Call.callback (Option.some.inj hcall)
      simp only [Callback.isFavorite.injEq, CheckCompletion.checkAndSaveOrDelete.injEq,
        Proverb.rProverb.injEq] at hcallback
      rw [← hcallback.2]
      decide
    obtain rfl := Option.some.inj h₄
    refine ⟨trivial, fun s₅ h₅ => ?_⟩
    obtain rfl := Option.some.inj h₅
    refine ⟨trivial, fun s₆ h₆ => ?_⟩
    obtain rfl := Option.some.inj h₆
    refine ⟨fun operation request proverb hcall => ?_, fun s₇ h₇ => ?_⟩
    · have hcallback := congrArg Call.callback (Option.some.inj hcall)
      exact absurd hcallback (by simp)
    obtain rfl := Option.some.inj h₇
    refine ⟨fun operation request proverb hcall => ?_, fun _ _ => trivial⟩
    have hcallback := congrArg Call.callback (Option.some.inj hcall)
    exact absurd hcallback (by simp)
  exact ⟨_, rfl, by decide,
    (toggles_keep_one_per_origin rfl rfl rfl hone hevents halone).2 _ rfl⟩

/-- Both screens ask before either has written. -/
theorem two_toggles_duplicate_favorite :
    ¬ ∀ t, Transition.run step registered
        [⟨.checkAndSaveOrDeleteFavorite (.rProverb ⟨"proverb", 0, "", "", "", false⟩), "", 0⟩,
          ⟨.checkAndSaveOrDeleteFavorite (.rProverb ⟨"proverb", 0, "", "", "", false⟩), "", 0⟩,
          ⟨.serve 0 .success, "", 0⟩, ⟨.serve 1 .success, "", 0⟩, ⟨.deliver 0, "a", 0⟩,
          ⟨.deliver 0, "b", 0⟩, ⟨.serve 0 .success, "", 0⟩, ⟨.serve 1 .success, "", 0⟩] = some t →
      OnePerOrigin (t.firestore.favorites "user") := by
  intro h
  exact absurd (h _ rfl "proverb") (by decide)

end Proverbs.App
