import Proverbs.Managers.MigratedCollection

/-! # Interrupted migrations

The app may be killed anywhere between the fetch and `deleteAll`, and the next process
starts over with the same local list. A batch that was applied is then seen by the next
fetch, and its favourites are left out. So repeating a migration is repeating the step
from a collection to the one with the missing favourites, which is idempotent wherever
one such step leaves nothing missing.
-/

namespace Proverbs.App

/-- What becomes of the batch of one attempt. -/
inductive Commit where
  | acknowledged
  | unacknowledged
  | notApplied
deriving DecidableEq, Repr

def Commit.applied : Commit → Bool
  | .acknowledged | .unacknowledged => true
  | .notApplied => false

/-- An attempt the app does not survive: the favourites are fetched, the batch is sent and
applied or not, and nothing is deleted. The next process finds the local favourites as
they were, and what Firestore then holds. -/
def interrupted (s : App) (owner : UserIdentifier) (random : Identifier) (now : Date)
    (commit : Commit) : Option App :=
  ((s.checkAndMigrateLocalFavoriteProverbs owner).bind
    (settle (fun _ => .success) random now s.calls.length 1)).map fun t =>
      { s with
        firestore :=
          if commit.applied then (t.serve s.calls.length .success).firestore else t.firestore }

/-- The last attempt. It runs to its end, unless its acknowledgement never comes. -/
def lastAttempt (s : App) (owner : UserIdentifier) (random : Identifier) (now : Date) :
    Commit → Option App
  | .acknowledged =>
      (s.checkAndMigrateLocalFavoriteProverbs owner).bind
        (settle (fun _ => .success) random now s.calls.length 2)
  | .unacknowledged => s.interrupted owner random now .unacknowledged
  | .notApplied =>
      (s.checkAndMigrateLocalFavoriteProverbs owner).bind
        (settle (fun | .commit .. => .error | _ => .success) random now s.calls.length 2)

def attempts (s : App) (owner : UserIdentifier) (random : Identifier) (now : Date)
    (interruptions : List Commit) (last : Commit) : Option App :=
  (interruptions.foldlM (fun (t : App) commit => t.interrupted owner random now commit) s).bind
    fun t => t.lastAttempt owner random now last

/-! ## One attempt -/

section Attempt

variable {s : App} {user : UserIdentifier} {manager : FirestoreManager}
variable {random : Identifier} {now : Date}

/-- What an attempt leaves in Firestore: with an applied batch the missing favourites have
been added. -/
def afterAttempt (user : UserIdentifier) (localProverbs : List RFavoriteProverb)
    (firestore : Firestore) (commit : Commit) : Firestore :=
  if commit.applied then migratedFirestore firestore user (fun _ => .success) localProverbs
  else firestore

theorem serve_afterFetch (owner : UserIdentifier) :
    ((s.afterFetch owner user fun _ => .success).serve s.calls.length .success).firestore =
      migratedFirestore s.firestore user (fun _ => .success) s.localStorage.objects := by
  unfold afterFetch
  split
  · rename_i hnil
    simp [migratedFirestore, batch, hnil, serve, migrationCompleted, output]
  · rename_i hne
    have hbatch : batch s.firestore user (fun _ => .success) s.localStorage.objects ≠ [] := by
      simpa [batch] using hne
    simp [migratedFirestore, hbatch, serve, call]

theorem firestore_afterFetch (s : App) (owner user : UserIdentifier)
    (outcome : Operation → Outcome) :
    (s.afterFetch owner user outcome).firestore = s.firestore := by
  unfold afterFetch
  split <;> rfl

theorem interrupted_eq (hm : s.remoteStorage = some manager)
    (hu : manager.userDocument = some user) (owner : UserIdentifier) (commit : Commit) :
    s.interrupted owner random now commit =
      some { s with
        firestore := afterAttempt user s.localStorage.objects s.firestore commit } := by
  unfold interrupted afterAttempt
  rw [settle_fetch hm hu owner, Option.map_some, serve_afterFetch, firestore_afterFetch]

theorem lastAttempt_eq (hm : s.remoteStorage = some manager)
    (hu : manager.userDocument = some user) (owner : UserIdentifier) (random : Identifier)
    (now : Date) (commit : Commit) :
    ∃ t, s.lastAttempt owner random now commit = some t ∧
      t.firestore = afterAttempt user s.localStorage.objects s.firestore commit := by
  cases commit with
  | acknowledged => exact ⟨_, settle_checkAndMigrate hm hu owner 0, rfl⟩
  | unacknowledged => exact ⟨_, interrupted_eq hm hu owner .unacknowledged, rfl⟩
  | notApplied =>
      refine ⟨_, settle_checkAndMigrate hm hu owner 0, ?_⟩
      show migratedFirestore s.firestore user _ s.localStorage.objects = s.firestore
      simp only [migratedFirestore]
      split <;> rfl

theorem interruptions_eq (hm : s.remoteStorage = some manager)
    (hu : manager.userDocument = some user) (owner : UserIdentifier) (random : Identifier)
    (now : Date) (interruptions : List Commit) :
    interruptions.foldlM (fun (t : App) commit => t.interrupted owner random now commit) s =
      some { s with
        firestore :=
          interruptions.foldl (afterAttempt user s.localStorage.objects) s.firestore } := by
  induction interruptions generalizing s with
  | nil => rfl
  | cons commit interruptions ih =>
      rw [List.foldlM_cons, interrupted_eq hm hu]
      have hrest := ih (s := { s with
        firestore := afterAttempt user s.localStorage.objects s.firestore commit }) hm
      exact hrest

end Attempt

/-! ## Several attempts -/

section Attempts

variable {firestore : Firestore} {user : UserIdentifier} {localProverbs : List RFavoriteProverb}

theorem migratedFirestore_of_none_missing
    (h : missing (firestore.favorites user) localProverbs = []) :
    migratedFirestore firestore user (fun _ => .success) localProverbs = firestore := by
  have hbatch : batch firestore user (fun _ => .success) localProverbs = [] := by
    rw [batch, uploads_of_fetched rfl, h]
    rfl
  rw [migratedFirestore, if_pos hbatch]

/-- One migration leaves nothing missing, so the next one adds nothing. -/
theorem migratedFirestore_idem (hnodup : (localProverbs.map RFavoriteProverb.identifier).Nodup)
    (hkept : ReplacesNoOther (firestore.favorites user) localProverbs) :
    migratedFirestore (migratedFirestore firestore user (fun _ => .success) localProverbs) user
        (fun _ => .success) localProverbs =
      migratedFirestore firestore user (fun _ => .success) localProverbs := by
  apply migratedFirestore_of_none_missing
  have hheld : ∀ f ∈ localProverbs, ((migratedFirestore firestore user (fun _ => .success)
      localProverbs).favorites user).Holds f.originIdentifier :=
    (holds_of_fetched_iff rfl hnodup (by decide)).mpr hkept
  rw [missing, List.filter_eq_nil_iff]
  intro f hf
  simpa using hheld f hf

theorem foldl_afterAttempt
    (hidem : migratedFirestore (migratedFirestore firestore user (fun _ => .success)
        localProverbs) user (fun _ => .success) localProverbs =
      migratedFirestore firestore user (fun _ => .success) localProverbs)
    (commits : List Commit) :
    commits.foldl (afterAttempt user localProverbs) firestore =
      if commits.any Commit.applied then
        migratedFirestore firestore user (fun _ => .success) localProverbs
      else firestore := by
  have hstays : ∀ commits : List Commit,
      commits.foldl (afterAttempt user localProverbs)
          (migratedFirestore firestore user (fun _ => .success) localProverbs) =
        migratedFirestore firestore user (fun _ => .success) localProverbs := by
    intro commits
    induction commits with
    | nil => rfl
    | cons commit commits ih =>
        have hstep : afterAttempt user localProverbs
            (migratedFirestore firestore user (fun _ => .success) localProverbs) commit =
              migratedFirestore firestore user (fun _ => .success) localProverbs := by
          unfold afterAttempt
          split
          · exact hidem
          · rfl
        rw [List.foldl_cons, hstep, ih]
  induction commits with
  | nil => rfl
  | cons commit commits ih =>
      rw [List.foldl_cons, List.any_cons]
      cases happlied : commit.applied with
      | true =>
          rw [afterAttempt, if_pos happlied, hstays commits]
          rfl
      | false =>
          rw [afterAttempt, happlied]
          exact ih

end Attempts

/-- However often a migration is interrupted and repeated: if some batch was applied, or
nothing was missing, and no upload replaces the only document of another local
favourite's proverb, the collection is in the end the one of a single migration. -/
theorem interrupted_migration_repeats {s : App} {user : UserIdentifier}
    (hcollection : s.remoteCollection = some user)
    (hkept : ReplacesNoOther (s.firestore.favorites user) s.localStorage.objects)
    (owner : UserIdentifier) (random : Identifier) (now : Date) (interruptions : List Commit)
    (last : Commit)
    (happlied : (interruptions ++ [last]).any Commit.applied = true ∨
      missing (s.firestore.favorites user) s.localStorage.objects = []) :
    ∃ t single, s.attempts owner random now interruptions last = some t ∧
      s.attempts owner random now [] .acknowledged = some single ∧
        t.firestore.favorites user = single.firestore.favorites user := by
  obtain ⟨manager, hm, hu⟩ := Option.bind_eq_some_iff.mp hcollection
  let u : App := { s with
    firestore := interruptions.foldl (afterAttempt user s.localStorage.objects) s.firestore }
  have hm' : u.remoteStorage = some manager := hm
  obtain ⟨t, ht, hfirestore⟩ := lastAttempt_eq hm' hu owner random now last
  obtain ⟨single, hsingle, hcomplete⟩ := lastAttempt_eq hm hu owner random now .acknowledged
  refine ⟨t, single, ?_, hsingle, ?_⟩
  · rw [attempts, interruptions_eq hm hu owner random now interruptions]
    exact ht
  have hattempts : t.firestore = (interruptions ++ [last]).foldl
      (afterAttempt user s.localStorage.objects) s.firestore := by
    rw [hfirestore, List.foldl_append]
    rfl
  have hidem := migratedFirestore_idem s.localStorage.objects_nodup hkept
  rw [hattempts, hcomplete, foldl_afterAttempt hidem]
  rcases happlied with happlied | hnone
  · rw [if_pos happlied]
    rfl
  · have hsame := migratedFirestore_of_none_missing hnone
    rw [afterAttempt, hsame, ite_self, ite_self]

def twoMissing : App :=
  { favoriteOnBothSides with
    localStorage := ⟨some (KeyedStore.putAll
      [⟨"a", "first", 0, "", "", ""⟩, ⟨"b", "second", 0, "", "", ""⟩,
        ⟨"c", "third", 0, "", "", ""⟩] KeyedStore.empty), .commit⟩
    firestore := ⟨fun _ => true, fun _ =>
      KeyedStore.empty.put (.ofFavorite ⟨"document", "third", 0, ""⟩)⟩ }

/-- A batch is refused, the next one is applied and its acknowledgement lost, and so is that of
the one after it. -/
theorem interrupted_migration_repeats_both_sides :
    (missing (twoMissing.firestore.favorites "user") twoMissing.localStorage.objects).length = 2 ∧
      ∃ t single,
        twoMissing.attempts "user" "" 0 [.notApplied, .unacknowledged, .unacknowledged]
          .acknowledged = some t ∧
        twoMissing.attempts "user" "" 0 [] .acknowledged = some single ∧
          t.firestore.favorites "user" = single.firestore.favorites "user" :=
  ⟨by decide, interrupted_migration_repeats rfl (by decide) "user" "" 0 _ _ (Or.inl rfl)⟩

/-- Two local favourites, and the document of the second one's proverb is stored under the
identifier of the first. -/
def crossedIdentifiers : App :=
  { favoriteOnBothSides with
    localStorage := ⟨some (KeyedStore.putAll
      [⟨"a", "first", 0, "", "", ""⟩, ⟨"b", "second", 0, "", "", ""⟩] KeyedStore.empty), .commit⟩
    firestore := ⟨fun _ => true, fun _ =>
      KeyedStore.empty.put (.ofFavorite ⟨"a", "second", 0, ""⟩)⟩ }

/-- The first migration leaves the second favourite out and replaces its document; only
the next one uploads it. -/
theorem repeated_migration_differs :
    ¬ ∀ t single,
      crossedIdentifiers.attempts "user" "" 0 [.acknowledged] .acknowledged = some t →
        crossedIdentifiers.attempts "user" "" 0 [] .acknowledged = some single →
          t.firestore.favorites "user" = single.firestore.favorites "user" := by
  intro h
  have hsame := congrArg (fun collection => collection.entries.length) (h _ _ rfl rfl)
  exact absurd hsame (by decide)

end Proverbs.App
