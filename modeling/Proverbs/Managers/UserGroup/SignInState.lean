import Proverbs.Managers.UserGroup.AccountStep

/-! # Sign-in state and remote storage

`remoteStorage` is created by `DidSignIn` and dropped by `WillSignOut`, which is
posted before Firebase is asked. A sign-out that then throws leaves the user
signed in without a remote storage, and nothing puts it back before the next
sign-in or launch.
-/

namespace Proverbs.App

/-- `remoteStorage` is there exactly when a user is signed in, and is that user's. -/
def RemoteMatches (s : App) : Prop :=
  (s.remoteStorage.isSome ↔ s.isSignedIn) ∧
    ∀ manager, s.remoteStorage = some manager →
      s.currentUser = some manager.currentUserIdentifier

theorem remoteMatches_iff {s : App} : RemoteMatches s ↔ s.remoteUser = s.currentUser := by
  unfold RemoteMatches remoteUser isSignedIn
  cases s.remoteStorage <;> cases s.currentUser <;> simp [eq_comm]

/-- A failed sign-out has changed nothing. -/
def SignOutFailedCleanly (s s' : App) : Prop :=
  s'.remoteStorage = s.remoteStorage ∧ s'.currentPlan = s.currentPlan ∧
    s'.currentUser = s.currentUser

def MovesTogether (s : App) (input : Input) : Prop :=
  ∀ s', step s input = some s' →
    RemoteMatches s' ∧ (input.event = .signOut true → SignOutFailedCleanly s s')

/-- The state between the events of a run that began with a launch. -/
def Launched (s : App) : Prop := s.remoteUser = s.currentUser ∧ s.firstLaunchFlag = true

theorem launched_launch (s : App) (throws : Bool) : Launched (s.launch throws) := by
  obtain ⟨_, hflag, _, _, hremote⟩ := launch_account s throws
  exact ⟨hremote, hflag⟩

theorem remoteStorage_eq_none {s : App} (h : s.remoteUser = none) : s.remoteStorage = none := by
  simpa [remoteUser] using h

theorem launched_step {s s' : App} {input : Input} (hs : Launched s)
    (hclean : input.event = .signOut true → s.currentUser = none)
    (h : step s input = some s') : Launched s' := by
  cases hstore : isStoreEvent input.event with
  | true =>
      obtain ⟨hu, hr, hf⟩ := step_store_account hstore h
      exact ⟨by rw [hr, hu, hs.1], hf.trans hs.2⟩
  | false =>
      cases (step_account hstore h).2 with
      | kept huser hremote hplan hflag => exact ⟨by rw [hremote, huser, hs.1], hflag.trans hs.2⟩
      | refreshed huser hremote hplan hflag =>
          exact ⟨by rw [hremote, huser, hs.1], hflag.trans hs.2⟩
      | signedIn attempt identifier hevent huser hremote hplan hflag =>
          exact ⟨by rw [hremote, huser], hflag.trans hs.2⟩
      | signedOut hevent huser hremote hplan hflag =>
          exact ⟨by rw [hremote, huser], hflag.trans hs.2⟩
      | signOutFailed hevent huser hremote hplan hflag =>
          exact ⟨by rw [hremote, huser, hclean hevent], hflag.trans hs.2⟩
      | started throws hevent hsame hplan hflag =>
          obtain ⟨huser, hremote⟩ := hsame hs.2
          exact ⟨by rw [hremote, huser, hs.1], hflag⟩
      | launched throws hevent hsame hremote hplan hflag => exact ⟨hremote, hflag⟩

/-- The one step that can break the invariant is a sign-out that throws under a
signed-in user. -/
theorem movesTogether_iff {s : App} (hs : Launched s) (input : Input) :
    MovesTogether s input ↔ (input.event = .signOut true → s.currentUser = none) := by
  constructor
  · intro hmoves hevent
    obtain ⟨event, random, now⟩ := input
    cases hevent
    obtain ⟨hmatch, _⟩ := hmoves _ rfl
    have huser := remoteMatches_iff.mp hmatch
    exact huser.symm
  · intro hclean s' h
    refine ⟨remoteMatches_iff.mpr (launched_step hs hclean h).1, fun hevent => ?_⟩
    have hnone := hclean hevent
    obtain ⟨event, random, now⟩ := input
    cases hevent
    rw [← Option.some.inj h]
    exact ⟨(remoteStorage_eq_none (hs.1.trans hnone)).symm, rfl, rfl⟩

/-- From any launch on, sign-in state and remote storage move together exactly
when no sign-out throws while a user is signed in. -/
theorem moves_together_along_iff (s : App) (throws : Bool) (inputs : List Input) :
    RemoteMatches (s.launch throws) ∧
      (Transition.Along step MovesTogether (s.launch throws) inputs ↔
        Transition.Along step
          (fun s input => input.event = .signOut true → s.currentUser = none)
          (s.launch throws) inputs) := by
  have hlaunch := launched_launch s throws
  refine ⟨remoteMatches_iff.mpr hlaunch.1, ?_⟩
  apply Transition.along_congr (I := Launched)
  · intro s input _ s' hs hclean h
    exact launched_step hs hclean h
  · intro s input _ hs
    exact movesTogether_iff hs input
  · exact hlaunch

/-- A user signs in with a purchase; the sign-out throws and the storage is gone. -/
theorem failed_sign_out_drops_remote :
    ¬ Transition.Along step MovesTogether (installed.launch false)
      [⟨.purchaseCompleted true, "", 0⟩, ⟨.signIn .google, "", 0⟩,
        ⟨.didSignInFor .authentication, "", 0⟩,
        ⟨.firebaseAuthenticated 0 (.user "user"), "", 0⟩, ⟨.signOut true, "", 0⟩] := by
  intro h
  have hlast := ((((h.2 _ rfl).2 _ rfl).2 _ rfl).2 _ rfl).1 _ rfl
  exact absurd (hlast.1.1.mpr (by decide)) (by decide)

end Proverbs.App
