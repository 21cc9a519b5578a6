import Proverbs.Managers.UserGroup.SignInAttempts

/-! # Every attempt has its own answer

The slot of Google and the token of Facebook are shared by all attempts. As long as
each callback finds there what its own attempt left, every attempt under way has one
call that will come back, and every other one has had its answer.
-/

namespace Proverbs

/-! ## What one event keeps -/

namespace SignInWorld

variable {w w' : SignInWorld}

theorem answers_add_callsOf (w : SignInWorld) (attempt : Nat) :
    w.answers attempt + w.callsOf attempt = w.app.owed attempt + w.dialogs.count attempt := by
  rw [answers, callsOf, App.owed, Nat.add_assoc]

/-- What holds as long as every callback has found its own slot. -/
structure Tracked (w : SignInWorld) : Prop where
  once : ∀ attempt ∈ w.attempts, w.app.owed attempt + w.dialogs.count attempt = 1
  own : ∀ attempt, Output.signedIn attempt true ∈ w.app.outputs → (attempt, attempt) ∈ w.granted
  given : ∀ pair ∈ w.given, pair.2 = pair.1
  unused : ∀ attempt, w.app.nextRequest ≤ attempt →
    attempt ∉ w.attempts ∧ w.app.owed attempt + w.dialogs.count attempt = 0

theorem Tracked.answered (h : Tracked w) : Answered w := by
  refine ⟨fun attempt hmem => ?_, h.own⟩
  rw [answers_add_callsOf]
  exact h.once attempt hmem

theorem Tracked.effect {app : App} {dialogs : List Nat} {given granted : List (Nat × Nat)}
    {accessToken : Option Nat} {more yes : Option Nat} (h : Tracked w)
    (heffect : App.SignInEffect more yes w.app app)
    (hdialogs : ∀ attempt,
      dialogs.count attempt + (if more = some attempt then 1 else 0) = w.dialogs.count attempt)
    (hgiven : ∀ pair ∈ given, pair.2 = pair.1) (hgranted : ∀ pair ∈ w.granted, pair ∈ granted)
    (hyes : ∀ attempt, yes = some attempt → (attempt, attempt) ∈ granted) :
    Tracked ⟨app, w.attempts, dialogs, accessToken, given, granted⟩ := by
  have hsum : ∀ attempt,
      app.owed attempt + dialogs.count attempt =
        w.app.owed attempt + w.dialogs.count attempt := by
    intro attempt
    have howed := heffect.owed attempt
    have hcount := hdialogs attempt
    omega
  constructor
  case once =>
    intro attempt hmem
    show app.owed attempt + dialogs.count attempt = 1
    rw [hsum]
    exact h.once attempt hmem
  case own =>
    intro attempt hmem
    rcases heffect.yes attempt hmem with hmem | hnew
    · exact hgranted _ (h.own attempt hmem)
    · exact hyes attempt hnew
  case given => exact hgiven
  case unused =>
    intro attempt hle
    show attempt ∉ w.attempts ∧ app.owed attempt + dialogs.count attempt = 0
    rw [hsum]
    exact h.unused attempt (heffect.next.trans hle)

theorem Tracked.keeps {app : App} (h : Tracked w)
    (heffect : App.SignInEffect none none w.app app) : Tracked { w with app := app } :=
  h.effect heffect (fun _ => rfl) h.given (fun _ hmem => hmem) (fun _ hyes => nomatch hyes)

/-! ## The start of an attempt -/

theorem Tracked.drawn {app : App} {attempts dialogs : List Nat} (h : Tracked w)
    (hattempts : ∀ attempt ∈ attempts, attempt ∈ w.attempts ∨ attempt = w.app.nextRequest)
    (hsum : ∀ attempt, app.owed attempt + dialogs.count attempt =
      w.app.owed attempt + w.dialogs.count attempt +
        if w.app.nextRequest = attempt then 1 else 0)
    (hyes : ∀ attempt, Output.signedIn attempt true ∈ app.outputs →
      Output.signedIn attempt true ∈ w.app.outputs)
    (hnext : app.nextRequest = w.app.nextRequest + 1) :
    Tracked { w with app := app, attempts := attempts, dialogs := dialogs } := by
  have hfresh := h.unused w.app.nextRequest (Nat.le_refl _)
  constructor
  case once =>
    intro attempt hmem
    show app.owed attempt + dialogs.count attempt = 1
    rw [hsum]
    rcases hattempts attempt hmem with hmem | rfl
    · have hne : w.app.nextRequest ≠ attempt := fun heq => hfresh.1 (heq ▸ hmem)
      rw [if_neg hne]
      exact h.once attempt hmem
    · rw [hfresh.2, if_pos rfl]
  case own => exact fun attempt hmem => h.own attempt (hyes attempt hmem)
  case given => exact h.given
  case unused =>
    intro attempt hle
    have hlt : w.app.nextRequest < attempt := by
      show w.app.nextRequest + 1 ≤ attempt
      rw [← hnext]
      exact hle
    obtain ⟨hmem, hzero⟩ := h.unused attempt hlt.le
    show attempt ∉ attempts ∧ app.owed attempt + dialogs.count attempt = 0
    rw [hsum, hzero, if_neg hlt.ne]
    refine ⟨fun hmem' => ?_, rfl⟩
    rcases hattempts attempt hmem' with hold | hnew
    · exact hmem hold
    · exact hlt.ne hnew.symm

theorem Tracked.signIn {option : Login} (h : Tracked w) (hs : w.signIn option = some w') :
    Tracked w' := by
  have hstep : w.appStep (.signIn option) =
      some (w.app.takeRequest.signIn option w.app.nextRequest) := rfl
  rw [SignInWorld.signIn, hstep, Option.map_some, Option.some.injEq] at hs
  rw [← hs]
  cases hcan : w.app.canSignIn with
  | false =>
      rw [if_neg Bool.false_ne_true, App.signIn_rejected hcan]
      have hsum : ∀ attempt,
          (w.app.takeRequest.output (.signedIn w.app.nextRequest false)).owed attempt +
              w.dialogs.count attempt =
            w.app.owed attempt + w.dialogs.count attempt +
              if w.app.nextRequest = attempt then 1 else 0 := by
        intro attempt
        have howed : w.app.takeRequest.owed attempt = w.app.owed attempt := rfl
        simp only [App.owed_output, App.Output.attempt, Option.some.injEq, howed]
        omega
      have hyes : ∀ attempt, Output.signedIn attempt true ∈
          (w.app.takeRequest.output (.signedIn w.app.nextRequest false)).outputs →
            Output.signedIn attempt true ∈ w.app.outputs := by
        intro attempt hmem
        simpa [App.output, App.takeRequest] using hmem
      exact h.drawn (fun _ hmem => Or.inl hmem) hsum hyes rfl
  | true =>
      rw [if_pos rfl, App.signIn_accepted hcan]
      have hattempts : ∀ attempt ∈ w.attempts ++ [w.app.nextRequest],
          attempt ∈ w.attempts ∨ attempt = w.app.nextRequest := by
        intro attempt hmem
        simpa using hmem
      cases option with
      | google =>
          refine h.drawn hattempts (fun attempt => ?_) (fun _ hmem => hmem) rfl
          have hdialogs : (w.dialogs ++ [w.app.nextRequest]).count attempt =
              w.dialogs.count attempt + if w.app.nextRequest = attempt then 1 else 0 := by
            rw [List.count_append, List.count_singleton]
            simp only [beq_iff_eq]
          rw [if_pos rfl, hdialogs, ← Nat.add_assoc]
          rfl
      | facebook | twitter =>
          refine h.drawn hattempts (fun attempt => ?_) (fun _ hmem => hmem) rfl
          rw [App.owed_waits, Nat.add_right_comm]
          rfl

/-! ## The callbacks of the SDKs -/

theorem Tracked.facebookLoggedIn (h : Tracked w) (attempt : Nat) :
    Tracked (w.facebookLoggedIn attempt) := by
  unfold SignInWorld.facebookLoggedIn
  split
  · exact ⟨h.once, h.own, h.given, h.unused⟩
  · exact h

/-- A credential that is the attempt's own goes to Firebase with its closure. -/
theorem Tracked.providerCompleted {attempt : Nat} {option : Login} {credential : Option Nat}
    (h : Tracked w)
    (hown : ⟨attempt, .provider option⟩ ∈ w.app.signIns →
      ∀ owner, credential = some owner → owner = attempt)
    (hs : w.providerCompleted attempt option credential = some w') : Tracked w' := by
  have hstep : w.appStep (.providerCompleted attempt option credential.isSome) =
      some (w.app.providerCompleted attempt option credential.isSome) := rfl
  unfold SignInWorld.providerCompleted at hs
  rw [hstep, Option.map_some, Option.some.injEq] at hs
  rw [← hs]
  refine h.effect (App.SignInEffect.providerCompleted attempt option credential.isSome)
    (fun _ => rfl) ?_ (fun _ hmem => hmem) (fun _ hyes => nomatch hyes)
  cases credential with
  | none => exact h.given
  | some owner =>
      by_cases hwaits : ⟨attempt, .provider option⟩ ∈ w.app.signIns
      · simp only [if_pos hwaits]
        intro pair hmem
        rcases List.mem_append.mp hmem with hmem | hmem
        · exact h.given pair hmem
        · rw [List.mem_singleton.mp hmem]
          exact hown hwaits owner rfl
      · simp only [if_neg hwaits]
        exact h.given

/-- The closure in the slot is the one of the dialog that calls back. -/
theorem Tracked.didSignInFor {attempt : Nat} {result : GoogleResult} (h : Tracked w)
    (hown : attempt ∈ w.dialogs → w.app.googleCompletion = some attempt) :
    ∃ w', w.didSignInFor attempt result = some w' ∧ Tracked w' := by
  unfold SignInWorld.didSignInFor
  by_cases hopen : attempt ∈ w.dialogs
  · have hslot := hown hopen
    obtain ⟨app, hs, heffect⟩ := App.SignInEffect.didSignInFor hslot result
    have hstep : w.appStep (.didSignInFor result) = some app := hs
    rw [if_pos hopen, hstep, hslot]
    refine ⟨_, rfl, h.effect heffect (fun other => ?_) ?_ (fun _ hmem => hmem)
      (fun _ hyes => nomatch hyes)⟩
    · rw [(List.perm_cons_erase hopen).count_eq, List.count_cons]
      simp only [Option.some.injEq, beq_iff_eq]
    · cases result with
      | authentication =>
          intro pair hmem
          rcases List.mem_append.mp hmem with hmem | hmem
          · exact h.given pair hmem
          · rw [List.mem_singleton.mp hmem]
      | error | nothing => exact h.given
  · rw [if_neg hopen]
    exact ⟨w, rfl, h⟩

theorem Tracked.firebaseAuthenticated {attempt credential : Nat} {result : AuthResult}
    (h : Tracked w) (hs : w.firebaseAuthenticated attempt credential result = some w') :
    Tracked w' := by
  unfold SignInWorld.firebaseAuthenticated at hs
  by_cases hasked : (attempt, credential) ∈ w.given
  · have hstep : w.appStep (.firebaseAuthenticated attempt result) =
        some (w.app.firebaseAuthenticated attempt result) := rfl
    rw [if_pos hasked, hstep, Option.map_some, Option.some.injEq] at hs
    rw [← hs]
    have hcredential : credential = attempt := h.given (attempt, credential) hasked
    refine h.effect (App.SignInEffect.firebaseAuthenticated attempt result) (fun _ => rfl)
      (fun pair hmem => h.given pair (List.mem_of_mem_erase hmem)) ?_ ?_
    · intro pair hmem
      cases result with
      | user identifier => exact List.mem_append_left _ hmem
      | error | nothing => exact hmem
    · intro other hyes
      cases result with
      | user identifier =>
          rw [← Option.some.inj hyes, hcredential]
          exact List.mem_append_right _ (List.mem_singleton_self _)
      | error | nothing => exact nomatch hyes
  · rw [if_neg hasked, Option.some.injEq] at hs
    exact hs ▸ h

/-! ## Every run -/

theorem tracked_step {event : SignInEvent} (h : Tracked w) (hown : OwnSlots w event)
    (hs : w.step event = some w') : Tracked w' := by
  cases event with
  | signIn option => exact h.signIn hs
  | facebookLoggedIn attempt =>
      rw [← Option.some.inj hs]
      exact h.facebookLoggedIn attempt
  | facebookCompleted attempt success =>
      refine h.providerCompleted (fun hwaits owner htoken => ?_) hs
      cases success with
      | true => exact hown hwaits rfl owner htoken
      | false => exact nomatch htoken
  | twitterCompleted attempt success =>
      refine h.providerCompleted (fun _ owner hsession => ?_) hs
      cases success with
      | true => exact (Option.some.inj hsession).symm
      | false => exact nomatch hsession
  | didSignInFor attempt result =>
      obtain ⟨u, hu, htracked⟩ := h.didSignInFor hown
      rw [← Option.some.inj (hu.symm.trans hs)]
      exact htracked
  | firebaseAuthenticated attempt credential result => exact h.firebaseAuthenticated hs
  | other input =>
      simp only [step] at hs
      cases hkind : isSignInEvent input.event with
      | true =>
          rw [hkind, if_pos rfl, Option.some.injEq] at hs
          exact hs ▸ h
      | false =>
          rw [hkind, if_neg Bool.false_ne_true, Option.map_eq_some_iff] at hs
          obtain ⟨app, happ, rfl⟩ := hs
          exact h.keeps (App.SignInEffect.keeps (App.keepsSignIns_step hkind happ))

theorem neverUnwrapsNil_of_tracked {event : SignInEvent} (h : Tracked w)
    (hown : OwnSlots w event) : NeverUnwrapsNil w event := by
  cases event with
  | didSignInFor attempt result =>
      obtain ⟨w', hs, -⟩ : ∃ w', w.didSignInFor attempt result = some w' ∧ Tracked w' :=
        h.didSignInFor hown
      show (w.didSignInFor attempt result).isSome
      rw [hs]
      rfl
  | signIn | facebookLoggedIn | facebookCompleted | twitterCompleted | firebaseAuthenticated
  | other => trivial

theorem tracked_launched (device : App) (throws : Bool) (accessToken : Option Nat) :
    Tracked (launched (device.launch throws) accessToken) := by
  have hsignIns : (device.launch throws).signIns = [] := App.signIns_launch device throws
  have houtputs : (device.launch throws).outputs = [] := App.outputs_launch device throws
  constructor
  case once => exact fun _ hmem => absurd hmem List.not_mem_nil
  case own =>
    intro attempt hmem
    rw [launched, houtputs] at hmem
    exact absurd hmem List.not_mem_nil
  case given => exact fun _ hmem => absurd hmem List.not_mem_nil
  case unused =>
    intro attempt _
    refine ⟨List.not_mem_nil, ?_⟩
    rw [launched, App.owed, hsignIns, houtputs]
    rfl

/-- As long as each callback finds what its own attempt left, every attempt of every run
has its one answer or its one call under way, and the slot is never empty when it is
unwrapped. -/
theorem own_answer_along (device : App) (throws : Bool) (accessToken : Option Nat)
    (events : List SignInEvent)
    (hown : Transition.Along step OwnSlots (launched (device.launch throws) accessToken) events) :
    Transition.Along step (fun w event => Answered w ∧ NeverUnwrapsNil w event)
        (launched (device.launch throws) accessToken) events ∧
      ∀ w, Transition.run step (launched (device.launch throws) accessToken) events = some w →
        Answered w := by
  have hkeep : ∀ w event w', Tracked w → OwnSlots w event → w.step event = some w' →
      Tracked w' := fun _ _ _ htracked hguard hs => tracked_step htracked hguard hs
  have hlaunched := tracked_launched device throws accessToken
  constructor
  · exact Transition.along_of_invariant hkeep
      (fun _ _ htracked hguard => ⟨htracked.answered, neverUnwrapsNil_of_tracked htracked hguard⟩)
      hlaunched hown
  · intro w hw
    exact (Transition.run_invariant hkeep hlaunched hown hw).answered

def googleAndTwitter : List SignInEvent :=
  [.other ⟨.purchaseCompleted true, "", 0⟩, .signIn .google, .signIn .twitter,
    .twitterCompleted 1 true, .didSignInFor 0 .authentication,
    .firebaseAuthenticated 1 1 (.user "user"), .firebaseAuthenticated 0 0 .error]

theorem own_answer_along_googleAndTwitter :
    ∃ w, Transition.run step (launched (App.installed.launch false) none) googleAndTwitter =
      some w ∧ Answered w := by
  refine ⟨_, rfl, (own_answer_along App.installed false none googleAndTwitter ?_).2 _ rfl⟩
  refine ⟨trivial, fun w₁ h₁ => ?_⟩
  obtain rfl := Option.some.inj h₁
  refine ⟨trivial, fun w₂ h₂ => ?_⟩
  obtain rfl := Option.some.inj h₂
  refine ⟨trivial, fun w₃ h₃ => ?_⟩
  obtain rfl := Option.some.inj h₃
  refine ⟨trivial, fun w₄ h₄ => ?_⟩
  obtain rfl := Option.some.inj h₄
  exact ⟨fun _ => rfl, fun _ _ => ⟨trivial, fun _ _ => ⟨trivial, fun _ _ => trivial⟩⟩⟩

/-- A second attempt with Google before the first has called back. -/
def googleTwice : List SignInEvent :=
  [.other ⟨.purchaseCompleted true, "", 0⟩, .signIn .google, .signIn .google]

/-- The first dialog hands its credential to the closure of the second attempt: nobody
will answer the first, and the second dialog unwraps `nil`. -/
theorem second_attempt_takes_slot :
    ∃ w, Transition.run step (launched (App.installed.launch false) none)
        (googleTwice ++ [.didSignInFor 0 .authentication]) = some w ∧
      ¬ Answered w ∧ ¬ NeverUnwrapsNil w (.didSignInFor 1 .authentication) := by
  refine ⟨_, rfl, fun hanswered => ?_, ?_⟩
  · have honce := hanswered.once 0 (by decide)
    exact absurd honce (by decide)
  · exact Bool.false_ne_true

end SignInWorld

end Proverbs
