import Mathlib.Data.List.Perm.Basic
import Proverbs.Managers.Effects

/-! # Sign-in attempts and their answers

The app among the SDKs it signs in with. Beside the app stands what its code does not
keep: the attempt each open dialog of Google, each token and each credential belongs
to. The closure of an attempt is captured by its callbacks, except that Google's waits
in the one slot `googleCompletion`, and Facebook's token is read from
`AccessToken.current` when the attempt is completed.
-/

namespace Proverbs

structure SignInWorld where
  app : App
  attempts : List Nat
  /-- The attempts whose dialog of Google is open: their `didSignInFor` is due. -/
  dialogs : List Nat
  /-- The attempt whose login left `AccessToken.current`. -/
  accessToken : Option Nat
  /-- What Firebase is asked: the attempt whose closure waits, and the attempt that
  obtained the credential. -/
  given : List (Nat × Nat)
  granted : List (Nat × Nat)

inductive SignInEvent where
  | signIn (option : Login)
  /-- The login succeeded; the attempt goes on with a graph request. -/
  | facebookLoggedIn (attempt : Nat)
  | facebookCompleted (attempt : Nat) (success : Bool)
  | twitterCompleted (attempt : Nat) (success : Bool)
  | didSignInFor (attempt : Nat) (result : GoogleResult)
  | firebaseAuthenticated (attempt credential : Nat) (result : AuthResult)
  | other (input : Input)
deriving DecidableEq, Repr

/-- The events that are told apart by the attempt they belong to, and a new process. -/
def isSignInEvent : Event → Bool
  | .launch _ | .signIn _ | .providerCompleted .. | .didSignInFor _ => true
  | .firebaseAuthenticated .. => true
  | _ => false

namespace SignInWorld

def launched (app : App) (accessToken : Option Nat) : SignInWorld :=
  ⟨app, [], [], accessToken, [], []⟩

/-- These events draw no identifier and no time. -/
def appStep (w : SignInWorld) (event : Event) : Option App := w.app.step ⟨event, "", 0⟩

def signIn (w : SignInWorld) (option : Login) : Option SignInWorld :=
  (w.appStep (.signIn option)).map fun app =>
    if w.app.canSignIn then
      { w with
        app := app
        attempts := w.attempts ++ [w.app.nextRequest]
        dialogs := if option = .google then w.dialogs ++ [w.app.nextRequest] else w.dialogs }
    else { w with app := app }

/-- The login of an attempt that still waits for it replaces the token. -/
def facebookLoggedIn (w : SignInWorld) (attempt : Nat) : SignInWorld :=
  if ⟨attempt, .provider .facebook⟩ ∈ w.app.signIns then
    { w with accessToken := some attempt }
  else w

/-- `internalCompletion` with a credential, told by the attempt that obtained it. -/
def providerCompleted (w : SignInWorld) (attempt : Nat) (option : Login)
    (credential : Option Nat) : Option SignInWorld :=
  (w.appStep (.providerCompleted attempt option credential.isSome)).map fun app =>
    { w with
      app := app
      given :=
        match credential with
        | some owner =>
            if ⟨attempt, .provider option⟩ ∈ w.app.signIns then w.given ++ [(attempt, owner)]
            else w.given
        | none => w.given }

/-- The credential is made from whatever token is there. -/
def facebookCompleted (w : SignInWorld) (attempt : Nat) (success : Bool) : Option SignInWorld :=
  w.providerCompleted attempt .facebook (if success then w.accessToken else none)

/-- The credential is made from the session the callback is given. -/
def twitterCompleted (w : SignInWorld) (attempt : Nat) (success : Bool) : Option SignInWorld :=
  w.providerCompleted attempt .twitter (if success then some attempt else none)

/-- The dialog of the attempt calls back, to the closure in the slot. -/
def didSignInFor (w : SignInWorld) (attempt : Nat) (result : GoogleResult) :
    Option SignInWorld :=
  if attempt ∈ w.dialogs then
    (w.appStep (.didSignInFor result)).map fun app =>
      { w with
        app := app
        dialogs := w.dialogs.erase attempt
        given :=
          match result, w.app.googleCompletion with
          | .authentication, some closure => w.given ++ [(closure, attempt)]
          | _, _ => w.given }
  else some w

def firebaseAuthenticated (w : SignInWorld) (attempt credential : Nat) (result : AuthResult) :
    Option SignInWorld :=
  if (attempt, credential) ∈ w.given then
    (w.appStep (.firebaseAuthenticated attempt result)).map fun app =>
      { w with
        app := app
        given := w.given.erase (attempt, credential)
        granted :=
          match result with
          | .user _ => w.granted ++ [(attempt, credential)]
          | _ => w.granted }
  else some w

def step (w : SignInWorld) : SignInEvent → Option SignInWorld
  | .signIn option => w.signIn option
  | .facebookLoggedIn attempt => some (w.facebookLoggedIn attempt)
  | .facebookCompleted attempt success => w.facebookCompleted attempt success
  | .twitterCompleted attempt success => w.twitterCompleted attempt success
  | .didSignInFor attempt result => w.didSignInFor attempt result
  | .firebaseAuthenticated attempt credential result =>
      w.firebaseAuthenticated attempt credential result
  | .other input =>
      if isSignInEvent input.event then some w
      else (w.app.step input).map fun app => { w with app := app }

/-! ## What an attempt is owed -/

/-- The calls of SDKs made for the attempt that have not called back. -/
def callsOf (w : SignInWorld) (attempt : Nat) : Nat :=
  w.app.signIns.countP (fun signIn => signIn.attempt = attempt) + w.dialogs.count attempt

def answers (w : SignInWorld) (attempt : Nat) : Nat :=
  w.app.outputs.countP fun o => App.Output.attempt o = some attempt

/-- Every accepted attempt has one call under way or one answer, and a yes means that
Firebase accepted its own credential. -/
structure Answered (w : SignInWorld) : Prop where
  once : ∀ attempt ∈ w.attempts, w.answers attempt + w.callsOf attempt = 1
  own : ∀ attempt, Output.signedIn attempt true ∈ w.app.outputs → (attempt, attempt) ∈ w.granted

/-- The callback of Google does not unwrap an empty slot. -/
def NeverUnwrapsNil (w : SignInWorld) (event : SignInEvent) : Prop :=
  match event with
  | .didSignInFor attempt result => (w.didSignInFor attempt result).isSome
  | _ => True

/-- The callback of a dialog finds the closure of its own attempt in the slot, and an
attempt with Facebook is completed while the token, if there is one, is its own. -/
def OwnSlots (w : SignInWorld) (event : SignInEvent) : Prop :=
  match event with
  | .didSignInFor attempt _ =>
      attempt ∈ w.dialogs → w.app.googleCompletion = some attempt
  | .facebookCompleted attempt success =>
      ⟨attempt, .provider .facebook⟩ ∈ w.app.signIns → success = true →
        ∀ owner, w.accessToken = some owner → owner = attempt
  | _ => True

end SignInWorld

/-! ## Steps beside the attempts -/

namespace App

/-- The attempts under way are the same, and none has been answered. -/
structure KeepsSignIns (s t : App) : Prop where
  signIns : t.signIns = s.signIns
  outputs : ∃ os, t.outputs = s.outputs ++ os ∧ ∀ o ∈ os, Output.attempt o = none
  next : s.nextRequest ≤ t.nextRequest

section KeepsSignIns

variable {s s' t : App}

theorem KeepsSignIns.of_extends {newCall : Call → Prop} {newOutput : Output → Prop}
    (hsame : t.signIns = s.signIns) (heffect : Extends newCall newOutput s t)
    (hnone : ∀ o, newOutput o → Output.attempt o = none) : KeepsSignIns s t := by
  obtain ⟨os, houtputs, hos⟩ := heffect.outputs
  exact ⟨hsame, ⟨os, houtputs, fun o hmem => hnone o (hos o hmem)⟩, heffect.request.ge⟩

/-- A change of the account without its attempts, then an output that is no answer. -/
theorem KeepsSignIns.output {o : Output} (h : KeepsSignIns s t)
    (hnone : Output.attempt o = none) : KeepsSignIns s (t.output o) := by
  obtain ⟨os, houtputs, hos⟩ := h.outputs
  refine ⟨h.signIns, ⟨os ++ [o], ?_, ?_⟩, h.next⟩
  · rw [App.output, houtputs, List.append_assoc]
  · intro other hmem
    rcases List.mem_append.mp hmem with hmem | hmem
    · exact hos other hmem
    · rw [List.mem_singleton.mp hmem]
      exact hnone

theorem KeepsSignIns.of_same (hsignIns : t.signIns = s.signIns) (houtputs : t.outputs = s.outputs)
    (hnext : t.nextRequest = s.nextRequest) : KeepsSignIns s t :=
  ⟨hsignIns, ⟨[], by rw [houtputs, List.append_nil], by simp⟩, hnext.ge⟩

theorem KeepsSignIns.of_request {request : Nat} (haccount : t.account = s.account)
    (heffect : RequestEffect request s t) : KeepsSignIns s t :=
  .of_extends (congrArg Account.signIns haccount) heffect fun _ ho => ho.2

theorem KeepsSignIns.takeRequest (h : KeepsSignIns s.takeRequest t) : KeepsSignIns s t :=
  ⟨h.signIns, h.outputs, (Nat.le_succ _).trans h.next⟩

theorem keepsSignIns_deliver {index : Nat} {random : Identifier} {now : Date}
    (h : s.deliver index random now = some s') : KeepsSignIns s s' := by
  have haccount := account_deliver h
  unfold deliver at h
  split at h
  · rename_i operation callback response hcall
    rcases called_effect h with ⟨request, _, heffect⟩ | ⟨_, hmigrates⟩
    · obtain ⟨os, houtputs, hos⟩ := heffect.outputs
      exact ⟨congrArg Account.signIns haccount, ⟨os, houtputs, fun o hmem => (hos o hmem).2⟩,
        heffect.request.ge⟩
    · obtain ⟨os, houtputs, hos⟩ := hmigrates.outputs
      refine ⟨congrArg Account.signIns haccount, ⟨os, houtputs, fun o hmem => ?_⟩,
        hmigrates.request.ge⟩
      obtain ⟨user, erased, rfl⟩ := hos o hmem
      rfl
  · rw [← Option.some.inj h]
    exact .of_same rfl rfl rfl

theorem keepsSignIns_userManagerStart (s : App) (throws : Bool) :
    KeepsSignIns s (s.userManagerStart throws) := by
  unfold userManagerStart logoutAtFirstLaunch
  split
  · exact .of_same rfl rfl rfl
  · cases throws <;> exact .of_same rfl rfl rfl

theorem keepsSignIns_setPurchased (s : App) (newValue : Bool) :
    KeepsSignIns s (s.setPurchased newValue) := by
  cases newValue <;> exact .of_same rfl rfl rfl

theorem signIns_completeTransactions (s : App) (purchases : List TransactionState) :
    (s.completeTransactions purchases).signIns = s.signIns := by
  induction purchases generalizing s with
  | nil => rfl
  | cons transaction purchases ih =>
      have hone : (s.completeTransaction transaction).signIns = s.signIns := by
        cases transaction <;> rfl
      exact (ih (s.completeTransaction transaction)).trans hone

theorem keepsSignIns_account {input : Input} (hother : isSignInEvent input.event = false)
    (haccount : isAccountEvent input.event = true) (h : step s input = some s') :
    KeepsSignIns s s' := by
  obtain ⟨event, random, now⟩ := input
  cases event with
  | userManagerStart throws =>
      rw [← Option.some.inj h]
      exact keepsSignIns_userManagerStart s throws
  | signOut throws =>
      rw [← Option.some.inj h]
      have hout : KeepsSignIns s (s.signOut throws).1 := by
        cases throws <;> exact .of_same rfl rfl rfl
      exact hout.output rfl
  | purchaseCompleted success =>
      rw [← Option.some.inj h]
      cases success with
      | true => exact (keepsSignIns_setPurchased s true).output rfl
      | false => exact (keepsSignIns_setPurchased s false).output rfl
  | restoreCompleted results =>
      rw [← Option.some.inj h]
      unfold restoreCompleted
      split
      · exact (keepsSignIns_setPurchased s false).output rfl
      · exact (keepsSignIns_setPurchased s true).output rfl
  | completeTransactions purchases =>
      rw [← Option.some.inj h]
      have heffect : Extends (fun _ => False) (fun o => Output.attempt o = none) s
          (s.completeTransactions purchases) := effect_completeTransactions purchases
      exact .of_extends (signIns_completeTransactions s purchases) heffect fun _ ho => ho
  | signIn | providerCompleted | didSignInFor | firebaseAuthenticated =>
      simp [isSignInEvent] at hother
  | _ => simp [isAccountEvent] at haccount

theorem keepsSignIns_step {input : Input} (hother : isSignInEvent input.event = false)
    (h : step s input = some s') : KeepsSignIns s s' := by
  cases step_effect h with
  | launched => simp [isSignInEvent] at hother
  | requested haccount heffect => exact (KeepsSignIns.of_request haccount heffect).takeRequest
  | account hevent => exact keepsSignIns_account hother hevent h
  | served index outcome _ _ hserve =>
      rw [hserve]
      unfold serve
      split <;> exact .of_same rfl rfl rfl
  | delivered index _ _ hdeliver => exact keepsSignIns_deliver hdeliver
  | realmWrites _ _ _ hwrites =>
      rw [hwrites]
      exact .of_same rfl rfl rfl

theorem signIns_setupFirestoreManager (s : App) : s.setupFirestoreManager.signIns = s.signIns := by
  unfold setupFirestoreManager
  split <;> rfl

theorem signIns_launch (s : App) (throws : Bool) : (s.launch throws).signIns = [] :=
  (signIns_setupFirestoreManager _).trans (keepsSignIns_userManagerStart _ throws).signIns

theorem outputs_launch (s : App) (throws : Bool) : (s.launch throws).outputs = [] := by
  have heffect : Extends IsLoad (fun _ => False) _ (s.launch throws) := effect_launch s throws
  obtain ⟨os, houtputs, hos⟩ := heffect.outputs
  rw [houtputs, List.eq_nil_iff_forall_not_mem.mpr hos]
  rfl

end KeepsSignIns

end App

/-! ## What the functions owe -/

namespace App

theorem signIn_rejected {s : App} {option : Login} {attempt : Nat} (hcan : s.canSignIn = false) :
    s.takeRequest.signIn option attempt =
      s.takeRequest.output (.signedIn attempt false) := by
  unfold signIn
  rw [show s.takeRequest.canSignIn = false from hcan]
  rfl

theorem signIn_accepted {s : App} {option : Login} {attempt : Nat} (hcan : s.canSignIn = true) :
    s.takeRequest.signIn option attempt =
      match option with
      | .google => { s.takeRequest with googleCompletion := some attempt }
      | option =>
          { s.takeRequest with signIns := s.signIns ++ [⟨attempt, .provider option⟩] } := by
  unfold signIn
  rw [show s.takeRequest.canSignIn = true from hcan]
  rfl

/-- The answers of the attempt, and its entries among the attempts under way. -/
def owed (s : App) (attempt : Nat) : Nat :=
  s.outputs.countP (fun o => Output.attempt o = some attempt) +
    s.signIns.countP fun signIn => signIn.attempt = attempt

theorem owed_output (s : App) (o : Output) (attempt : Nat) :
    (s.output o).owed attempt =
      s.owed attempt + if Output.attempt o = some attempt then 1 else 0 := by
  simp only [owed, output, List.countP_append, List.countP_singleton, decide_eq_true_eq]
  omega

theorem owed_started {s t : App} {signIn : SignIn} (hsignIns : t.signIns = s.signIns ++ [signIn])
    (houtputs : t.outputs = s.outputs) (attempt : Nat) :
    t.owed attempt = s.owed attempt + if signIn.attempt = attempt then 1 else 0 := by
  simp only [owed, hsignIns, houtputs, List.countP_append, List.countP_singleton,
    decide_eq_true_eq, Nat.add_assoc]

theorem owed_waits (s : App) (signIn : SignIn) (attempt : Nat) :
    owed { s.takeRequest with signIns := s.signIns ++ [signIn] } attempt =
      s.owed attempt + if signIn.attempt = attempt then 1 else 0 := by
  apply owed_started <;> rfl

/-- The attempt `more` is owed one thing more, and a yes is given to `yes` at most. -/
structure SignInEffect (more yes : Option Nat) (s t : App) : Prop where
  owed : ∀ attempt, t.owed attempt = s.owed attempt + if more = some attempt then 1 else 0
  yes : ∀ attempt, Output.signedIn attempt true ∈ t.outputs →
    Output.signedIn attempt true ∈ s.outputs ∨ yes = some attempt
  next : s.nextRequest ≤ t.nextRequest

namespace SignInEffect

variable {s t : App} {more yes : Option Nat}

theorem refl (s : App) : SignInEffect none none s s :=
  ⟨fun _ => rfl, fun _ => Or.inl, Nat.le_refl _⟩

theorem keeps (h : KeepsSignIns s t) : SignInEffect none none s t := by
  obtain ⟨hsame, ⟨os, houtputs, hos⟩, hnext⟩ := h
  refine ⟨fun attempt => ?_, fun attempt hmem => Or.inl ?_, hnext⟩
  · have hnone : os.countP (fun o => Output.attempt o = some attempt) = 0 := by
      apply List.countP_eq_zero.mpr
      intro o hmem
      simp [hos o hmem]
    rw [App.owed, App.owed, hsame, houtputs, List.countP_append, hnone]
    rfl
  · rw [houtputs, List.mem_append] at hmem
    rcases hmem with hmem | hmem
    · exact hmem
    · simpa [Output.attempt] using hos _ hmem

theorem started (signIn : SignIn) (hsignIns : t.signIns = s.signIns ++ [signIn])
    (houtputs : t.outputs = s.outputs) (hnext : t.nextRequest = s.nextRequest) :
    SignInEffect (some signIn.attempt) none s t := by
  refine ⟨fun attempt => ?_, fun attempt hmem => Or.inl (houtputs ▸ hmem), hnext.ge⟩
  rw [owed_started hsignIns houtputs]
  simp only [Option.some.injEq]

theorem signInCompleted (attempt : Nat) (result : Bool) :
    SignInEffect (some attempt) (if result then some attempt else none) s
      (s.signInCompleted attempt result) := by
  have hsame : (s.signInCompleted attempt result).outputs =
        s.outputs ++ [.signedIn attempt result] ∧
      (s.signInCompleted attempt result).signIns = s.signIns ∧
      (s.signInCompleted attempt result).nextRequest = s.nextRequest := by
    cases result with
    | false => exact ⟨rfl, rfl, rfl⟩
    | true =>
        simp only [App.signInCompleted, if_true, setupFirestoreManager]
        split <;> exact ⟨rfl, rfl, rfl⟩
  obtain ⟨houtputs, hsignIns, hnext⟩ := hsame
  refine ⟨fun other => ?_, fun other hmem => ?_, hnext.ge⟩
  · simp [App.owed, hsignIns, houtputs, List.countP_append, List.countP_cons, Output.attempt,
      Nat.add_right_comm]
  · rw [houtputs, List.mem_append, List.mem_singleton] at hmem
    rcases hmem with hmem | hmem
    · exact Or.inl hmem
    · obtain ⟨rfl, rfl⟩ := Output.signedIn.inj hmem
      exact Or.inr rfl

theorem of_erase {signIn : SignIn} (hmem : signIn ∈ s.signIns)
    (h : SignInEffect (some signIn.attempt) yes
      { s with signIns := s.signIns.erase signIn } t) : SignInEffect none yes s t := by
  refine ⟨fun attempt => ?_, h.yes, h.next⟩
  have hcount := (List.perm_cons_erase hmem).countP_eq
    fun signIn => decide (signIn.attempt = attempt)
  rw [List.countP_cons] at hcount
  have howed := h.owed attempt
  simp only [App.owed, Option.some.injEq, decide_eq_true_eq, reduceCtorEq, if_false,
    Nat.add_zero] at hcount howed ⊢
  omega

theorem after_same {u : App} (h : SignInEffect more yes u t) (hsignIns : u.signIns = s.signIns)
    (houtputs : u.outputs = s.outputs) (hnext : u.nextRequest = s.nextRequest) :
    SignInEffect more yes s t := by
  have howed : ∀ attempt, u.owed attempt = s.owed attempt := by
    intro attempt
    rw [App.owed, App.owed, hsignIns, houtputs]
  exact ⟨fun attempt => by rw [h.owed, howed], houtputs ▸ h.yes, hnext ▸ h.next⟩

theorem then_same {u : App} (h : SignInEffect more yes s t) (hsignIns : u.signIns = t.signIns)
    (houtputs : u.outputs = t.outputs) (hnext : u.nextRequest = t.nextRequest) :
    SignInEffect more yes s u := by
  have howed : ∀ attempt, u.owed attempt = t.owed attempt := by
    intro attempt
    rw [App.owed, App.owed, hsignIns, houtputs]
  exact ⟨fun attempt => by rw [howed, h.owed], houtputs ▸ h.yes, hnext ▸ h.next⟩

theorem providerCompleted (attempt : Nat) (option : Login) (credential : Bool) :
    SignInEffect none none s (s.providerCompleted attempt option credential) := by
  unfold App.providerCompleted
  split
  · rename_i hmem
    apply of_erase hmem
    cases credential with
    | true => exact started ⟨attempt, .firebaseAuth⟩ rfl rfl rfl
    | false => exact signInCompleted attempt false
  · exact refl s

theorem firebaseAuthenticated (attempt : Nat) (result : AuthResult) :
    SignInEffect none (match result with | .user _ => some attempt | _ => none) s
      (s.firebaseAuthenticated attempt result) := by
  by_cases hmem : ⟨attempt, .firebaseAuth⟩ ∈ s.signIns
  · apply of_erase hmem
    rw [App.firebaseAuthenticated, if_pos hmem]
    cases result with
    | user identifier => exact (signInCompleted attempt true).after_same rfl rfl rfl
    | error | nothing => exact signInCompleted attempt false
  · rw [App.firebaseAuthenticated, if_neg hmem]
    exact ⟨fun _ => rfl, fun _ => Or.inl, Nat.le_refl _⟩

/-- With a closure in the slot its attempt is handed on or answered. -/
theorem didSignInFor {attempt : Nat} (hslot : s.googleCompletion = some attempt)
    (result : GoogleResult) :
    ∃ t, s.didSignInFor result = some t ∧ SignInEffect (some attempt) none s t := by
  cases result with
  | authentication =>
      refine ⟨{ s.firebaseAuth attempt with googleCompletion := none }, ?_, ?_⟩
      · simp only [App.didSignInFor, hslot]
      · exact started ⟨attempt, .firebaseAuth⟩ rfl rfl rfl
  | error =>
      refine ⟨{ s.signInCompleted attempt false with googleCompletion := none }, ?_, ?_⟩
      · simp only [App.didSignInFor, hslot]
      · exact (signInCompleted attempt false).then_same rfl rfl rfl
  | nothing =>
      refine ⟨{ s.signInCompleted attempt false with googleCompletion := none }, ?_, ?_⟩
      · simp only [App.didSignInFor, hslot]
      · exact (signInCompleted attempt false).then_same rfl rfl rfl

end SignInEffect

end App

end Proverbs
