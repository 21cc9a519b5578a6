import Mathlib.Data.List.Basic

/-! # Runs of a partial step function

A machine is a step function that consumes one input and either moves to the
next state or stops. Everything that may happen around it (answers of a server,
the order of callbacks, a user's taps) is part of the input, so a list of inputs
is one interleaving and a statement about all lists is one about all of them.
A property of single steps is lifted to runs with `Along`, which never looks
past a stop.
-/

namespace Transition

variable {σ ι : Type*} {step : σ → ι → Option σ}

/-- Feed the inputs one after the other; the run stops where the step does. -/
def run (step : σ → ι → Option σ) : σ → List ι → Option σ
  | s, [] => some s
  | s, i :: is => (step s i).bind fun s' => run step s' is

/-- `P` holds of every state the run passes through, with the input taken there. -/
def Along (step : σ → ι → Option σ) (P : σ → ι → Prop) : σ → List ι → Prop
  | _, [] => True
  | s, i :: is => P s i ∧ ∀ s', step s i = some s' → Along step P s' is

/-- The state is the end of some run of the machine. -/
def Reachable (step : σ → ι → Option σ) (s s' : σ) : Prop := ∃ is, run step s is = some s'

/-! ## Composition -/

@[simp] theorem run_nil (s : σ) : run step s [] = some s := rfl

@[simp] theorem run_cons (s : σ) (i : ι) (is : List ι) :
    run step s (i :: is) = (step s i).bind fun s' => run step s' is := rfl

/-- A run of at least one input begins with a step and continues from there. -/
theorem run_cons_eq_some {s t : σ} {i : ι} {is : List ι} :
    run step s (i :: is) = some t ↔ ∃ s', step s i = some s' ∧ run step s' is = some t := by
  simp [Option.bind_eq_some_iff]

@[simp] theorem along_nil (P : σ → ι → Prop) (s : σ) : Along step P s [] := trivial

@[simp] theorem along_cons (P : σ → ι → Prop) (s : σ) (i : ι) (is : List ι) :
    Along step P s (i :: is) ↔ P s i ∧ ∀ s', step s i = some s' → Along step P s' is :=
  Iff.rfl

instance decidableAlong (P : σ → ι → Prop) [∀ s i, Decidable (P s i)] (s : σ) (is : List ι) :
    Decidable (Along step P s is) :=
  match is with
  | [] => isTrue trivial
  | i :: is =>
      match hs : step s i with
      | none => decidable_of_iff (P s i) (by simp [hs])
      | some s' =>
          have := decidableAlong P s' is
          decidable_of_iff (P s i ∧ Along step P s' is) (by simp [hs])

/-! ## From steps to runs -/

section Invariants

variable {I : σ → Prop} {P G : σ → ι → Prop}

theorem Along.mono (h : ∀ s i, G s i → P s i) {s : σ} {is : List ι} (hG : Along step G s is) :
    Along step P s is := by
  induction is generalizing s with
  | nil => trivial
  | cons i is ih => exact ⟨h s i hG.1, fun s' hs => ih (hG.2 s' hs)⟩

theorem Along.and {s : σ} {is : List ι} (hP : Along step P s is) (hG : Along step G s is) :
    Along step (fun s i => P s i ∧ G s i) s is := by
  induction is generalizing s with
  | nil => trivial
  | cons i is ih => exact ⟨⟨hP.1, hG.1⟩, fun s' hs => ih (hP.2 s' hs) (hG.2 s' hs)⟩

theorem along_of_forall {Q : ι → Prop} {is : List ι} (hQ : ∀ i ∈ is, Q i) (s : σ) :
    Along step (fun _ i => Q i) s is := by
  induction is generalizing s with
  | nil => trivial
  | cons i is ih =>
      refine ⟨hQ i List.mem_cons_self, fun s' _ => ih (fun j hj => ?_) s'⟩
      exact hQ j (List.mem_cons_of_mem i hj)

/-- What every guarded step keeps, every guarded run keeps. -/
theorem run_invariant (keep : ∀ s i s', I s → G s i → step s i = some s' → I s')
    {s t : σ} {is : List ι} (hI : I s) (hG : Along step G s is) (h : run step s is = some t) :
    I t := by
  induction is generalizing s with
  | nil =>
      simp only [run_nil, Option.some.injEq] at h
      exact h ▸ hI
  | cons i is ih =>
      obtain ⟨s', hs, hr⟩ := run_cons_eq_some.mp h
      exact ih (keep s i s' hI hG.1 hs) (hG.2 s' hs) hr

/-- Steps that satisfy the guard from an invariant state also satisfy `P`. -/
theorem along_of_invariant (keep : ∀ s i s', I s → G s i → step s i = some s' → I s')
    (use : ∀ s i, I s → G s i → P s i) {s : σ} {is : List ι} (hI : I s)
    (hG : Along step G s is) : Along step P s is := by
  induction is generalizing s with
  | nil => trivial
  | cons i is ih =>
      exact ⟨use s i hI hG.1, fun s' hs => ih (keep s i s' hI hG.1 hs) (hG.2 s' hs)⟩

/-- A run none of whose steps stops has an end. -/
theorem exists_run_of_along {s : σ} {is : List ι}
    (h : Along step (fun s i => ∃ s', step s i = some s') s is) : ∃ t, run step s is = some t := by
  induction is generalizing s with
  | nil => exact ⟨s, rfl⟩
  | cons i is ih =>
      obtain ⟨⟨s', hs⟩, hrest⟩ := h
      obtain ⟨t, ht⟩ := ih (hrest s' hs)
      exact ⟨t, run_cons_eq_some.mpr ⟨s', hs, ht⟩⟩

/-- A run has an end exactly if every step on its way has one. -/
theorem run_isSome_iff {s : σ} {is : List ι} :
    (run step s is).isSome ↔ Along step (fun s i => (step s i).isSome) s is := by
  induction is generalizing s with
  | nil => simp
  | cons i is ih =>
      rw [run_cons, along_cons]
      cases step s i with
      | none => simp
      | some s' => simp [ih]

/-- Where the guard is exactly what a step needs, it is exactly what a run needs:
the invariant may rest on the guard, since the first bad step settles the run. -/
theorem along_congr {s : σ} {is : List ι}
    (keep : ∀ s, ∀ i ∈ is, ∀ s', I s → G s i → step s i = some s' → I s')
    (exact_step : ∀ s, ∀ i ∈ is, I s → (P s i ↔ G s i)) (hI : I s) :
    Along step P s is ↔ Along step G s is := by
  induction is generalizing s with
  | nil => simp
  | cons i is ih =>
      have hstep := exact_step s i List.mem_cons_self hI
      have hrest : ∀ s', I s' → (Along step P s' is ↔ Along step G s' is) := fun s' =>
        ih (fun s j hj => keep s j (List.mem_cons_of_mem i hj))
          (fun s j hj => exact_step s j (List.mem_cons_of_mem i hj))
      constructor
      · rintro ⟨hP, rest⟩
        have hG := hstep.mp hP
        exact ⟨hG, fun s' hs =>
          (hrest s' (keep s i List.mem_cons_self s' hI hG hs)).mp (rest s' hs)⟩
      · rintro ⟨hG, rest⟩
        exact ⟨hstep.mpr hG, fun s' hs =>
          (hrest s' (keep s i List.mem_cons_self s' hI hG hs)).mpr (rest s' hs)⟩

end Invariants

/-! ## Reachability -/

theorem Reachable.refl (s : σ) : Reachable step s s := ⟨[], rfl⟩

theorem run_append (s : σ) (is js : List ι) :
    run step s (is ++ js) = (run step s is).bind fun t => run step t js := by
  induction is generalizing s with
  | nil => rfl
  | cons i is ih =>
      rw [List.cons_append, run_cons, run_cons]
      cases step s i with
      | none => rfl
      | some s' => exact ih s'

theorem Reachable.trans {s t u : σ} (h : Reachable step s t) (h' : Reachable step t u) :
    Reachable step s u := by
  obtain ⟨is, his⟩ := h
  obtain ⟨js, hjs⟩ := h'
  exact ⟨is ++ js, by rw [run_append, his, Option.bind_some, hjs]⟩

theorem Reachable.mono {step' : σ → ι → Option σ}
    (h : ∀ s i s', step s i = some s' → step' s i = some s') {s t : σ}
    (hreach : Reachable step s t) : Reachable step' s t := by
  obtain ⟨is, hr⟩ := hreach
  refine ⟨is, ?_⟩
  induction is generalizing s with
  | nil => exact hr
  | cons i is ih =>
      obtain ⟨s', hs, hrest⟩ := run_cons_eq_some.mp hr
      exact run_cons_eq_some.mpr ⟨s', h s i s' hs, ih hrest⟩

theorem Reachable.of_step {s t : σ} {i : ι} (h : step s i = some t) : Reachable step s t :=
  ⟨[i], by rw [run_cons, h, Option.bind_some, run_nil]⟩

/-- What every step keeps holds of every state that can be reached. -/
theorem Reachable.invariant {I : σ → Prop} (keep : ∀ s i s', I s → step s i = some s' → I s')
    {s t : σ} (h : Reachable step s t) (hI : I s) : I t := by
  obtain ⟨is, hr⟩ := h
  induction is generalizing s with
  | nil =>
      rw [run_nil, Option.some.injEq] at hr
      exact hr ▸ hI
  | cons i is ih =>
      obtain ⟨s', hs, hrest⟩ := run_cons_eq_some.mp hr
      exact ih (keep s i s' hI hs) hrest

end Transition
