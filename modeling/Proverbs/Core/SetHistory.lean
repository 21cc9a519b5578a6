import Mathlib.Data.Set.Insert

/-! # Histories of a set

A list of changes that claim to have been made to a set, one after the other. Such a
history is legal when nothing is added that is a member and nothing removed that is none;
it then says which set it ends in.
-/

namespace SetHistory

variable {κ : Type*}

inductive Change (κ : Type*) where
  | added (key : κ)
  | removed (key : κ)
deriving DecidableEq, Repr

def Change.apply (members : Set κ) : Change κ → Set κ
  | .added key => insert key members
  | .removed key => members \ {key}

def Change.Legal (members : Set κ) : Change κ → Prop
  | .added key => key ∉ members
  | .removed key => key ∈ members

def Change.key : Change κ → κ
  | .added key => key
  | .removed key => key

/-- The set a history ends in. -/
def after (members : Set κ) (changes : List (Change κ)) : Set κ :=
  changes.foldl Change.apply members

def Legal (members : Set κ) : List (Change κ) → Prop
  | [] => True
  | change :: changes => change.Legal members ∧ Legal (change.apply members) changes

section Histories

variable {members : Set κ} {changes : List (Change κ)} {change : Change κ} {key : κ}

@[simp] theorem after_nil : after members [] = members := rfl

theorem after_concat :
    after members (changes ++ [change]) = change.apply (after members changes) := by
  simp [after]

theorem legal_concat :
    Legal members (changes ++ [change]) ↔
      Legal members changes ∧ change.Legal (after members changes) := by
  induction changes generalizing members with
  | nil => simp [Legal]
  | cons first changes ih =>
      simp only [List.cons_append, Legal, ih, and_assoc]
      rfl

theorem Change.mem_apply_of_ne (h : key ≠ change.key) :
    key ∈ change.apply members ↔ key ∈ members := by
  cases change with
  | added other => simp [apply, Set.mem_insert_iff, show key ≠ other from h]
  | removed other => simp [apply, show key ≠ other from h]

end Histories

end SetHistory
