import Mathlib.Data.List.Nodup

/-! # Stores with a primary key

A finite store whose entries are told apart by a key, as a database table with a
primary key or a collection of named documents is. Two entries with one key
cannot be built. Writing an entry replaces the one stored under its key; the
remaining entries keep their places.
-/

/-- A list of entries, no two of them with the same key. -/
structure KeyedStore {α κ : Type*} (key : α → κ) where
  entries : List α
  nodup : (entries.map key).Nodup

namespace KeyedStore

variable {α κ : Type*} {key : α → κ}

instance : Membership α (KeyedStore key) := ⟨fun s x => x ∈ s.entries⟩

@[simp] theorem mem_entries {s : KeyedStore key} {x : α} : x ∈ s.entries ↔ x ∈ s := Iff.rfl

theorem eq_of_key_eq {s : KeyedStore key} {x y : α} (hx : x ∈ s) (hy : y ∈ s)
    (h : key x = key y) : x = y :=
  List.inj_on_of_nodup_map s.nodup hx hy h

def empty : KeyedStore key := ⟨[], by simp⟩

/-- Change entries where they are; their keys stay. -/
def modify (f : α → α) (hf : ∀ x, key (f x) = key x) (s : KeyedStore key) : KeyedStore key where
  entries := s.entries.map f
  nodup := by
    have hkeys : (s.entries.map f).map key = s.entries.map key := by
      rw [List.map_map]
      exact List.map_congr_left fun x _ => hf x
    rw [hkeys]
    exact s.nodup

/-! ## Writing one entry -/

section Write

variable [DecidableEq κ]

def putList (key : α → κ) (x : α) (xs : List α) : List α :=
  if key x ∈ xs.map key then xs.map (fun y => if key y = key x then x else y) else xs ++ [x]

theorem map_key_putList (x : α) (xs : List α) :
    (putList key x xs).map key =
      if key x ∈ xs.map key then xs.map key else xs.map key ++ [key x] := by
  unfold putList
  split
  · rw [List.map_map]
    apply List.map_congr_left
    intro y _
    by_cases hy : key y = key x <;> simp [hy]
  · simp

/-- Store `x`, in place of the entry with its key when there is one. -/
def put (x : α) (s : KeyedStore key) : KeyedStore key where
  entries := putList key x s.entries
  nodup := by
    rw [map_key_putList]
    split
    · exact s.nodup
    · rename_i h
      exact List.nodup_append.mpr ⟨s.nodup, by simp, by
        intro a ha b hb
        rw [List.mem_singleton.mp hb]
        exact fun e => h (e ▸ ha)⟩

theorem mem_putList {x y : α} {xs : List α} :
    y ∈ putList key x xs ↔ y = x ∨ (y ∈ xs ∧ key y ≠ key x) := by
  unfold putList
  split
  · rename_i h
    obtain ⟨z, hz, hkey⟩ := List.mem_map.mp h
    constructor
    · intro hy
      obtain ⟨w, hw, hwy⟩ := List.mem_map.mp hy
      by_cases hk : key w = key x
      · left; simpa [hk] using hwy.symm
      · right
        simp only [hk, if_false] at hwy
        exact hwy ▸ ⟨hw, hk⟩
    · rintro (rfl | ⟨hy, hk⟩)
      · exact List.mem_map.mpr ⟨z, hz, by simp [hkey]⟩
      · exact List.mem_map.mpr ⟨y, hy, by simp [hk]⟩
  · rename_i h
    simp only [List.mem_append, List.mem_singleton]
    constructor
    · rintro (hy | rfl)
      · exact Or.inr ⟨hy, fun hk => h (List.mem_map.mpr ⟨y, hy, hk⟩)⟩
      · exact Or.inl rfl
    · rintro (rfl | ⟨hy, _⟩)
      · exact Or.inr rfl
      · exact Or.inl hy

theorem mem_put {s : KeyedStore key} {x y : α} :
    y ∈ s.put x ↔ y = x ∨ (y ∈ s ∧ key y ≠ key x) := mem_putList

theorem mem_put_self (s : KeyedStore key) (x : α) : x ∈ s.put x := mem_put.mpr (Or.inl rfl)

theorem put_of_mem {s : KeyedStore key} {x : α} (h : x ∈ s) : s.put x = s := by
  have hkey : key x ∈ s.entries.map key := List.mem_map.mpr ⟨x, h, rfl⟩
  have hsame : (s.put x).entries = s.entries := by
    show putList key x s.entries = s.entries
    rw [putList, if_pos hkey]
    conv_rhs => rw [← List.map_id s.entries]
    apply List.map_congr_left
    intro y hy
    by_cases hxy : key y = key x
    · rw [if_pos hxy, eq_of_key_eq hy h hxy]
      rfl
    · rw [if_neg hxy]
      rfl
  cases hs : s.put x
  cases s
  rw [hs] at hsame
  cases hsame
  rfl

theorem entries_put_of_new {s : KeyedStore key} {x : α} (h : ∀ y ∈ s, key y ≠ key x) :
    (s.put x).entries = s.entries ++ [x] := by
  have hnew : key x ∉ s.entries.map key := by
    intro hm
    obtain ⟨y, hy, hk⟩ := List.mem_map.mp hm
    exact h y hy hk
  simp [put, putList, hnew]

theorem countP_put_le (p : α → Bool) (s : KeyedStore key) (x : α) :
    (s.put x).entries.countP p ≤ s.entries.countP p + if p x then 1 else 0 := by
  by_cases h : key x ∈ s.entries.map key
  · obtain ⟨z, hz, hkey⟩ := List.mem_map.mp h
    have hput : (s.put x).entries = s.entries.map fun y => if key y = key x then x else y := by
      simp only [put, putList, if_pos h]
    have hone : ∀ xs : List α, (xs.map key).Nodup →
        (xs.map fun y => if key y = key x then x else y).countP p ≤
          xs.countP p + if p x then 1 else 0 := by
      intro xs hxs
      induction xs with
      | nil => simp
      | cons y ys ih =>
          rw [List.map_cons, List.nodup_cons] at hxs
          simp only [List.map_cons, List.countP_cons]
          by_cases hy : key y = key x
          · have htail : (ys.map fun y => if key y = key x then x else y) = ys := by
              conv_rhs => rw [← List.map_id ys]
              apply List.map_congr_left
              intro w hw
              have hne : key w ≠ key x := by
                intro e
                exact hxs.1 (List.mem_map.mpr ⟨w, hw, e.trans hy.symm⟩)
              simp [hne]
            rw [htail]
            simp only [hy, if_true]
            split <;> split <;> omega
          · have := ih hxs.2
            simp only [hy, if_false]
            omega
    rw [hput]
    exact hone s.entries s.nodup
  · simp [put, putList, h, List.countP_append, List.countP_cons]

/-! ## Writing several entries -/

/-- Write the entries one after the other, as one transaction does. -/
def putAll (xs : List α) (s : KeyedStore key) : KeyedStore key := xs.foldl (fun s x => s.put x) s

@[simp] theorem putAll_nil (s : KeyedStore key) : s.putAll [] = s := rfl

theorem putAll_cons (x : α) (xs : List α) (s : KeyedStore key) :
    s.putAll (x :: xs) = (s.put x).putAll xs := rfl

/-- Entries with distinct keys are all stored, and the others stay unless their
key was written. -/
theorem mem_putAll {xs : List α} (hxs : (xs.map key).Nodup) {s : KeyedStore key} {y : α} :
    y ∈ s.putAll xs ↔ y ∈ xs ∨ (y ∈ s ∧ key y ∉ xs.map key) := by
  induction xs generalizing s with
  | nil => simp
  | cons x xs ih =>
      rw [List.map_cons, List.nodup_cons] at hxs
      rw [putAll_cons, ih hxs.2, mem_put]
      constructor
      · rintro (hy | ⟨rfl | ⟨hy, hk⟩, hout⟩)
        · exact Or.inl (List.mem_cons_of_mem _ hy)
        · exact Or.inl List.mem_cons_self
        · exact Or.inr ⟨hy, by simp [hk, hout]⟩
      · rintro (hy | ⟨hy, hout⟩)
        · rcases List.mem_cons.mp hy with rfl | hy
          · exact Or.inr ⟨Or.inl rfl, hxs.1⟩
          · exact Or.inl hy
        · rw [List.map_cons, List.mem_cons, not_or] at hout
          exact Or.inr ⟨Or.inr ⟨hy, hout.1⟩, hout.2⟩

theorem mem_putAll_last {xs : List α} {s : KeyedStore key} {y : α} :
    y ∈ s.putAll xs ↔
      xs.reverse.find? (fun x => key x = key y) = some y ∨ (y ∈ s ∧ key y ∉ xs.map key) := by
  induction xs generalizing s with
  | nil => simp
  | cons x xs ih =>
      rw [putAll_cons, ih, mem_put, List.reverse_cons, List.find?_append]
      cases hfind : xs.reverse.find? (fun x => key x = key y) with
      | some z =>
          have hkey : key y ∈ xs.map key := by
            have hz : key z = key y := by simpa using List.find?_some hfind
            exact hz ▸ List.mem_map_of_mem (List.mem_reverse.mp (List.mem_of_find?_eq_some hfind))
          simp [hkey]
      | none =>
          have hkey : key y ∉ xs.map key := by
            intro hmem
            obtain ⟨z, hz, hzy⟩ := List.mem_map.mp hmem
            simpa [hzy] using List.find?_eq_none.mp hfind z (List.mem_reverse.mpr hz)
          by_cases hx : key x = key y
          · simp [hx, hkey, eq_comm]
          · have hne : y ≠ x := fun h => hx (h ▸ rfl)
            simp [hx, hkey, hne, Ne.symm hx]

/-! ## Removing an entry -/

def erase (k : κ) (s : KeyedStore key) : KeyedStore key where
  entries := s.entries.filter fun y => key y ≠ k
  nodup := s.nodup.sublist (List.filter_sublist.map key)

theorem mem_erase {s : KeyedStore key} {k : κ} {y : α} :
    y ∈ s.erase k ↔ y ∈ s ∧ key y ≠ k := by
  change y ∈ s.entries.filter _ ↔ _
  simp

theorem countP_erase_le (p : α → Bool) (s : KeyedStore key) (k : κ) :
    (s.erase k).entries.countP p ≤ s.entries.countP p :=
  List.filter_sublist.countP_le

end Write

end KeyedStore
