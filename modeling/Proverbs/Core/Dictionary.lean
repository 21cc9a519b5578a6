import Proverbs.Core.KeyedStore

/-! # Dictionaries

A dictionary is a store of pairs told apart by their first component. Its keys are
distinct, and what is read under a key is what was last written there.
-/

abbrev Dictionary (κ β : Type*) := KeyedStore (Prod.fst : κ × β → κ)

namespace Dictionary

variable {κ β : Type*}

def keys (d : Dictionary κ β) : List κ := d.entries.map Prod.fst

theorem nodup_keys (d : Dictionary κ β) : d.keys.Nodup := d.nodup

variable [DecidableEq κ]

def value (d : Dictionary κ β) (k : κ) : Option β :=
  (d.entries.find? fun x => x.1 = k).map Prod.snd

def set (d : Dictionary κ β) (k : κ) (v : β) : Dictionary κ β := KeyedStore.put (k, v) d

theorem value_eq_some {d : Dictionary κ β} {k : κ} {v : β} :
    d.value k = some v ↔ (k, v) ∈ d.entries := by
  constructor
  · intro h
    obtain ⟨x, hfind, rfl⟩ := Option.map_eq_some_iff.mp h
    have hkey : x.1 = k := by simpa using List.find?_some hfind
    exact hkey ▸ List.mem_of_find?_eq_some hfind
  · intro h
    obtain ⟨x, hfind⟩ : ∃ x, d.entries.find? (fun x => x.1 = k) = some x :=
      Option.isSome_iff_exists.mp (List.find?_isSome.mpr ⟨(k, v), h, by simp⟩)
    have hkey : x.1 = k := by simpa using List.find?_some hfind
    have hsame : x = (k, v) := KeyedStore.eq_of_key_eq (List.mem_of_find?_eq_some hfind) h hkey
    simp [value, hfind, hsame]

theorem value_set (d : Dictionary κ β) (k k' : κ) (v : β) :
    (d.set k v).value k' = if k' = k then some v else d.value k' := by
  apply Option.ext
  intro w
  have hput : (d.set k v).value k' = some w ↔ (k', w) = (k, v) ∨ ((k', w) ∈ d.entries ∧ k' ≠ k) :=
    value_eq_some.trans KeyedStore.mem_put
  rw [hput]
  split
  · rename_i h
    simp [h, eq_comm]
  · rename_i h
    simp [h, value_eq_some]

theorem mem_keys {d : Dictionary κ β} {k : κ} : k ∈ d.keys ↔ ∃ v, d.value k = some v := by
  simp only [keys, List.mem_map, Prod.exists, value_eq_some]
  constructor
  · rintro ⟨_, v, hmem, rfl⟩
    exact ⟨v, hmem⟩
  · rintro ⟨v, hmem⟩
    exact ⟨k, v, hmem, rfl⟩

end Dictionary
