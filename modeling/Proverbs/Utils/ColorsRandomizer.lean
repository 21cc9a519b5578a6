import Mathlib.Data.List.Count
import Mathlib.Data.List.Perm.Basic

/-! # ColorsRandomizer

Colours for a number of views: a list is set up that has at least one colour for each
of them, and every call takes one out at random. A list that was too short would run
into the assertion of `nextRandomColor`.
-/

namespace Proverbs

/-! ## The palettes -/

/-- The colours the palettes are made of, under their asset names. -/
inductive UIColor where
  | appBlue
  | appDarkGrayBlue
  | appRed
  | appGrayBlue
  | appYellow
  | appFacebookButton
  | appGoogleButton
  | appTwitterButton
deriving DecidableEq, Repr

namespace UIColor

def mainAppColors : List UIColor := [appBlue, appDarkGrayBlue, appRed, appGrayBlue, appYellow]

def allAppColors : List UIColor :=
  [appBlue, appDarkGrayBlue, appRed, appGrayBlue, appYellow, appFacebookButton, appGoogleButton,
    appTwitterButton]

@[simp] theorem length_mainAppColors : mainAppColors.length = 5 := rfl

@[simp] theorem length_allAppColors : allAppColors.length = 8 := rfl

theorem nodup_allAppColors : allAppColors.Nodup := by decide

theorem take_mainAppColors {n : Nat} (h : n ≤ 5) :
    mainAppColors.take n = allAppColors.take n := by
  have hbegin : mainAppColors = allAppColors.take 5 := rfl
  rw [hbegin, List.take_take, Nat.min_eq_left h]

end UIColor

open UIColor

/-! ## The list of colours -/

inductive Trap where
  /-- A range or a slice whose bounds are not within the array. -/
  | rangeOutOfBounds
  /-- `assert(false, "Not enought colors")`. -/
  | notEnoughColors
  /-- `UInt32(_:)` of a value it cannot represent. -/
  | notRepresentable
deriving DecidableEq, Repr

/-- `Array(colors[0...upperBound])`. -/
def closedSlice (colors : List UIColor) (upperBound : Int) : Except Trap (List UIColor) :=
  if 0 ≤ upperBound ∧ upperBound < colors.length then .ok (colors.take (upperBound.toNat + 1))
  else .error .rangeOutOfBounds

structure ColorsRandomizer where
  colorsCount : Int
  colors : List UIColor
deriving DecidableEq, Repr

namespace ColorsRandomizer

def setColorList (colorsCount : Int) : Except Trap (List UIColor) :=
  if colorsCount < mainAppColors.length then closedSlice mainAppColors colorsCount
  else if colorsCount < allAppColors.length then closedSlice allAppColors colorsCount
  else
    let count := colorsCount / allAppColors.length + 1
    .ok (List.replicate count.toNat allAppColors).flatten

def init (colorsCount : Int) : Except Trap ColorsRandomizer :=
  (setColorList colorsCount).map fun colors => ⟨colorsCount, colors⟩

/-- `random` is what `arc4random_uniform` reduces to a value below its bound, which it
takes as a `UInt32`. -/
def nextRandomColor (s : ColorsRandomizer) (random : Nat) :
    Except Trap (UIColor × ColorsRandomizer) :=
  if s.colors.length = 0 then .error .notEnoughColors
  else if UInt32.size ≤ s.colors.length then .error .notRepresentable
  else
    let randomIndex := random % s.colors.length
    match s.colors[randomIndex]? with
    | none => .error .rangeOutOfBounds
    | some retColor => .ok (retColor, { s with colors := s.colors.eraseIdx randomIndex })

def nextRandomColors : ColorsRandomizer → List Nat → Except Trap (List UIColor × ColorsRandomizer)
  | s, [] => .ok ([], s)
  | s, random :: randoms =>
      (s.nextRandomColor random).bind fun (retColor, s') =>
        (s'.nextRandomColors randoms).map fun (retColors, s'') => (retColor :: retColors, s'')

/-! ## What the list holds -/

/-- The list for so many colours: the palette as far as it is needed, or copies of it. -/
def supply (n : Nat) : List UIColor :=
  if n < 8 then allAppColors.take (n + 1) else (List.replicate (n / 8 + 1) allAppColors).flatten

theorem closedSlice_eq {colors : List UIColor} {n : Nat} (h : n < colors.length) :
    closedSlice colors n = .ok (colors.take (n + 1)) := by
  unfold closedSlice
  rw [if_pos (by omega), Int.toNat_natCast]

theorem setColorList_eq (n : Nat) : setColorList n = .ok (supply n) := by
  have hmainCount : mainAppColors.length = 5 := length_mainAppColors
  have hallCount : allAppColors.length = 8 := length_allAppColors
  unfold setColorList supply
  by_cases hmain : n < 5
  · rw [if_pos (by omega), closedSlice_eq (by omega), if_pos (by omega),
      take_mainAppColors (by omega)]
  · by_cases hall : n < 8
    · rw [if_neg (by omega), if_pos (by omega), closedSlice_eq (by omega), if_pos hall]
    · have hcount : ((n : Int) / (allAppColors.length : Int) + 1).toNat = n / 8 + 1 := by
        rw [hallCount]
        omega
      rw [if_neg (by omega), if_neg (by omega), if_neg hall]
      simp only [hcount]

theorem init_eq (n : Nat) : init n = .ok ⟨n, supply n⟩ := by
  unfold init
  rw [setColorList_eq]
  rfl

section Supply

variable {n : Nat} {color : UIColor}

theorem length_supply (n : Nat) :
    (supply n).length = if n < 8 then n + 1 else (n / 8 + 1) * 8 := by
  unfold supply
  by_cases hall : n < 8
  · rw [if_pos hall, if_pos hall, List.length_take, length_allAppColors]
    omega
  · rw [if_neg hall, if_neg hall]
    simp

theorem lt_length_supply (n : Nat) : n < (supply n).length := by
  rw [length_supply]
  split <;> omega

/-- The list outgrows what `UInt32` represents together with the number of colours. -/
theorem length_supply_lt_iff : (supply n).length < UInt32.size ↔ n < 4294967288 := by
  rw [length_supply, UInt32.size]
  split <;> omega

theorem mem_allAppColors_of_mem_supply (h : color ∈ supply n) : color ∈ allAppColors := by
  unfold supply at h
  split at h
  · exact List.mem_of_mem_take h
  · simp only [List.mem_flatten, List.mem_replicate] at h
    obtain ⟨_, ⟨_, rfl⟩, hmem⟩ := h
    exact hmem

theorem mem_mainAppColors_of_mem_supply (hn : n < 5) (h : color ∈ supply n) :
    color ∈ mainAppColors := by
  rw [supply, if_pos (by omega), ← take_mainAppColors (by omega)] at h
  exact List.mem_of_mem_take h

theorem count_supply_le (n : Nat) (color : UIColor) : (supply n).count color ≤ n / 8 + 1 := by
  have honce : allAppColors.count color ≤ 1 := List.nodup_iff_count.mp nodup_allAppColors _
  unfold supply
  by_cases hall : n < 8
  · rw [if_pos hall]
    have htake := (List.take_sublist (n + 1) allAppColors).count_le color
    omega
  · rw [if_neg hall, List.count_flatten, List.map_replicate, List.sum_replicate_nat]
    calc
      (n / 8 + 1) * allAppColors.count color ≤ (n / 8 + 1) * 1 := Nat.mul_le_mul_left _ honce
      _ = n / 8 + 1 := Nat.mul_one _

end Supply

/-! ## Taking colours out -/

section Draws

variable {s s' : ColorsRandomizer} {random : Nat} {randoms : List Nat} {retColor : UIColor}
  {retColors : List UIColor}

/-- While there are colours, and no more than `UInt32` counts, a call takes one out. -/
theorem exists_nextRandomColor (hpos : 0 < s.colors.length) (hsize : s.colors.length < UInt32.size)
    (random : Nat) : ∃ retColor s', s.nextRandomColor random = .ok (retColor, s') := by
  have hindex : random % s.colors.length < s.colors.length := Nat.mod_lt _ hpos
  unfold nextRandomColor
  rw [if_neg (by omega), if_neg (by omega)]
  simp only [List.getElem?_eq_getElem hindex]
  exact ⟨_, _, rfl⟩

theorem perm_nextRandomColor (h : s.nextRandomColor random = .ok (retColor, s')) :
    s.colors.Perm (retColor :: s'.colors) := by
  unfold nextRandomColor at h
  split at h
  · simp at h
  · split at h
    · simp at h
    · simp only at h
      split at h
      · simp at h
      · rename_i hcolor
        obtain ⟨rfl, rfl⟩ := Prod.mk.inj (Except.ok.inj h)
        obtain ⟨hindex, rfl⟩ := List.getElem?_eq_some_iff.mp hcolor
        exact (List.getElem_cons_eraseIdx_perm hindex).symm

theorem nextRandomColors_cons {next : ColorsRandomizer}
    (h : s.nextRandomColor random = .ok (retColor, next)) (randoms : List Nat) :
    s.nextRandomColors (random :: randoms) =
      (next.nextRandomColors randoms).map fun (retColors, s'') => (retColor :: retColors, s'') := by
  rw [nextRandomColors, h]
  rfl

theorem exists_first (h : s.nextRandomColors (random :: randoms) = .ok (retColors, s')) :
    ∃ retColor next rest, s.nextRandomColor random = .ok (retColor, next) ∧
      next.nextRandomColors randoms = .ok (rest, s') ∧ retColor :: rest = retColors := by
  cases hfirst : s.nextRandomColor random with
  | error trap =>
      rw [nextRandomColors, hfirst] at h
      exact absurd h (by simp [Except.bind])
  | ok first =>
      rw [nextRandomColors_cons hfirst] at h
      cases hrest : first.2.nextRandomColors randoms with
      | error trap =>
          rw [hrest] at h
          exact absurd h (by simp [Except.map])
      | ok rest =>
          rw [hrest] at h
          obtain ⟨hcolors, hstate⟩ := Prod.mk.inj (Except.ok.inj h)
          exact ⟨first.1, first.2, rest.1, rfl, hrest.trans (by rw [← hstate]), hcolors⟩

theorem perm_nextRandomColors (h : s.nextRandomColors randoms = .ok (retColors, s')) :
    s.colors.Perm (retColors ++ s'.colors) := by
  induction randoms generalizing s retColors with
  | nil =>
      obtain ⟨rfl, rfl⟩ := Prod.mk.inj (Except.ok.inj h)
      exact List.Perm.refl _
  | cons random randoms ih =>
      obtain ⟨retColor, next, rest, hfirst, hrest, rfl⟩ := exists_first h
      exact (perm_nextRandomColor hfirst).trans ((ih hrest).cons retColor)

theorem exists_nextRandomColors (hlength : randoms.length ≤ s.colors.length)
    (hsize : s.colors.length < UInt32.size) :
    ∃ retColors s', s.nextRandomColors randoms = .ok (retColors, s') := by
  induction randoms generalizing s with
  | nil => exact ⟨[], s, rfl⟩
  | cons random randoms ih =>
      rw [List.length_cons] at hlength
      obtain ⟨retColor, next, hfirst⟩ := exists_nextRandomColor (by omega) hsize random
      have hleft := (perm_nextRandomColor hfirst).length_eq
      rw [List.length_cons] at hleft
      obtain ⟨rest, s', hrest⟩ := @ih next (by omega) (by omega)
      rw [nextRandomColors_cons hfirst, hrest]
      exact ⟨retColor :: rest, s', rfl⟩

theorem length_nextRandomColors (h : s.nextRandomColors randoms = .ok (retColors, s')) :
    retColors.length = randoms.length := by
  induction randoms generalizing s retColors with
  | nil =>
      obtain ⟨rfl, rfl⟩ := Prod.mk.inj (Except.ok.inj h)
      rfl
  | cons random randoms ih =>
      obtain ⟨retColor, next, rest, _, hrest, rfl⟩ := exists_first h
      rw [List.length_cons, List.length_cons, ih hrest]

theorem nextRandomColor_of_size_le (h : UInt32.size ≤ s.colors.length) (random : Nat) :
    s.nextRandomColor random = .error .notRepresentable := by
  have hpos : 0 < UInt32.size := by decide
  unfold nextRandomColor
  rw [if_neg (by omega), if_pos h]

/-! The list for so many colours. -/

theorem exists_nextRandomColors_supply {n : Nat} (hn : n < 4294967288)
    (hlength : randoms.length ≤ n + 1) :
    ∃ retColors s', nextRandomColors ⟨n, supply n⟩ randoms = .ok (retColors, s') := by
  have hlast := lt_length_supply n
  exact exists_nextRandomColors (s := ⟨n, supply n⟩) (by simp only; omega)
    (length_supply_lt_iff.mpr hn)

theorem nextRandomColor_supply {n : Nat} (hn : 4294967288 ≤ n) (random : Nat) :
    nextRandomColor ⟨n, supply n⟩ random = .error .notRepresentable := by
  apply nextRandomColor_of_size_le
  exact Nat.le_of_not_lt fun h => absurd (length_supply_lt_iff.mp h) (by omega)

theorem exists_nextRandomColors_supply_iff {n : Nat} (hlength : randoms.length = n) :
    (∃ retColors s', nextRandomColors ⟨n, supply n⟩ randoms = .ok (retColors, s')) ↔
      n < 4294967288 := by
  constructor
  · rintro ⟨retColors, s', h⟩
    by_contra hn
    cases randoms with
    | nil =>
        rw [List.length_nil] at hlength
        omega
    | cons random randoms =>
        obtain ⟨_, _, _, hfirst, _⟩ := exists_first h
        have htrap := nextRandomColor_supply (n := n) (by omega) random
        exact absurd (htrap.symm.trans hfirst) (by simp)
  · intro hn
    exact exists_nextRandomColors_supply hn (by omega)

end Draws

/-- The list is built for every number of colours. It lasts for one call more than that,
unless it has grown beyond what `UInt32` represents: then no call returns. Whatever is
returned comes out of the palette, at most once for each copy of it. -/
theorem init_supplies (n : Nat) :
    ∃ s, init n = .ok s ∧
      (n < 4294967288 → ∀ randoms : List Nat, randoms.length ≤ n + 1 →
        ∃ retColors s', s.nextRandomColors randoms = .ok (retColors, s')) ∧
      (4294967288 ≤ n → ∀ random, s.nextRandomColor random = .error .notRepresentable) ∧
      ∀ randoms retColors s', s.nextRandomColors randoms = .ok (retColors, s') →
        retColors.length = randoms.length ∧
          (∀ color ∈ retColors, color ∈ allAppColors ∧ (n < 5 → color ∈ mainAppColors)) ∧
          (∀ color, retColors.count color ≤ n / 8 + 1) ∧ (n < 8 → retColors.Nodup) := by
  refine ⟨⟨n, supply n⟩, init_eq n, ?_, ?_, ?_⟩
  · intro hn randoms hlength
    exact exists_nextRandomColors_supply hn hlength
  · intro hn random
    exact nextRandomColor_supply hn random
  · intro randoms retColors s' h
    have hperm : (supply n).Perm (retColors ++ s'.colors) := perm_nextRandomColors h
    have hmem : ∀ color ∈ retColors, color ∈ supply n := fun color hcolor =>
      hperm.mem_iff.mpr (List.mem_append_left _ hcolor)
    have hcount : ∀ color, retColors.count color ≤ n / 8 + 1 := by
      intro color
      have hparts := hperm.count_eq color
      rw [List.count_append] at hparts
      have hsupply := count_supply_le n color
      omega
    refine ⟨length_nextRandomColors h, ?_, hcount, ?_⟩
    · intro color hcolor
      exact ⟨mem_allAppColors_of_mem_supply (hmem color hcolor), fun hn =>
        mem_mainAppColors_of_mem_supply hn (hmem color hcolor)⟩
    · intro hn
      rw [List.nodup_iff_count]
      intro color
      have honce := hcount color
      omega

example :
    ((init 2).bind fun s => s.nextRandomColors [5, 0, 3]).map Prod.fst =
      .ok [appRed, appBlue, appDarkGrayBlue] := rfl

/-- The first call for `UInt32.max - 7` colours. -/
theorem init_outgrows :
    ¬ ∀ n : Nat, ∃ s, init n = .ok s ∧ ∀ randoms : List Nat, randoms.length ≤ n + 1 →
      ∃ retColors s', s.nextRandomColors randoms = .ok (retColors, s') := by
  intro h
  obtain ⟨s, hinit, hsupplies⟩ := h 4294967288
  obtain rfl := Except.ok.inj ((init_eq 4294967288).symm.trans hinit)
  obtain ⟨retColors, s', hfirst⟩ := hsupplies [0] (by simp)
  obtain ⟨retColor, next, _, hnext, _⟩ := exists_first hfirst
  have htrap := nextRandomColor_supply (n := 4294967288) (Nat.le_refl _) 0
  exact absurd (htrap.symm.trans hnext) (by simp)

end ColorsRandomizer

end Proverbs
