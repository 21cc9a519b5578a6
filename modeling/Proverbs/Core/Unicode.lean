import Mathlib.Data.String.Basic

/-! # Texts up to canonical equivalence

Two strings are equal when their normal forms are, and they compare as these do. The
characters of a string are its extended grapheme clusters. The tables behind both are not
given here, only what they say of plain text.
-/

/-- An ASCII character with a width. -/
def Unicode.Printable (c : Char) : Prop := 32 ≤ c.toNat ∧ c.toNat < 127

instance (c : Char) : Decidable (Unicode.Printable c) := inferInstanceAs (Decidable (_ ∧ _))

class Unicode where
  /-- Normal form C. -/
  normalForm : String → String
  characters : String → List String
  /-- Strings are put together of their normal forms, and their characters correspond. -/
  normalForm_append : ∀ text other : String,
    normalForm (text ++ other) = normalForm (normalForm text ++ normalForm other)
  characters_congr : ∀ text other : String, normalForm text = normalForm other →
    (characters text).map normalForm = (characters other).map normalForm
  normalForm_ascii : ∀ text : String, (∀ c ∈ text.toList, c.toNat < 128) → normalForm text = text
  normalForm_blank : ∀ text : String, normalForm (" " ++ text) = " " ++ normalForm text
  join_characters : ∀ text : String, String.join (characters text) = text
  characters_cons : ∀ (c d : Char) (cs : List Char), Unicode.Printable c → Unicode.Printable d →
    characters (String.ofList (c :: d :: cs)) =
      String.ofList [c] :: characters (String.ofList (d :: cs))
  /-- Only what joins the blank is not a character of the text behind it. -/
  characters_blank : ∀ text : String, ∀ character ∈ characters (" " ++ text),
    character ∈ characters text ∨ ∃ marks, character = " " ++ marks

namespace Unicode

theorem toList_blank (text : String) : (" " ++ text).toList = ' ' :: text.toList := by
  rw [String.toList_append]
  rfl

section Comparison

variable [Unicode] {text other : String}

abbrev Equivalent (text other : String) : Prop := normalForm text = normalForm other

abbrev Less (text other : String) : Prop := normalForm text < normalForm other

theorem blank_less_blank : Less (" " ++ text) (" " ++ other) ↔ Less text other := by
  unfold Less
  rw [normalForm_blank, normalForm_blank, String.lt_iff_toList_lt, String.lt_iff_toList_lt,
    toList_blank, toList_blank]
  exact List.cons_lt_cons_self

theorem normalForm_character {c : Char} (hascii : c.toNat < 128) :
    normalForm (String.ofList [c]) = String.ofList [c] :=
  normalForm_ascii _ (by simpa using hascii)

theorem not_equivalent_of_ne {c d : Char} (hc : c.toNat < 128) (hd : d.toNat < 128)
    (hne : c ≠ d) : ¬ Equivalent (String.ofList [c]) (String.ofList [d]) := by
  rw [Equivalent, normalForm_character hc, normalForm_character hd]
  intro h
  exact hne (by simpa using congrArg String.toList h)

theorem characters_append {cs : List Char} (hcs : ∀ c ∈ cs, Printable c) {d : Char}
    (hd : Printable d) (rest : List Char) :
    characters (String.ofList (cs ++ d :: rest)) =
      cs.map (fun c => String.ofList [c]) ++ characters (String.ofList (d :: rest)) := by
  induction cs with
  | nil => rfl
  | cons c cs ih =>
      have hc : Printable c := hcs c List.mem_cons_self
      have hrest := ih fun c hmem => hcs c (List.mem_cons_of_mem _ hmem)
      cases cs with
      | nil => simpa using characters_cons c d rest hc hd
      | cons next cs =>
          have hnext : Printable next := hcs next (by simp)
          have hfirst := characters_cons c next (cs ++ d :: rest) hc hnext
          exact hfirst.trans (congrArg (String.ofList [c] :: ·) hrest)

/-- A blank and what joins it are another character than a visible one. -/
theorem not_equivalent_blank {c : Char} (hascii : c.toNat < 128) (hvisible : c ≠ ' ')
    (marks : String) : ¬ Equivalent (" " ++ marks) (String.ofList [c]) := by
  intro h
  rw [Equivalent, normalForm_blank, normalForm_character hascii] at h
  have hlists : ' ' :: (normalForm marks).toList = [c] := by
    rw [← toList_blank, h, String.toList_ofList]
  exact hvisible (List.head_eq_of_cons_eq hlists).symm

end Comparison

/-! ## Searching and splitting -/

section Split

variable [Unicode]

/-- `text.contains(separator)`. -/
def contains (text separator : String) : Bool := (characters text).any (Equivalent · separator)

/-- `text.split(separator: separator)`, which omits empty pieces. -/
def split (text separator : String) : List String :=
  (((characters text).splitOnP (Equivalent · separator)).filter (· ≠ [])).map String.join

omit [Unicode] in
theorem splitOnP_map {α β : Type*} (f : α → β) (p : β → Bool) (xs : List α) :
    (xs.map f).splitOnP p = (xs.splitOnP (p ∘ f)).map (List.map f) := by
  induction xs with
  | nil => rfl
  | cons x xs ih =>
      obtain ⟨first, rest, hparts⟩ :=
        List.exists_cons_of_ne_nil (List.splitOnP_ne_nil (p ∘ f) xs)
      rw [List.map_cons, List.splitOnP_cons_eq_if_modifyHead, ih,
        List.splitOnP_cons_eq_if_modifyHead, hparts]
      by_cases hx : p (f x) <;> simp [hx]

theorem normalForm_join (pieces : List String) :
    normalForm (String.join pieces) = normalForm (String.join (pieces.map normalForm)) := by
  have hidem : ∀ text : String, normalForm (normalForm text) = normalForm text := by
    intro text
    have hempty := normalForm_append text ""
    rw [normalForm_ascii "" (by simp), String.append_empty, String.append_empty] at hempty
    exact hempty.symm
  induction pieces with
  | nil => rfl
  | cons piece pieces ih =>
      rw [List.map_cons, String.join_cons, String.join_cons, normalForm_append, ih,
        normalForm_append (normalForm piece) (String.join (pieces.map normalForm)), hidem]

theorem contains_congr {text other : String} (h : Equivalent text other) (separator : String) :
    contains text separator = contains other separator := by
  have hany : ∀ text : String, contains text separator =
      ((characters text).map normalForm).any (· = normalForm separator) := by
    intro text
    rw [List.any_map]
    rfl
  rw [hany, hany, characters_congr text other h]

/-- Equal strings are split into equal pieces. -/
theorem split_congr {text other : String} (h : Equivalent text other) (separator : String) :
    (split text separator).map normalForm = (split other separator).map normalForm := by
  have hsplit : ∀ text : String, (split text separator).map normalForm =
      ((((characters text).map normalForm).splitOnP (· = normalForm separator)).filter
        (· ≠ [])).map fun pieces => normalForm (String.join pieces) := by
    intro text
    rw [splitOnP_map, List.filter_map, List.map_map, split, List.map_map]
    have hfilter : (fun pieces : List String => decide (pieces ≠ [])) ∘ List.map normalForm =
        fun pieces => decide (pieces ≠ []) := by
      funext pieces
      simp
    rw [hfilter]
    exact List.map_congr_left fun pieces _ => normalForm_join pieces
  rw [hsplit, hsplit, characters_congr text other h]

end Split

/-! ## Texts with an acute accent -/

section Acute

/-- The accent as a scalar of its own, which joins the letter before it. -/
def accent : Char := Char.ofNat 0x301

/-- The letter with its accent is one scalar in normal form. -/
def composeFirst (c : Char) : List Char → List Char
  | [] => [c]
  | d :: ds => if c = 'e' ∧ d = accent then Char.ofNat 0xe9 :: ds else c :: d :: ds

def compose (cs : List Char) : List Char := cs.foldr composeFirst []

def joinFirst (c : Char) : List (List Char) → List (List Char)
  | [] => [[c]]
  | cluster :: rest =>
      if cluster.head? = some accent then (c :: cluster) :: rest else [c] :: cluster :: rest

def clusters (cs : List Char) : List (List Char) := cs.foldr joinFirst []

theorem composeFirst_of_ne {c : Char} (h : c ≠ 'e') (cs : List Char) :
    composeFirst c cs = c :: cs := by
  cases cs with
  | nil => rfl
  | cons d ds => simp [composeFirst, h]

theorem compose_cons {c : Char} (h : c ≠ 'e') (cs : List Char) :
    compose (c :: cs) = c :: compose cs :=
  composeFirst_of_ne h _

theorem foldr_composeFirst (c : Char) (cs rest : List Char) :
    (composeFirst c cs).foldr composeFirst rest =
      composeFirst c (cs.foldr composeFirst rest) := by
  cases cs with
  | nil => rfl
  | cons d ds =>
      by_cases hpair : c = 'e' ∧ d = accent
      · rw [composeFirst, if_pos hpair, hpair.1, hpair.2, List.foldr_cons, List.foldr_cons,
          composeFirst_of_ne (show accent ≠ 'e' by decide),
          composeFirst_of_ne (show Char.ofNat 0xe9 ≠ 'e' by decide)]
        rfl
      · rw [composeFirst, if_neg hpair, List.foldr_cons]

theorem foldr_compose (cs rest : List Char) :
    (compose cs).foldr composeFirst rest = cs.foldr composeFirst rest := by
  induction cs with
  | nil => rfl
  | cons c cs ih =>
      rw [compose, List.foldr_cons, foldr_composeFirst]
      exact congrArg (composeFirst c) ih

theorem compose_append (cs ds : List Char) :
    compose (compose cs ++ compose ds) = compose (cs ++ ds) := by
  rw [compose, List.foldr_append, foldr_compose, foldr_compose, compose, List.foldr_append]

theorem compose_ascii {cs : List Char} (h : ∀ c ∈ cs, c.toNat < 128) : compose cs = cs := by
  induction cs with
  | nil => rfl
  | cons c cs ih =>
      have hrest : compose cs = cs := ih fun d hd => h d (List.mem_cons_of_mem c hd)
      rw [compose, List.foldr_cons, ← compose, hrest]
      cases cs with
      | nil => rfl
      | cons d ds =>
          have hplain : d ≠ accent := by
            rintro rfl
            exact absurd (h accent (by simp)) (by decide)
          simp [composeFirst, hplain]

theorem flatten_clusters (cs : List Char) : (clusters cs).flatten = cs := by
  have hjoin : ∀ (c : Char) (l : List (List Char)), (joinFirst c l).flatten = c :: l.flatten := by
    intro c l
    cases l with
    | nil => rfl
    | cons cluster rest =>
        rw [joinFirst]
        split
        · rfl
        · rfl
  induction cs with
  | nil => rfl
  | cons c cs ih =>
      rw [clusters, List.foldr_cons, hjoin]
      exact congrArg (c :: ·) ih

/-- What is in the first cluster with a scalar depends on what follows it only. -/
theorem exists_clusters_cons (cs : List Char) :
    ∃ marks rest, ∀ c, clusters (c :: cs) = (c :: marks) :: rest := by
  cases hrest : clusters cs with
  | nil => exact ⟨[], [], fun c => congrArg (joinFirst c) hrest⟩
  | cons cluster rest =>
      by_cases hmark : cluster.head? = some accent
      · refine ⟨cluster, rest, fun c => (congrArg (joinFirst c) hrest).trans ?_⟩
        rw [joinFirst, if_pos hmark]
      · refine ⟨[], cluster :: rest, fun c => (congrArg (joinFirst c) hrest).trans ?_⟩
        rw [joinFirst, if_neg hmark]

theorem clusters_cons {c d : Char} (h : d ≠ accent) (cs : List Char) :
    clusters (c :: d :: cs) = [c] :: clusters (d :: cs) := by
  obtain ⟨marks, rest, hrest⟩ := exists_clusters_cons cs
  refine (congrArg (joinFirst c) (hrest d)).trans ?_
  rw [joinFirst, if_neg (by simpa using h), ← hrest d]

theorem mem_clusters_cons {c : Char} {cs cluster : List Char} (h : cluster ∈ clusters (c :: cs)) :
    cluster ∈ clusters cs ∨ ∃ marks, cluster = c :: marks := by
  rw [clusters, List.foldr_cons, ← clusters] at h
  cases hrest : clusters cs with
  | nil =>
      rw [hrest] at h
      exact .inr ⟨[], List.mem_singleton.mp h⟩
  | cons first rest =>
      rw [hrest, joinFirst] at h
      split at h
      · rcases List.mem_cons.mp h with rfl | hmem
        · exact .inr ⟨first, rfl⟩
        · exact .inl (List.mem_cons_of_mem _ hmem)
      · rcases List.mem_cons.mp h with rfl | hmem
        · exact .inr ⟨[], rfl⟩
        · exact .inl hmem

theorem head?_compose_eq_accent (cs : List Char) :
    (compose cs).head? = some accent ↔ cs.head? = some accent := by
  cases cs with
  | nil => rfl
  | cons c cs =>
      rw [compose, List.foldr_cons, ← compose]
      cases compose cs with
      | nil => rfl
      | cons d ds =>
          by_cases hpair : c = 'e' ∧ d = accent
          · rw [composeFirst, if_pos hpair, hpair.1, List.head?_cons, List.head?_cons]
            decide
          · rw [composeFirst, if_neg hpair]
            rfl

theorem map_compose_clusters (cs : List Char) :
    (clusters cs).map compose = clusters (compose cs) := by
  induction cs with
  | nil => rfl
  | cons c cs ih =>
      have hclusters : clusters (c :: cs) = joinFirst c (clusters cs) := rfl
      have hcompose : compose (c :: cs) = composeFirst c (compose cs) := rfl
      rw [hclusters, hcompose]
      cases hcs : compose cs with
      | nil =>
          rw [hcs] at ih
          rw [List.map_eq_nil_iff.mp ih]
          rfl
      | cons d ds =>
          obtain ⟨marks, rest, hrest⟩ := exists_clusters_cons ds
          rw [hcs, hrest d, List.map_eq_cons_iff] at ih
          obtain ⟨cluster, others, hcs', hfirst, hothers⟩ := ih
          have hmark : cluster.head? = some accent ↔ d = accent := by
            rw [← head?_compose_eq_accent, hfirst]
            simp
          have hjoined : compose (c :: cluster) = composeFirst c (d :: marks) :=
            congrArg (composeFirst c) hfirst
          rw [hcs', joinFirst]
          by_cases hd : d = accent
          · rw [if_pos (hmark.mpr hd), List.map_cons, hjoined, hothers]
            by_cases hc : c = 'e'
            · rw [composeFirst, if_pos ⟨hc, hd⟩, composeFirst, if_pos ⟨hc, hd⟩, hrest]
            · rw [composeFirst_of_ne hc, composeFirst_of_ne hc]
              refine Eq.trans ?_ (congrArg (joinFirst c) (hrest d)).symm
              rw [joinFirst, if_pos (by simp [hd])]
          · rw [if_neg (mt hmark.mp hd), List.map_cons, List.map_cons, hfirst, hothers,
              composeFirst, if_neg (fun h => hd h.2), clusters_cons hd, hrest d]
            rfl

/-- Right for texts of ASCII and of that letter, with its accent in either form. -/
@[reducible] def acute : Unicode where
  normalForm text := String.ofList (compose text.toList)
  characters text := (clusters text.toList).map String.ofList
  normalForm_append text other := by
    rw [String.toList_append, String.toList_append, String.toList_ofList, String.toList_ofList,
      compose_append]
  characters_congr text other h := by
    have hsame : compose text.toList = compose other.toList := String.ofList_injective h
    have hmap : ∀ text : String, ((clusters text.toList).map String.ofList).map
        (fun cluster => String.ofList (compose cluster.toList)) =
          (clusters (compose text.toList)).map String.ofList := by
      intro text
      rw [← map_compose_clusters, List.map_map, List.map_map]
      exact List.map_congr_left fun cluster _ => by simp
    rw [hmap, hmap, hsame]
  normalForm_ascii text h := by
    rw [compose_ascii h, String.ofList_toList]
  normalForm_blank text := by
    rw [toList_blank, compose_cons (by decide)]
    exact String.toList_injective (by simp)
  join_characters text := by
    apply String.toList_injective
    rw [String.toList_join, List.flatMap_map]
    simpa [List.flatMap_def, Function.comp_def] using flatten_clusters text.toList
  characters_cons c d cs _ hd := by
    have hplain : d ≠ accent := by
      rintro rfl
      exact absurd hd.2 (by decide)
    rw [String.toList_ofList, String.toList_ofList, clusters_cons hplain, List.map_cons]
  characters_blank text character h := by
    rw [toList_blank, List.mem_map] at h
    obtain ⟨cluster, hmem, rfl⟩ := h
    rcases mem_clusters_cons hmem with hmem | ⟨marks, rfl⟩
    · exact .inl (List.mem_map_of_mem hmem)
    · exact .inr ⟨String.ofList marks, String.toList_injective (by simp)⟩

end Acute

end Unicode
