import Proverbs.Core.OrderedList
import Proverbs.Managers.AlphabeticalOrder

/-! # Leading articles

The catalogue writes an article in front of a text in parentheses, and the sort key is
what follows the last closing parenthesis. So the article is not compared; but the blank
after it is left in front of the key, and texts without an article have no such blank.
-/

namespace Proverbs.ProverbsManager

open Unicode (normalForm characters contains split Equivalent Less)

/-! ## Rewritten entries -/

inductive Article where
  | a
  | an
  | the
deriving DecidableEq, Repr

def Article.leading : Article → String
  | a => "(A) "
  | an => "(An) "
  | the => "(The) "

/-- A choice of proverbs of a list that are rewritten with an article. A favourite that
is kept remotely has its text in the catalogue, which is then another one. -/
structure Rewriting (storage storage' : LocalStorage RProverb) (proverbs : List Proverb) where
  rewrite : Proverb → Proverb
  article : Proverb → Option Article
  proverbSection_rewrite : ∀ p ∈ proverbs, (rewrite p).proverbSection = p.proverbSection
  text_rewrite : ∀ p ∈ proverbs,
    (rewrite p).text storage' = ((article p).elim "" Article.leading) ++ p.text storage

section Rewritten

variable [Unicode]

/-- A blank in front of the one text does not change how the two compare. -/
def BlankIsHarmless (text other : String) : Prop :=
  (Less text other → Less (" " ++ text) other) ∧ (Less other text → Less other (" " ++ text))

instance (text other : String) : Decidable (BlankIsHarmless text other) :=
  inferInstanceAs (Decidable (_ ∧ _))

/-! ## What is left of the text -/

section Keys

theorem sortKey_of_not_contains {text : String} (h : ¬ contains text ")") :
    sortKey text = some text := by
  rw [sortKey, if_neg h]

theorem sortKey_of_leading {text : String} {lead rest : List String}
    (htext : characters text = lead ++ ")" :: rest)
    (hlead : ∀ character ∈ lead, ¬ Equivalent character ")")
    (hrest : ∀ character ∈ rest, ¬ Equivalent character ")") (hne : rest ≠ []) :
    sortKey text = some (String.join rest) := by
  have hclosing : contains text ")" = true := by
    rw [contains, htext]
    exact List.any_eq_true.mpr ⟨")", by simp, by simp⟩
  have hsplit : (characters text).splitOnP (fun c => Equivalent c ")") = [lead, rest] := by
    rw [htext, List.splitOnP_append_cons_of_forall_mem (by simpa using hlead) _
      (by simp), List.splitOnP_eq_singleton (by simpa using hrest)]
  rw [sortKey, if_pos hclosing, split, hsplit]
  by_cases hempty : lead = []
  · simp [hempty, hne]
  · simp [hempty, hne]

theorem characters_leading (article : Article) (text : String) :
    ∃ lead, (∀ character ∈ lead, ¬ Equivalent character ")") ∧
      characters (article.leading ++ text) = lead ++ ")" :: characters (" " ++ text) := by
  have hparts : ∃ cs : List Char, (∀ c ∈ cs, Unicode.Printable c ∧ c ≠ ')') ∧
      article.leading ++ text = String.ofList ((cs ++ [')']) ++ ' ' :: text.toList) := by
    cases article with
    | a =>
        exact ⟨['(', 'A'], by simp [Unicode.Printable],
          String.toList_injective (by simp [Article.leading])⟩
    | an =>
        exact ⟨['(', 'A', 'n'], by simp [Unicode.Printable],
          String.toList_injective (by simp [Article.leading])⟩
    | the =>
        exact ⟨['(', 'T', 'h', 'e'], by simp [Unicode.Printable],
          String.toList_injective (by simp [Article.leading])⟩
  obtain ⟨cs, hcs, htext⟩ := hparts
  have hprintable : ∀ c ∈ cs ++ [')'], Unicode.Printable c := by
    intro c hmem
    rcases List.mem_append.mp hmem with hlead | hclosing
    · exact (hcs c hlead).1
    · rw [List.mem_singleton.mp hclosing]
      decide
  have hblank : String.ofList (' ' :: text.toList) = " " ++ text :=
    String.toList_injective (by simp)
  refine ⟨cs.map fun c => String.ofList [c], ?_, ?_⟩
  · intro character hmem
    obtain ⟨c, hc, rfl⟩ := List.mem_map.mp hmem
    have hascii : c.toNat < 128 := Nat.lt_succ_of_lt (hcs c hc).1.2
    exact Unicode.not_equivalent_of_ne hascii (by decide) (hcs c hc).2
  · rw [htext, Unicode.characters_append hprintable (by decide), hblank, List.map_append,
      List.append_assoc]
    rfl

/-- The closing parenthesis of an article goes, and the blank after it stays. -/
theorem sortKey_leading (article : Article) {text : String} (h : ¬ contains text ")") :
    sortKey (article.leading ++ text) = some (" " ++ text) := by
  obtain ⟨lead, hlead, htext⟩ := characters_leading article text
  have hrest : ∀ character ∈ characters (" " ++ text), ¬ Equivalent character ")" := by
    intro character hmem
    rcases Unicode.characters_blank text character hmem with hold | ⟨marks, rfl⟩
    · exact fun hclosing => h (List.any_eq_true.mpr ⟨character, hold, by simpa using hclosing⟩)
    · exact Unicode.not_equivalent_blank (by decide) (by decide) marks
  have hne : characters (" " ++ text) ≠ [] := by
    intro hnil
    have hjoin := Unicode.join_characters (" " ++ text)
    rw [hnil] at hjoin
    exact absurd (congrArg String.toList hjoin) (by simp)
  rw [sortKey_of_leading htext hlead hrest hne, Unicode.join_characters]

/-- Where the other text starts with a character above the blank, as all letters are, the
text with the article has to be the smaller one already. -/
theorem blankIsHarmless_iff {text other : String} {first : Char} {rest : List Char}
    (hother : (normalForm other).toList = first :: rest) (hfirst : ' ' < first)
    (hne : ¬ Equivalent text other) : BlankIsHarmless text other ↔ Less text other := by
  have hblank : Less (" " ++ text) other := by
    rw [Less, Unicode.normalForm_blank, String.lt_iff_toList_lt, Unicode.toList_blank, hother]
    exact List.Lex.rel hfirst
  constructor
  · intro hharmless
    rcases lt_or_gt_of_ne hne with hlt | hlt
    · exact hlt
    · exact absurd (hharmless.2 hlt) (lt_asymm hblank)
  · intro hlt
    exact ⟨fun _ => hblank, fun hback => absurd hback (lt_asymm hlt)⟩

end Keys

/-! ## The two orders -/

section Orders

variable {storage storage' : LocalStorage RProverb} {proverbs : List Proverb}
  (rewriting : Rewriting storage storage' proverbs)

namespace Rewriting

omit [Unicode] in
def key (p : Proverb) : String :=
  (rewriting.article p).elim "" (fun _ => " ") ++ p.text storage

theorem sortKey_rewrite {p : Proverb} (hmem : p ∈ proverbs) (h : ¬ contains (p.text storage) ")") :
    sortKey ((rewriting.rewrite p).text storage') = some (rewriting.key p) := by
  rw [rewriting.text_rewrite p hmem, key]
  cases rewriting.article p with
  | none => simpa using sortKey_of_not_contains h
  | some article => exact sortKey_leading article h

omit [Unicode] in
theorem key_of_none {p : Proverb} (h : rewriting.article p = none) :
    rewriting.key p = p.text storage := by
  simp [key, h]

omit [Unicode] in
theorem key_of_some {p : Proverb} {article : Article}
    (h : rewriting.article p = some article) : rewriting.key p = " " ++ p.text storage := by
  simp [key, h]

/-- Only a text with an article can change its place, and only relative to one without. -/
theorem key_less_iff :
    (∀ p ∈ proverbs, ∀ q ∈ proverbs, Less (p.text storage) (q.text storage) →
        Less (rewriting.key p) (rewriting.key q)) ↔
      ∀ p ∈ proverbs, ∀ q ∈ proverbs, rewriting.article p ≠ none → rewriting.article q = none →
        BlankIsHarmless (p.text storage) (q.text storage) := by
  constructor
  · intro hkeys p hp q hq harticle hplain
    obtain ⟨article, harticle⟩ := Option.ne_none_iff_exists'.mp harticle
    constructor
    · intro hlt
      have hkept := hkeys p hp q hq hlt
      rwa [rewriting.key_of_some harticle, rewriting.key_of_none hplain] at hkept
    · intro hlt
      have hkept := hkeys q hq p hp hlt
      rwa [rewriting.key_of_some harticle, rewriting.key_of_none hplain] at hkept
  · intro hblank p hp q hq hlt
    cases hpArticle : rewriting.article p with
    | none =>
        rw [rewriting.key_of_none hpArticle]
        cases hqArticle : rewriting.article q with
        | none =>
            rw [rewriting.key_of_none hqArticle]
            exact hlt
        | some article =>
            rw [rewriting.key_of_some hqArticle]
            exact (hblank q hq p hp (by simp [hqArticle]) hpArticle).2 hlt
    | some article =>
        rw [rewriting.key_of_some hpArticle]
        cases hqArticle : rewriting.article q with
        | none =>
            rw [rewriting.key_of_none hqArticle]
            exact (hblank p hp q hq (by simp [hpArticle]) hqArticle).1 hlt
        | some article' =>
            rw [rewriting.key_of_some hqArticle, Unicode.blank_less_blank]
            exact hlt

/-- While the keys keep the order of distinct texts they are distinct. -/
theorem nodup_map_key (hdistinct : (proverbs.map fun p => normalForm (p.text storage)).Nodup)
    (hkeys : ∀ p ∈ proverbs, ∀ q ∈ proverbs, Less (p.text storage) (q.text storage) →
      Less (rewriting.key p) (rewriting.key q)) :
    (proverbs.map fun p => normalForm (rewriting.key p)).Nodup := by
  refine (List.Nodup.of_map _ hdistinct).map_on fun p hp q hq hsame => ?_
  rcases lt_trichotomy (normalForm (p.text storage)) (normalForm (q.text storage)) with
    hlt | heq | hlt
  · exact absurd hsame (hkeys p hp q hq hlt).ne
  · exact List.inj_on_of_nodup_map hdistinct hp hq heq
  · exact absurd hsame (hkeys q hq p hp hlt).ne'

end Rewriting

end Orders

/-! ## Two sorted lists -/

section Sorting

variable {storage storage' : LocalStorage RProverb} {proverbs : List Proverb}

theorem nodup_filedUnder_of_text {α : Type} {f : α → Proverb} {key : α → String} {l : List α}
    (hkey : ∀ x ∈ l, sortKey ((f x).text storage) = some (key x))
    (hl : (l.map fun x => normalForm (key x)).Nodup) :
    ((l.map f).map (filedUnder storage)).Nodup := by
  rw [List.map_map]
  refine (List.Nodup.of_map _ hl).map_on fun x hx y hy hsame => ?_
  have hkeys : (some (key x)).map normalForm = (some (key y)).map normalForm := by
    rw [← hkey x hx, ← hkey y hy]
    exact congrArg Prod.snd hsame
  exact List.inj_on_of_nodup_map hl hx hy (Option.some.inj hkeys)

/-- A list of proverbs of one section with distinct texts without closing parentheses is sorted
as before, some of them rewritten with an article, exactly when no blank in front of a
rewritten text changes how it compares with a text that is not rewritten. -/
theorem sortAlphabetically_rewrite_iff (rewriting : Rewriting storage storage' proverbs)
    (hsection : ∀ p ∈ proverbs, ∀ q ∈ proverbs, Equivalent p.proverbSection q.proverbSection)
    (hplain : ∀ p ∈ proverbs, ¬ contains (p.text storage) ")")
    (hdistinct : (proverbs.map fun p => normalForm (p.text storage)).Nodup) :
    sortAlphabetically storage' (proverbs.map rewriting.rewrite) =
        (sortAlphabetically storage proverbs).map rewriting.rewrite ↔
      ∀ p ∈ proverbs, ∀ q ∈ proverbs, rewriting.article p ≠ none → rewriting.article q = none →
        BlankIsHarmless (p.text storage) (q.text storage) := by
  have hkey : ∀ p ∈ proverbs, sortKey (p.text storage) = some (p.text storage) :=
    fun p hp => sortKey_of_not_contains (hplain p hp)
  have hkey' : ∀ p ∈ proverbs,
      sortKey ((rewriting.rewrite p).text storage') = some (rewriting.key p) :=
    fun p hp => rewriting.sortKey_rewrite hp (hplain p hp)
  have hplaces : (proverbs.map (filedUnder storage)).Nodup := by
    have hnodup := nodup_filedUnder_of_text (f := id) hkey hdistinct
    rwa [List.map_id] at hnodup
  have hmem : ∀ p, p ∈ sortAlphabetically storage proverbs ↔ p ∈ proverbs := fun p =>
    mem_sortAlphabetically_iff (fun p hp => by rw [hkey p hp]; rfl) hplaces
  have horders : (∀ p ∈ sortAlphabetically storage proverbs,
      ∀ q ∈ sortAlphabetically storage proverbs, Precedes storage p q →
        Precedes storage' (rewriting.rewrite p) (rewriting.rewrite q)) ↔
      ∀ p ∈ proverbs, ∀ q ∈ proverbs, Less (p.text storage) (q.text storage) →
        Less (rewriting.key p) (rewriting.key q) := by
    simp only [hmem]
    refine forall₂_congr fun p hp => forall₂_congr fun q hq => ?_
    have hsame := hsection p hp q hq
    have hsame' : normalForm (rewriting.rewrite p).proverbSection =
        normalForm (rewriting.rewrite q).proverbSection := by
      rw [rewriting.proverbSection_rewrite p hp, rewriting.proverbSection_rewrite q hq, hsame]
    rw [precedes_iff hsame (hkey p hp) (hkey q hq),
      precedes_iff hsame' (hkey' p hp) (hkey' q hq)]
  rw [eq_comm, OrderedList.map_eq_iff (pairwise_sortAlphabetically storage proverbs)
    (pairwise_sortAlphabetically storage' _) ?_, horders, rewriting.key_less_iff]
  intro hkeep p
  have hdistinct' := rewriting.nodup_map_key hdistinct (horders.mp hkeep)
  rw [mem_sortAlphabetically_iff ?_ (nodup_filedUnder_of_text hkey' hdistinct')]
  · simp only [List.mem_map, hmem]
  · intro rewritten hrewritten
    obtain ⟨p, hp, rfl⟩ := List.mem_map.mp hrewritten
    rw [hkey' p hp]
    rfl

end Sorting

end Rewritten

section Entries

attribute [local instance] Unicode.acute

def entry (identifier text : String) : Proverb := .rProverb ⟨identifier, 0, text, "", "A", false⟩

def rewriteOne (identifier : String) (article : Article) (texts : List (String × String)) :
    Rewriting ⟨none, .commit⟩ ⟨none, .commit⟩ (texts.map fun (id, text) => entry id text) where
  rewrite
    | .rProverb p =>
        if p.identifier = identifier then .rProverb { p with text := article.leading ++ p.text }
        else .rProverb p
    | p => p
  article p := if p.identifier = identifier then some article else none
  proverbSection_rewrite := by
    simp only [List.mem_map]
    rintro _ ⟨⟨id, text⟩, _, rfl⟩
    by_cases h : id = identifier
    · simp [entry, h, Proverb.proverbSection]
    · simp [entry, h, Proverb.proverbSection]
  text_rewrite := by
    simp only [List.mem_map]
    rintro _ ⟨⟨id, text⟩, _, rfl⟩
    by_cases h : id = identifier
    · simp [entry, h, Proverb.text, Proverb.identifier]
    · simp [entry, h, Proverb.text, Proverb.identifier]

theorem sortAlphabetically_rewrite_albatross :
    let texts := [("17226", "apple"), ("13174", "albatross")]
    let proverbs := [entry "17226" "apple", entry "13174" "albatross"]
    let rewriting := rewriteOne "13174" .an texts
    sortAlphabetically ⟨none, .commit⟩ (proverbs.map rewriting.rewrite) =
      (sortAlphabetically ⟨none, .commit⟩ proverbs).map rewriting.rewrite :=
  (sortAlphabetically_rewrite_iff
    (rewriteOne "13174" .an [("17226", "apple"), ("13174", "albatross")])
    (by decide) (by decide) (by decide)).mpr (by decide)

/-- Two entries of the catalogue: with its article the second one goes to the front. -/
theorem article_reorders :
    let texts := [("32375", "Against the grain."),
      ("17226", "apple a day keeps the doctor away.")]
    let proverbs := [entry "32375" "Against the grain.",
      entry "17226" "apple a day keeps the doctor away."]
    let rewriting := rewriteOne "17226" .an texts
    sortAlphabetically ⟨none, .commit⟩ (proverbs.map rewriting.rewrite) ≠
      (sortAlphabetically ⟨none, .commit⟩ proverbs).map rewriting.rewrite := by
  decide

end Entries

end Proverbs.ProverbsManager
