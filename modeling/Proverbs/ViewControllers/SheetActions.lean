import Proverbs.Core.Transition
import Proverbs.ViewControllers.ActionSheetViewController

/-! # What a sheet shows and does

The tag of a button is a place among the items, and sorting moves items. It moves them at
the first appearance only, and no item is added once the view is loaded, so every button
keeps its item. The buttons are enabled by an appearance and disabled by a push; that is
what lets an action run at most once for each appearance.
-/

namespace Proverbs

variable {α : Type}

namespace ActionSheetViewController

/-- What holds of a sheet that has appeared `appearances` times. -/
structure Laid (title : Option String) (appearances : Nat) (s : ActionSheetViewController α) :
    Prop where
  title : s.sheetTitle = title
  views : s.elementsViews.map label =
    (List.replicate appearances (newViews s.sheetTitle s.actionItems)).flatten.map label
  sorted : 0 < appearances → s.isViewLoaded = true ∧ sortItems s.actionItems = s.actionItems
  acts : s.enabled.toNat + s.appearing + s.disappearing.length + s.performed.length ≤ appearances
  items : ∀ item ∈ s.disappearing ++ s.performed, item ∈ s.actionItems

/-- The items that are added before the sheet is presented. -/
def added : List (SheetEvent α) → List (ActionSheetItem α)
  | [] => []
  | .present :: _ => []
  | .addItem item :: events => item :: added events
  | _ :: events => added events

/-- How often the sheet appears after it has been presented. -/
def appearances : List (SheetEvent α) → Nat
  | [] => 0
  | .present :: events => events.countP SheetEvent.appears
  | _ :: events => appearances events

section Runs

variable {title : Option String} {s s' : ActionSheetViewController α} {n : Nat}
  {event : SheetEvent α} {events : List (SheetEvent α)}

theorem Laid.disabled (h : Laid title n s) (disable : Bool) :
    (s.disableAllButtons disable).elementsViews.map label =
      (List.replicate n (newViews s.sheetTitle s.actionItems)).flatten.map label :=
  (label_disableAllButtons s disable).trans h.views

/-- A push that is accepted uses up the appearance that enabled the buttons. -/
theorem Laid.touched (h : Laid title n s) (view : Nat) :
    Laid title n (s.touched view) := by
  unfold ActionSheetViewController.touched
  split
  · exact h
  · rename_i element helement
    split
    · rename_i hpushed
      unfold buttonPushed
      split
      · exact h
      · rename_i item hitem
        have henabled : s.enabled = true := by
          rw [Bool.and_eq_true] at hpushed
          exact List.any_eq_true.mpr ⟨element, List.mem_of_getElem? helement, hpushed.2⟩
        have hthere : item ∈ s.actionItems := by
          rw [Bool.and_eq_true] at hpushed
          rw [getItem, if_pos hpushed.1] at hitem
          exact List.mem_of_getElem? hitem
        refine ⟨h.title, h.disabled true, h.sorted, ?_, fun other hmem => ?_⟩
        · have hacts := h.acts
          have hdisabled := enabled_disableAllButtons s
          change (s.disableAllButtons true).enabled.toNat + s.appearing +
            (s.disappearing ++ [item]).length + s.performed.length ≤ n
          rw [hdisabled, List.length_append, List.length_singleton, Bool.toNat_false]
          rw [henabled, Bool.toNat_true] at hacts
          omega
        · have hmem : other ∈ (s.disappearing ++ [item]) ++ s.performed := hmem
          simp only [List.mem_append, List.mem_singleton] at hmem
          rcases hmem with (hmem | rfl) | hmem
          · exact h.items other (List.mem_append_left _ hmem)
          · exact hthere
          · exact h.items other (List.mem_append_right _ hmem)
    · exact h

theorem Laid.appeared (h : Laid title n s) (hloaded : s.isViewLoaded = true)
    {views : List SheetElement}
    (hviews : views.map label = (s.elementsViews ++
      newViews s.sheetTitle (sortItems s.actionItems)).map label)
    (hdisabled : views.any SheetElement.isUserInteractionEnabled = false) :
    Laid title (n + 1) (s.appeared views) where
  title := h.title
  views := by
    have hsame : List.replicate n (newViews s.sheetTitle s.actionItems) =
        List.replicate n (newViews s.sheetTitle (sortItems s.actionItems)) := by
      cases n with
      | zero => rfl
      | succ n => rw [(h.sorted (Nat.succ_pos n)).2]
    change views.map label = _
    rw [hviews, List.map_append, h.views, hsame, List.replicate_succ', List.flatten_append,
      List.map_append]
    simp [ActionSheetViewController.appeared]
  sorted := fun _ => ⟨hloaded, sortItems_sortItems s.actionItems⟩
  acts := by
    have hacts := h.acts
    change (views.any SheetElement.isUserInteractionEnabled).toNat + (s.appearing + 1) +
      s.disappearing.length + s.performed.length ≤ n + 1
    rw [hdisabled, Bool.toNat_false]
    omega
  items := fun item hmem => mem_sortItems.mpr (h.items item hmem)

end Runs

end ActionSheetViewController

end Proverbs
