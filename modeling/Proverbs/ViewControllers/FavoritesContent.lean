import Proverbs.Managers.BroughtFavorites
import Proverbs.ViewControllers.BaseGroup.BaseViewController

/-! # What the favourites show

Whatever the manager hands out shows the text, the meaning and the section of a catalogue
proverb and is shared under its link, as long as the screens ask only for proverbs that
the catalogue or the manager gave them.
-/

namespace Proverbs

theorem Proverb.Shows.shareURLString {catalogue : LocalStorage RProverb} {proverb : Proverb}
    {origin : RProverb} (h : proverb.Shows catalogue origin)
    (serviceType : ContentShareServiceType) :
    ContentShareHelper.shareURLString ⟨serviceType, proverb⟩ =
      ContentShareHelper.shareURLString ⟨serviceType, .rProverb origin⟩ := by
  unfold ContentShareHelper.shareURLString
  rw [h.identifier]
  rfl

namespace App

section Given

variable {catalogue : LocalStorage RProverb} {s t : App}

def Event.proverb : Event → Option Proverb
  | .isFavorite proverb | .save proverb | .delete proverb => some proverb
  | .checkAndSaveOrDeleteFavorite proverb => some proverb
  | _ => none

/-- A screen has the proverb from the catalogue or from the manager. -/
def Given (catalogue : LocalStorage RProverb) (s : App) (proverb : Proverb) : Prop :=
  (∃ origin ∈ catalogue.objects, ∃ viewed, proverb = .rProverb { origin with viewed := viewed }) ∨
    ∃ o ∈ s.outputs, proverb ∈ o.proverbs

instance (catalogue : LocalStorage RProverb) (s : App) (proverb : Proverb) :
    Decidable (s.Given catalogue proverb) :=
  inferInstanceAs (Decidable ((∃ origin ∈ catalogue.objects, ∃ _ : Bool, _) ∨ _))

def AsksGiven (catalogue : LocalStorage RProverb) (s : App) (input : Input) : Prop :=
  ∀ proverb ∈ Event.proverb input.event, s.Given catalogue proverb

instance (catalogue : LocalStorage RProverb) (s : App) (input : Input) :
    Decidable (AsksGiven catalogue s input) :=
  inferInstanceAs (Decidable (∀ proverb ∈ Event.proverb input.event, s.Given catalogue proverb))

theorem OfCatalogue.given (h : OfCatalogue catalogue s) {proverb : Proverb}
    (hgiven : s.Given catalogue proverb) : Proverb.OfCatalogue catalogue proverb := by
  rcases hgiven with ⟨origin, hmem, viewed, rfl⟩ | ⟨o, ho, hproverb⟩
  · exact Proverb.ofCatalogue_rProverb hmem viewed
  · exact h.outputs o ho proverb hproverb

theorem OfCatalogue.step (h : OfCatalogue catalogue s) {input : Input}
    (hasked : AsksGiven catalogue s input) (hs : step s input = some t) :
    OfCatalogue catalogue t := by
  have htaken : OfCatalogue catalogue s.takeRequest :=
    ⟨h.stored, h.documents, h.calls, h.outputs⟩
  have haccount : isAccountEvent input.event = true → OfCatalogue catalogue t := by
    intro hevent
    have hstorage := localStorage_account hevent hs
    rcases effect_step hevent hs with heffect | heffect
    · exact h.brings (brings_account heffect hstorage)
    · exact htaken.brings (brings_account heffect hstorage)
  have hgiven : ∀ proverb ∈ Event.proverb input.event,
      Proverb.OfCatalogue catalogue proverb :=
    fun proverb hproverb => h.given (hasked proverb hproverb)
  obtain ⟨event, random, now⟩ := input
  cases event with
  | launch throws => exact Option.some.inj hs ▸ ofCatalogue_launch h.stored h.documents throws
  | getAll => exact Option.some.inj hs ▸ htaken.brings (brings_getAll _ h.stored)
  | isFavorite proverb =>
      exact htaken.brings (brings_isFavorite (fun _ hnone => by cases hnone) hs)
  | save proverb => exact htaken.brings (brings_save (hgiven proverb rfl) hs)
  | delete proverb => exact htaken.brings (brings_delete hs)
  | checkAndSaveOrDeleteFavorite proverb =>
      refine htaken.brings (brings_isFavorite (fun other hother => ?_) hs)
      exact List.mem_singleton.mp hother ▸ hgiven proverb rfl
  | serve index outcome => exact Option.some.inj hs ▸ h.serve index outcome
  | deliver index => exact h.deliver hs
  | realmWrites throw =>
      exact Option.some.inj hs ▸ ⟨h.stored, h.documents, h.calls, h.outputs⟩
  | _ => exact haccount rfl

end Given

/-- If what is stored at the launch comes from the catalogue, and the screens ask only for
proverbs they were given, then whatever is handed out shows a catalogue proverb and is
shared under its link, and what is stored still comes from the catalogue. -/
theorem favorites_show_catalogue {catalogue : LocalStorage RProverb} {device s : App}
    (throws : Bool) {inputs : List Input}
    (hstored : CopiesOf catalogue device.localStorage.objects)
    (hdocuments : device.firestore.OfCatalogue catalogue)
    (hasked : Transition.Along step (AsksGiven catalogue) (device.launch throws) inputs)
    (hs : Transition.run step (device.launch throws) inputs = some s) :
    (∀ o ∈ s.outputs, ∀ proverb ∈ o.proverbs, ∃ origin ∈ catalogue.objects,
      proverb.Shows catalogue origin ∧ ∀ serviceType,
        ContentShareHelper.shareURLString ⟨serviceType, proverb⟩ =
          ContentShareHelper.shareURLString ⟨serviceType, .rProverb origin⟩) ∧
      CopiesOf catalogue s.localStorage.objects ∧ s.firestore.OfCatalogue catalogue := by
  have hend : OfCatalogue catalogue s :=
    Transition.run_invariant (fun _ _ _ h hasked hs => h.step hasked hs)
      (ofCatalogue_launch hstored hdocuments throws) hasked hs
  refine ⟨fun o ho proverb hproverb => ?_, hend.stored, hend.documents⟩
  obtain ⟨origin, hmem, hshows⟩ := hend.outputs o ho proverb hproverb
  exact ⟨origin, hmem, hshows, hshows.shareURLString⟩

def copied : App :=
  { installed with
    currentUser := some "user"
    isPurchased := true
    firstLaunchFlag := true
    localStorage := ⟨some (KeyedStore.putAll [⟨"f", "1", 7, "one", "first", "A"⟩] KeyedStore.empty),
      .commit⟩ }

/-- The favourite is migrated, the other proverb is saved, and the list is asked for. -/
def migratedAndListed : List Input :=
  (List.replicate 4 [⟨.serve 0 .success, "", 0⟩, ⟨.deliver 0, "", 0⟩]).flatten ++
    [⟨.save (.rProverb ⟨"2", 0, "two", "second", "B", true⟩), "g", 8⟩,
      ⟨.serve 0 .success, "", 0⟩, ⟨.deliver 0, "", 0⟩,
      ⟨.getAll, "", 0⟩, ⟨.serve 0 .success, "", 0⟩, ⟨.deliver 0, "", 0⟩]

theorem favorites_show_catalogue_migrated :
    ∃ s, Transition.run step (copied.launch false) migratedAndListed = some s ∧
      Output.gotAll 1 (.ok [.fFavorite ⟨"f", "1", 7, "A"⟩, .fFavorite ⟨"g", "2", 8, "B"⟩]) ∈
        s.outputs ∧
      ∃ origin ∈ FFavoriteProverb.twoProverbs.objects,
        (Proverb.fFavorite ⟨"f", "1", 7, "A"⟩).Shows FFavoriteProverb.twoProverbs origin := by
  have hrun : (Transition.run step (copied.launch false) migratedAndListed).isSome := by decide
  obtain ⟨s, hs⟩ := Option.isSome_iff_exists.mp hrun
  have hstored : CopiesOf FFavoriteProverb.twoProverbs copied.localStorage.objects := by
    intro f hf
    obtain rfl := List.mem_singleton.mp hf
    exact ⟨⟨"1", 0, "one", "first", "A", false⟩, by decide, rfl, rfl, rfl, rfl⟩
  have hdocuments : copied.firestore.OfCatalogue FFavoriteProverb.twoProverbs :=
    fun _ _ hdocument => by cases hdocument
  have hlisted : Output.gotAll 1
      (.ok [.fFavorite ⟨"f", "1", 7, "A"⟩, .fFavorite ⟨"g", "2", 8, "B"⟩]) ∈ s.outputs := by
    rw [← Option.some.inj hs]
    decide
  obtain ⟨hshown, -⟩ := favorites_show_catalogue false hstored hdocuments (by decide) hs
  obtain ⟨origin, hmem, hshows, -⟩ :=
    hshown _ hlisted (.fFavorite ⟨"f", "1", 7, "A"⟩) List.mem_cons_self
  exact ⟨s, hs, hlisted, origin, hmem, hshows⟩

end App

end Proverbs
