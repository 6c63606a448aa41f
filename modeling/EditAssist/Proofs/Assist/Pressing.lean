import EditAssist.Assist.Keys
import EditAssist.Proofs.Assist.Opening

/-! Every key has an answer. `safe_of_inBounds` says so for any assistant and any overlay, also one
that was made for another text: whatever a key does happens within the text as it stands, in
groups that it closes again. -/
namespace EditAssist

open Text

namespace Assisting

open Document (Undoable Edited Typed Attempted PulledLeft)

variable {α : Type} {workspace : Workspace}

theorem acceptMenu_yields (hBounds : workspace.document.InBounds) (index : Nat) :
    Yields (acceptMenu index) workspace fun done after =>
      Attempted workspace.document done after.document ∧ after.assistant.overlay = .hidden := by
  simp only [acceptMenu, yields_bind, yields_assistant, yields_setOverlay]
  split
  next menu hMenu =>
    rw [yields_edit]
    exact (Editing.acceptMenu_yields hBounds menu index).mono fun _ _ h => ⟨h, rfl⟩
  next => exact yields_pure.mpr ⟨.refused hBounds, rfl⟩

/-- The first row of a menu gives the trigger back that the menu held. -/
theorem acceptMenu_zero_yields (hBounds : workspace.document.InBounds) {menu : Menu}
    (hMenu : workspace.assistant.overlay = .menu menu) (hTrigger : menu.HoldsTrigger) :
    Yields (acceptMenu 0) workspace fun _ after =>
      Typed [menu.trigger.char] workspace.document after.document ∧
        Edited 1 workspace.document after.document ∧ after.assistant.overlay = .hidden := by
  simp only [acceptMenu, yields_bind, yields_assistant, yields_setOverlay, hMenu, yields_edit]
  apply Yields.mono (Editing.acceptMenu_zero_yields hBounds hTrigger)
  intro _ edited hEdited
  exact ⟨hEdited.1, hEdited.2, rfl⟩

theorem acceptHint_yields (hBounds : workspace.document.InBounds) (key : AcceptKey) :
    Yields (acceptHint key) workspace fun done after =>
      Attempted workspace.document done after.document := by
  have hRefused : Attempted workspace.document false workspace.document := .refused hBounds
  simp only [acceptHint, yields_bind, yields_assistant, yields_setOverlay]
  split
  next hints hHints =>
    split
    · exact yields_edit.mpr
        (Editing.acceptHint_yields hBounds hints key workspace.assistant.tabWidth_pos)
    · exact yields_pure.mpr hRefused
  next => exact yields_pure.mpr hRefused

/-- If no hint was inserted, what comes next starts from the document as it was. -/
theorem acceptHint_or_yields {key : AcceptKey} {next : Bool → Assisting α}
    {post : α → Workspace → Prop} (hBounds : workspace.document.InBounds)
    (hDone : ∀ after, Edited 1 workspace.document after.document →
      Yields (next true) after post)
    (hElse : ∀ after, after.document = workspace.document → Yields (next false) after post) :
    Yields (acceptHint key) workspace fun done after => Yields (next done) after post := by
  apply Yields.mono (acceptHint_yields hBounds key)
  intro done after hAttempted
  cases done with
  | true => exact hDone after hAttempted.edited
  | false => exact hElse after (hAttempted.still rfl)

theorem pressTab_yields (hBounds : workspace.document.InBounds) (key : AcceptKey)
    (shift : Shift) :
    Yields (pressTab key shift) workspace fun _ after =>
      Edited 1 workspace.document after.document := by
  simp only [pressTab, yields_bind, yields_assistant]
  apply acceptHint_or_yields hBounds
  · intro after hEdited
    exact yields_pure.mpr hEdited
  · intro after hStill
    rw [← hStill] at hBounds ⊢
    exact yields_bind.mpr (yields_edit.mpr
      ((Editing.shiftLines_yields hBounds _ shift).mono fun _ _ h => yields_pure.mpr h))

theorem pickHint_yields (hBounds : workspace.document.InBounds) (direction : Direction) :
    Yields (pickHint direction) workspace fun _ after =>
      Edited 1 workspace.document after.document := by
  have hStill : Edited 1 workspace.document workspace.document := .refl 1 hBounds
  simp only [pickHint, yields_bind, yields_assistant]
  split
  · exact yields_bind.mpr (yields_setOverlay.mpr (yields_pure.mpr hStill))
  · exact yields_pure.mpr hStill

/-- A brace that closes nothing is typed where the caret is. -/
theorem typeBrace_places (hBounds : workspace.document.InBounds) :
    Yields typeBrace workspace fun outcome after =>
      outcome = .handled ∧
      (Typed ['\x7d'] workspace.document after.document ∨ ∃ above lead,
        PulledLeft workspace.assistant.tabWidth above lead workspace.document after.document) ∧
      Undoable 1 workspace.document after.document ∧ after.document ≠ workspace.document := by
  simp only [typeBrace, yields_bind, yields_setOverlay, yields_assistant, yields_edit]
  apply Yields.mono (Editing.closeBrace_pulls hBounds _)
  rintro done edited (⟨rfl, rfl⟩ | ⟨rfl, hChanged, hUndoable, hPulled⟩)
  · obtain ⟨typed, hInsert, hTyped, hEdited, hChanged⟩ := Document.exists_typed ['\x7d'] hBounds
    refine yields_bind.mpr (yields_edit.mpr (Editing.yields_act hInsert (yields_pure.mpr ?_)))
    exact ⟨rfl, .inl hTyped, hEdited.undoable, hChanged (List.cons_ne_nil _ _)⟩
  · exact yields_pure.mpr ⟨rfl, .inr hPulled, hUndoable, hChanged⟩

theorem typeBrace_yields (hBounds : workspace.document.InBounds) :
    Yields typeBrace workspace fun _ after => Edited 1 workspace.document after.document := by
  apply Yields.mono (typeBrace_places hBounds)
  rintro _ after ⟨-, hTyped | ⟨above, lead, hPulled⟩, hUndoable, -⟩
  · exact ⟨hTyped.inBounds hBounds, hUndoable⟩
  · exact ⟨hPulled.inBounds, hUndoable⟩

theorem typeChar_yields (hBounds : workspace.document.InBounds) (source : SymbolSource)
    (c : Char) :
    Yields (typeChar source c) workspace fun _ after =>
      Edited 1 workspace.document after.document ∧
        Typed [c] workspace.document after.document ∧
          after.assistant.overlay.menu? = workspace.assistant.overlay.menu? := by
  obtain ⟨edited, hInsert, hTyped, hEdited, -⟩ := Document.exists_typed [c] hBounds
  have hAfter : ({ workspace with document := edited } : Workspace).document.InBounds :=
    hEdited.inBounds
  simp only [typeChar, yields_bind, yields_edit, yields_pure]
  apply Editing.yields_act hInsert
  apply Yields.mono (refreshHints_yields hAfter source)
  intro _ after hRefreshed
  obtain rfl : after.document = edited := hRefreshed.1
  exact ⟨hEdited, hTyped, hRefreshed.2⟩

/-- A character other than a closing brace is typed, or a menu that it opens holds it back. -/
theorem pressPlain_char_yields (hBounds : workspace.document.InBounds) (source : SymbolSource)
    {c : Char} (hBrace : c ≠ '\x7d') :
    Yields (pressPlain source (.char c)) workspace fun _ after =>
      Edited (workspace.document.deletions + 1) workspace.document after.document ∧
        (workspace.assistant.overlay.menu? = none → Echoed c workspace after) := by
  simp only [pressPlain, if_neg hBrace, yields_bind, yields_assistant]
  split
  next trigger hTrigger =>
    obtain ⟨hChar, -⟩ := Option.filter_eq_some_iff.mp hTrigger
    rw [Trigger.ofChar?_eq_some_iff.mp hChar, yields_bind]
    apply Yields.mono (openMenu_yields hBounds source trigger)
    intro _ after hOpened
    exact yields_pure.mpr ⟨hOpened.1, fun _ => hOpened.2⟩
  next =>
    apply Yields.mono (typeChar_yields hBounds source c)
    intro _ after hChar
    obtain ⟨hEdited, hTyped, hMenu⟩ := hChar
    refine ⟨hEdited.mono (Nat.le_add_left _ _), fun hNone => ?_⟩
    rw [hNone] at hMenu
    have hHeld : [c] ++ after.assistant.overlay.held = [c] := by
      rw [Overlay.held_of_menu?_eq_none hMenu, List.append_nil]
    exact ⟨⟨[c], hTyped, hHeld⟩, Overlay.sound_of_menu?_eq_none hMenu⟩

/-- Without a menu a key takes one undo back, and one more for text that it deletes first. -/
theorem pressPlain_yields (hBounds : workspace.document.InBounds) (source : SymbolSource)
    (key : Key) :
    Yields (pressPlain source key) workspace fun _ after =>
      Edited (workspace.document.deletions + 1) workspace.document after.document := by
  have hOne {before after : Document} (hEdited : Edited 1 before after) :
      Edited (before.deletions + 1) before after := hEdited.mono (Nat.le_add_left _ _)
  have hHide : Yields (setOverlay .hidden) workspace fun _ after =>
      Yields (pure Outcome.unhandled) after fun _ last =>
        Edited (workspace.document.deletions + 1) workspace.document last.document :=
    yields_setOverlay.mpr (yields_pure.mpr (.refl _ hBounds))
  cases key with
  | enter =>
      rw [pressPlain, yields_bind]
      apply acceptHint_or_yields hBounds
      · intro after hEdited
        exact yields_pure.mpr (hOne hEdited)
      · intro after hStill
        rw [← hStill] at hBounds ⊢
        exact yields_bind.mpr (yields_edit.mpr
          ((Editing.breakLine_yields hBounds).mono fun _ _ h => yields_pure.mpr (hOne h.edited)))
  | tab => exact (pressTab_yields hBounds .tab .indent).mono fun _ _ => hOne
  | backTab => exact (pressTab_yields hBounds .backTab .outdent).mono fun _ _ => hOne
  | up => exact (pickHint_yields hBounds .up).mono fun _ _ => hOne
  | down => exact (pickHint_yields hBounds .down).mono fun _ _ => hOne
  | escape => exact yields_bind.mpr hHide
  | backspace => exact yields_bind.mpr hHide
  | char c =>
      by_cases hBrace : c = '\x7d'
      · rw [pressPlain, if_pos hBrace]
        exact (typeBrace_yields hBounds).mono fun _ _ => hOne
      · exact (pressPlain_char_yields hBounds source hBrace).mono fun _ _ h => h.1

/-- A key that does not belong to the menu puts the trigger back and is pressed again. What that
costs hangs on what the trigger leaves selected. -/
theorem pressInMenu_yields (hBounds : workspace.document.InBounds) (source : SymbolSource)
    (menu : Menu) (key : Key) {limit : Nat}
    (hFirst : Yields (acceptMenu 0) workspace fun _ after =>
      Edited 1 workspace.document after.document ∧ after.document.deletions ≤ limit) :
    Yields (pressInMenu source menu key) workspace fun _ after =>
      Edited (limit + 2) workspace.document after.document := by
  have hStill : Edited (limit + 2) workspace.document workspace.document := .refl _ hBounds
  have hChosen (index : Nat) : Yields (acceptMenu index) workspace fun _ after =>
      Edited (limit + 2) workspace.document after.document :=
    (acceptMenu_yields hBounds index).mono fun _ _ h => h.1.edited.mono (Nat.le_add_left 1 _)
  have hAgain {after : Workspace} (hEdited : Edited 1 workspace.document after.document)
      (hLimit : after.document.deletions ≤ limit) :
      Yields (pressPlain source key) after fun _ last =>
        Edited (limit + 2) workspace.document last.document := by
    apply Yields.mono (pressPlain_yields hEdited.inBounds source key)
    intro _ last hLast
    exact (hEdited.trans hLast).mono (by omega)
  cases key <;> simp only [pressInMenu, yields_bind, yields_setOverlay, yields_pure]
  case up | down | escape | backspace => exact hStill
  case enter | tab => exact hChosen menu.active
  case backTab => exact hFirst.mono fun _ _ h => hAgain h.1 h.2
  case char c =>
    apply Yields.mono hFirst
    intro _ after hAccepted
    split
    · exact yields_pure.mpr (hAccepted.1.mono (Nat.le_add_left 1 _))
    · exact hAgain hAccepted.1 hAccepted.2

theorem press_yields (hBounds : workspace.document.InBounds) (source : SymbolSource) (key : Key)
    {limit : Nat} (hHere : workspace.document.deletions ≤ limit + 1)
    (hFirst : ∀ menu, workspace.assistant.overlay = .menu menu →
      Yields (acceptMenu 0) workspace fun _ after =>
        Edited 1 workspace.document after.document ∧ after.document.deletions ≤ limit) :
    Yields (press source key) workspace fun _ after =>
      Edited (limit + 2) workspace.document after.document := by
  simp only [press, yields_bind, yields_assistant]
  split
  next menu hMenu => exact pressInMenu_yields hBounds source menu key (hFirst menu hMenu)
  next =>
    apply Yields.mono (pressPlain_yields hBounds source key)
    intro _ after hEdited
    exact hEdited.mono (by omega)

/-- The run gives an answer. After it the selection lies within the text, and as many groups are
open as before. -/
def Safe (actions : Assisting α) (workspace : Workspace) : Prop :=
  ∃ answer after, actions.run workspace = (.ok answer, after) ∧
    after.document.InBounds ∧ after.document.openGroups = workspace.document.openGroups

theorem Safe.of_yields {actions : Assisting α} (limit : Nat)
    (hYields : Yields actions workspace fun _ after =>
      Edited limit workspace.document after.document) : Safe actions workspace := by
  obtain ⟨answer, after, hRun, hEdited⟩ := hYields
  exact ⟨answer, after, hRun, hEdited.inBounds, hEdited.undoable.openGroups_eq⟩

/-- No key fails, whatever is shown, and neither does a choice from a menu or a look for hints.
Nothing is asked of the overlay: rows of a menu are only read where they exist, and every place
in the text is computed from the text as it stands. Nothing is asked of the tab width either: it is
taken to be at least one before anything is divided by it, and both ends of a selection are within
the text before a piece of the text is cut out between them. -/
theorem safe_of_inBounds (source : SymbolSource) {workspace : Workspace}
    (hBounds : workspace.document.InBounds) :
    (∀ key, Safe (press source key) workspace) ∧
      (∀ index, Safe (acceptMenu index) workspace) ∧ Safe (refreshHints source) workspace := by
  have hAny : Yields (acceptMenu 0) workspace fun _ after =>
      Edited 1 workspace.document after.document ∧ after.document.deletions ≤ 1 :=
    (acceptMenu_yields hBounds 0).mono fun _ after h =>
      ⟨h.1.edited, after.document.deletions_le_one⟩
  refine ⟨fun key => ?_, fun index => ?_, ?_⟩
  · refine Safe.of_yields 3 (press_yields hBounds source key ?_ fun _ _ => hAny)
    exact Nat.le_trans workspace.document.deletions_le_one (Nat.le_succ 1)
  · exact Safe.of_yields 1 ((acceptMenu_yields hBounds index).mono fun _ _ h => h.1.edited)
  · refine Safe.of_yields 0 ((refreshHints_yields hBounds source).mono ?_)
    rintro _ after ⟨hDocument, -⟩
    rw [hDocument]
    exact .refl 0 hBounds

/-- Hints that were made for a longer text, a selection over a line break, and no tab width. -/
theorem safe_under_stale_hints :
    let workspace : Workspace :=
      { document := { text := [' ', 'a', '\r', '\n', ' '], selection := ⟨5, 1⟩ }
        assistant :=
          { file := [], language := .spin, preferences := { tabWidth := 0 }
            overlay := .hints (.ofEntries [['a', 'b', 'c']] ⟨7, 9⟩) } }
    workspace.document.InBounds ∧
      ((∀ key, Safe (press (fun _ => []) key) workspace) ∧
        (∀ index, Safe (acceptMenu index) workspace) ∧
          Safe (refreshHints fun _ => []) workspace) :=
  ⟨⟨by decide, by decide⟩, safe_of_inBounds (fun _ => []) ⟨by decide, by decide⟩⟩

end Assisting

end EditAssist
