import EditAssist.Assist.Accept
import EditAssist.Proofs.Assist.MenuRows
import EditAssist.Proofs.Document.Words
import EditAssist.Proofs.Layout.LineEdits

/-! Inserting a row of a menu or a hint succeeds wherever the selection lies within the text, and
is one undo. -/
namespace EditAssist

open Text

namespace Menu

variable {text : List Char} {range : Range}

/-- What is selected once a text was inserted at `start`: the arguments of the call in it, or
nothing behind it. -/
def selectionIn (text : List Char) (start : Nat) : Selection :=
  match arguments? text with
  | none => .caret (start + text.length)
  | some range => ⟨start + range.start, start + range.stop⟩

theorem selectionIn_of_none (hPlain : arguments? text = none) (start : Nat) :
    selectionIn text start = .caret (start + text.length) := by
  rw [selectionIn, hPlain]

theorem selectionIn_of_some (hCall : arguments? text = some range) (start : Nat) :
    selectionIn text start = ⟨start + range.start, start + range.stop⟩ := by
  rw [selectionIn, hCall]

end Menu

/-- `text` was inserted in the place of the selection as one undo, and of it the arguments of a call
are selected. -/
structure Document.Placed (text : List Char) (before after : Document) : Prop where
  edited : Edited 1 before after
  text_eq : after.text =
    before.text.take before.selection.start ++ text ++ before.text.drop before.selection.stop
  selection_eq : after.selection = Menu.selectionIn text before.selection.start

namespace Editing

open Document (Edited Attempted Typed Placed)

variable {document : Document}

/-- A row that inserts a text puts it in the place of the selection. The arguments of a call are
selected inside the group, which has got its change by then. -/
theorem acceptMenu_places (hBounds : document.InBounds) {menu : Menu} {index : Nat}
    {text : List Char} (hText : menu.insertion? index = some text) :
    Yields (acceptMenu menu index) document fun done after =>
      done = true ∧ Placed text document after := by
  obtain ⟨edited, hInsert, hTyped, hEdited, hChanges⟩ :=
    Document.exists_typed text hBounds.openGroup
  simp only [acceptMenu, hText, yields_bind, yields_pure, true_and]
  let shown (written : List Char) (selection : Selection) : Prop :=
    written = document.text.take document.selection.start ++ text ++
      document.text.drop document.selection.stop ∧
    selection = Menu.selectionIn text document.selection.start
  apply Yields.mono (@yields_grouped_showing _ document _ 1 shown ?_)
  · exact fun _ _ h => ⟨h.1, h.2.1, h.2.2⟩
  simp only [yields_bind, yields_current]
  apply yields_act hInsert
  split
  next hPlain =>
    refine yields_pure.mpr ⟨hEdited, hTyped.text_eq, ?_⟩
    rw [Menu.selectionIn_of_none hPlain]
    exact hTyped.selection_eq
  next range hRange =>
    obtain ⟨hOpen, hOrder, hStop⟩ := Menu.arguments?_bounds hRange
    have hCaret : document.selection.start + text.length ≤ edited.length := by
      have hHead := hEdited.inBounds.head
      rwa [hTyped.selection_eq] at hHead
    have hWithin : (Selection.mk (document.selection.start + range.start)
        (document.selection.start + range.stop)).Within edited.length :=
      ⟨Nat.le_trans (Nat.add_le_add_left (Nat.le_trans hOrder hStop) _) hCaret,
        Nat.le_trans (Nat.add_le_add_left hStop _) hCaret⟩
    have hNe : text ≠ [] := by
      intro hNil
      rw [hNil, List.length_nil] at hStop
      omega
    have hUndoable :=
      hEdited.undoable.select (Document.openGroup_pending_ne document) (hChanges hNe)
    exact yields_act (Document.select_of_within hWithin)
      ⟨⟨hWithin, hUndoable _⟩, hTyped.text_eq, (Menu.selectionIn_of_some hRange _).symm⟩

theorem acceptMenu_yields (hBounds : document.InBounds) (menu : Menu) (index : Nat) :
    Yields (acceptMenu menu index) document (Attempted document) := by
  cases hText : menu.insertion? index with
  | none =>
      rw [acceptMenu, hText]
      exact yields_pure.mpr (.refused hBounds)
  | some text =>
      apply Yields.mono (acceptMenu_places hBounds hText)
      rintro _ after ⟨rfl, hPlaced⟩
      exact hPlaced.edited.attempted

/-- The row of the trigger types the trigger. -/
theorem acceptMenu_zero_yields (hBounds : document.InBounds) {menu : Menu}
    (hTrigger : menu.HoldsTrigger) :
    Yields (acceptMenu menu 0) document fun _ after =>
      Typed [menu.trigger.char] document after ∧ Edited 1 document after := by
  apply Yields.mono (acceptMenu_places hBounds (Menu.insertion?_zero hTrigger))
  rintro _ after ⟨-, hEdited, hText, hSelection⟩
  rw [Menu.selectionIn_of_none (Menu.arguments?_trigger menu.trigger)] at hSelection
  exact ⟨⟨hText, hSelection⟩, hEdited⟩

/-- What a key adds can be added, as long as a tab stop is at least one column wide. -/
theorem afterHint_yields (hBounds : document.InBounds) (key : AcceptKey) {tabWidth : Nat}
    (hWidth : 0 < tabWidth) :
    Yields (afterHint key tabWidth) document fun _ after => Edited 1 document after := by
  have hStill : Edited 1 document document := .refl 1 hBounds
  have hInsert (text : List Char) :
      Yields (act (·.insert text)) document fun _ after => Edited 1 document after := by
    obtain ⟨edited, hInsert, -, hEdited, -⟩ := Document.exists_typed text hBounds
    exact yields_act hInsert hEdited
  simp only [afterHint, yields_bind, yields_current]
  cases key with
  | backTab => exact yields_pure.mpr hStill
  | enter =>
      dsimp only
      split
      · exact hInsert _
      · exact yields_pure.mpr hStill
  | tab =>
      obtain ⟨above, row, below, hCut⟩ := exists_lineCut hBounds.head
      have hPad (pad : Nat) :
          Yields (if 0 < pad then act (·.insert (Shift.spaces pad)) else pure ()) document
            fun _ after => Edited 1 document after := by
        split
        · exact hInsert _
        · exact yields_pure.mpr hStill
      simp only [yields_bind]
      apply yields_ask (Document.positionAt_eq hCut)
      exact yields_ask (Shift.padding_eq hWidth _) (hPad _)

/-- Up to tab stops of no width there is nothing to count, and the run ends for good. -/
example : ((afterHint .tab 0).run { text := ['a'] }).1 = .error .divisionByZero := rfl

theorem acceptHint_yields (hBounds : document.InBounds) (hints : Hints) (key : AcceptKey)
    {tabWidth : Nat} (hWidth : 0 < tabWidth) :
    Yields (acceptHint hints key tabWidth) document (Attempted document) := by
  rw [acceptHint]
  split
  · exact yields_pure.mpr (.refused hBounds)
  next entry hEntry =>
  obtain ⟨edited, hReplace, hEdited⟩ := Document.exists_edited_before_caret entry
    hBounds.openGroup (document.wordStart_le document.caret)
  simp only [yields_bind, yields_current, yields_pure]
  refine (yields_grouped_edited 2 ?_).mono fun _ _ h => h.attempted
  simp only [yields_bind]
  apply yields_act hReplace
  apply Yields.mono (afterHint_yields hEdited.inBounds key hWidth)
  intro _ padded hPadded
  exact hEdited.trans hPadded

end Editing

end EditAssist
