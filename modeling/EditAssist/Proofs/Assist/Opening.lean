import EditAssist.Assist.Opening
import EditAssist.Proofs.Assist.Accepting

/-! When hints and menus appear. Looking for them succeeds wherever the selection lies within the
text. Hints leave the document alone; a menu holds its trigger back, and otherwise the trigger is
typed. -/
namespace EditAssist

open Text

namespace Overlay

/-- The menu that is shown, if one is. -/
def menu? : Overlay → Option Menu
  | .menu list => some list
  | _ => none

/-- The trigger that a menu holds back until the next key. -/
def held (overlay : Overlay) : List Char :=
  (overlay.menu?.map (·.trigger.char)).toList

theorem menu?_eq_none {overlay : Overlay} (h : ∀ list, overlay = .menu list → False) :
    overlay.menu? = none := by
  cases overlay with
  | menu list => exact (h list rfl).elim
  | hidden | hints list => rfl

theorem held_of_menu?_eq_none {overlay : Overlay} (h : overlay.menu? = none) :
    overlay.held = [] := by
  rw [held, h]
  rfl

theorem sound_of_menu?_eq_none {overlay : Overlay} (h : overlay.menu? = none) :
    overlay.Sound := by
  cases overlay with
  | menu list => cases h
  | hidden | hints list => trivial

end Overlay

/-- The workspace with another overlay. -/
def Workspace.showing (overlay : Overlay) (workspace : Workspace) : Workspace :=
  { workspace with assistant := { workspace.assistant with overlay := overlay } }

namespace Assisting

open Document (Edited Typed)

variable {α : Type} {workspace : Workspace} {failed : Workspace → Prop}

theorem ends_document {post : Document → Workspace → Prop} :
    Ends document workspace failed post ↔ post workspace.document workspace :=
  ends_of_run rfl

theorem ends_assistant {post : Assistant → Workspace → Prop} :
    Ends assistant workspace failed post ↔ post workspace.assistant workspace :=
  ends_of_run rfl

theorem ends_setOverlay {overlay : Overlay} {post : Unit → Workspace → Prop} :
    Ends (setOverlay overlay) workspace failed post ↔ post () (workspace.showing overlay) :=
  ends_of_run rfl

theorem ends_lookUp {source : SymbolSource} {catalogue : Catalogue} {object : List Char}
    {post : List (List Char) → Workspace → Prop} :
    Ends (lookUp source catalogue object) workspace failed post ↔
      let lookup := ⟨catalogue, workspace.assistant.file, object⟩
      post (source lookup) { workspace with lookups := workspace.lookups ++ [lookup] } :=
  ends_of_run rfl

/-- Edits see the document alone, and a failure leaves it as they did. -/
theorem ends_edit {edits : Editing α} {post : α → Workspace → Prop} :
    Ends (edit edits) workspace failed post ↔
      Ends edits workspace.document (fun edited => failed { workspace with document := edited })
        fun answer edited => post answer { workspace with document := edited } := by
  have hRun : (ExceptT.run (edit edits)).run workspace =
      ((edits.run workspace.document).1,
        { workspace with document := (edits.run workspace.document).2 }) :=
    rfl
  simp only [Ends, hRun, Editing.run]
  cases StateT.run (ExceptT.run edits) workspace.document with
  | mk result edited => cases result <;> exact Iff.rfl

theorem yields_document {post : Document → Workspace → Prop} :
    Yields document workspace post ↔ post workspace.document workspace :=
  yields_of_run rfl

theorem yields_assistant {post : Assistant → Workspace → Prop} :
    Yields assistant workspace post ↔ post workspace.assistant workspace :=
  yields_of_run rfl

theorem yields_setOverlay {overlay : Overlay} {post : Unit → Workspace → Prop} :
    Yields (setOverlay overlay) workspace post ↔ post () (workspace.showing overlay) :=
  yields_of_run rfl

theorem yields_lookUp {source : SymbolSource} {catalogue : Catalogue} {object : List Char}
    {post : List (List Char) → Workspace → Prop} :
    Yields (lookUp source catalogue object) workspace post ↔
      let lookup := ⟨catalogue, workspace.assistant.file, object⟩
      post (source lookup) { workspace with lookups := workspace.lookups ++ [lookup] } :=
  yields_of_run rfl

/-- Edits see the document alone. -/
theorem yields_edit {edits : Editing α} {post : α → Workspace → Prop} :
    Yields (edit edits) workspace post ↔
      Yields edits workspace.document fun answer edited =>
        post answer { workspace with document := edited } := by
  simp only [yields_iff_ends, ends_edit]

/-- Looking for hints asks questions only. -/
theorem findHints_yields (hBounds : workspace.document.InBounds) (source : SymbolSource) :
    Yields (findHints source) workspace fun _ after =>
      after.document = workspace.document ∧ after.assistant = workspace.assistant := by
  have hStart := workspace.document.wordStart_le workspace.document.caret
  have hWithin := Nat.le_trans hStart hBounds.head
  simp only [findHints, yields_bind, yields_document]
  split
  · exact yields_pure.mpr ⟨rfl, rfl⟩
  split
  · exact yields_pure.mpr ⟨rfl, rfl⟩
  simp only [yields_bind, yields_edit, yields_lookUp]
  apply Editing.yields_ask (Document.slice_of_le hStart hBounds.head)
  split
  · exact yields_pure.mpr ⟨rfl, rfl⟩
  simp only [yields_bind, yields_edit]
  exact Editing.yields_ask (Document.positionAt_of_le hWithin) (yields_pure.mpr ⟨rfl, rfl⟩)

/-- Hints neither touch the document nor replace a menu, and they never become one. -/
theorem refreshHints_yields (hBounds : workspace.document.InBounds) (source : SymbolSource) :
    Yields (refreshHints source) workspace fun _ after =>
      after.document = workspace.document ∧
        after.assistant.overlay.menu? = workspace.assistant.overlay.menu? := by
  simp only [refreshHints, yields_bind, yields_assistant]
  split
  · exact yields_pure.mpr ⟨rfl, rfl⟩
  · exact yields_pure.mpr ⟨rfl, rfl⟩
  next hOther =>
  have hNone := Overlay.menu?_eq_none hOther
  rw [yields_bind]
  apply Yields.mono (findHints_yields hBounds source)
  intro found after hFound
  cases found with
  | some hints => exact yields_setOverlay.mpr ⟨hFound.1, hNone.symm⟩
  | none => exact yields_setOverlay.mpr ⟨hFound.1, hNone.symm⟩

/-- What matches the word before the caret is shown, if hints are turned on and no menu is open. -/
theorem refreshHints_yields_matches (hBounds : workspace.document.InBounds) (source : SymbolSource)
    (hOn : workspace.assistant.preferences.hints = true)
    (hNone : workspace.assistant.overlay.menu? = none)
    (hCaret : workspace.document.hasSelection = false)
    (hStop : workspace.document.wordStop workspace.document.caret = workspace.document.caret)
    {start : Nat} (hStart : workspace.document.wordStart workspace.document.caret = start)
    (hLong : minWordLength ≤ workspace.document.caret - start) {entries : List (List Char)}
    (hEntries : Candidates.ofRows
      ((workspace.document.text.take workspace.document.caret).drop start)
      (source ⟨.members, workspace.assistant.file, []⟩) = entries) (hSome : entries ≠ []) :
    Yields (refreshHints source) workspace fun _ after =>
      ∃ anchor, after.assistant.overlay = .hints (.ofEntries entries anchor) := by
  have hBefore : start ≤ workspace.document.caret := by
    rw [← hStart]
    exact workspace.document.wordStart_le workspace.document.caret
  have hShort : ¬ workspace.document.caret - start < minWordLength := Nat.not_lt.mpr hLong
  have hFull : entries.isEmpty = false := List.isEmpty_eq_false_iff.mpr hSome
  simp only [refreshHints, yields_bind, yields_assistant, hOn]
  split
  next hOff => cases hOff
  next hMenu _ =>
    rw [hMenu] at hNone
    cases hNone
  simp only [findHints, yields_bind, yields_document, hCaret, hStop, hStart, hShort,
    bne_self_eq_false, Bool.false_or, decide_eq_true_eq, Bool.false_eq_true, if_false, yields_edit,
    yields_lookUp]
  apply Editing.yields_ask (Document.slice_of_le hBefore hBounds.head)
  rw [hEntries, hFull, if_neg Bool.false_ne_true]
  simp only [yields_bind, yields_edit]
  apply Editing.yields_ask (Document.positionAt_of_le (Nat.le_trans hBefore hBounds.head))
  exact yields_pure.mpr (yields_setOverlay.mpr ⟨_, rfl⟩)

/-- What a search for a menu does to the document. If it finds a menu, the selected text is gone,
and if it does not, it may be. -/
structure FoundMenu (before : Document) (trigger : Trigger) (found : Option Menu)
    (after : Document) : Prop where
  edited : Edited before.deletions before after
  typed : Typed [] before after ∨ found = none ∧ after = before
  menu : ∀ menu, found = some menu → menu.HoldsTrigger ∧ menu.trigger = trigger

theorem findMenu_yields (hBounds : workspace.document.InBounds) (source : SymbolSource)
    (trigger : Trigger) :
    Yields (findMenu source trigger) workspace fun found after =>
      FoundMenu workspace.document trigger found after.document ∧
        after.assistant = workspace.assistant := by
  have hStart := Selection.Within.start hBounds
  obtain ⟨above, row, below, hCut⟩ := exists_lineCut hStart
  obtain ⟨edited, hDelete, hTyped, hEdited⟩ := Document.exists_deleted hBounds
  simp only [findMenu, yields_bind, yields_document, yields_edit]
  apply Editing.yields_ask (Document.slice_of_le (Nat.zero_le _) hStart)
  apply Editing.yields_ask (Document.positionAt_eq hCut)
  apply Editing.yields_ask (Document.lineText_eq hCut)
  split
  · exact yields_pure.mpr ⟨⟨.refl _ hBounds, .inr ⟨rfl, rfl⟩, nofun⟩, rfl⟩
  simp only [yields_bind, yields_edit, yields_lookUp, yields_assistant]
  apply Editing.yields_act hDelete
  split
  · exact yields_pure.mpr ⟨⟨hEdited, .inl hTyped, nofun⟩, rfl⟩
  next items width hBuild =>
  refine yields_pure.mpr ⟨⟨hEdited, .inl hTyped, ?_⟩, rfl⟩
  intro menu hMenu
  cases hMenu
  exact ⟨Menu.build_starts hBuild, rfl⟩

/-- A character was typed, or a menu holds it back. -/
structure Echoed (c : Char) (before after : Workspace) : Prop where
  typed : ∃ text, Typed text before.document after.document ∧
    text ++ after.assistant.overlay.held = [c]
  sound : after.assistant.overlay.Sound

theorem openMenu_yields (hBounds : workspace.document.InBounds) (source : SymbolSource)
    (trigger : Trigger) :
    Yields (openMenu source trigger) workspace fun _ after =>
      Edited (workspace.document.deletions + 1) workspace.document after.document ∧
        Echoed trigger.char workspace after := by
  have hShown : (workspace.showing .hidden).document.InBounds := hBounds
  simp only [openMenu, yields_bind, yields_setOverlay]
  apply Yields.mono (findMenu_yields hShown source trigger)
  intro found after hSearch
  obtain ⟨hFound, hAssistant⟩ := hSearch
  cases found with
  | some menu =>
      obtain ⟨hHolds, rfl⟩ := hFound.menu menu rfl
      have hTyped : Typed [] workspace.document after.document := by
        rcases hFound.typed with hTyped | ⟨hNone, -⟩
        · exact hTyped
        · cases hNone
      exact yields_setOverlay.mpr
        ⟨hFound.edited.mono (Nat.le_succ _), ⟨[], hTyped, rfl⟩, hHolds⟩
  | none =>
      obtain ⟨edited, hInsert, hLast, hEdited, -⟩ :=
        Document.exists_typed [trigger.char] hFound.edited.inBounds
      have hTyped : Typed [trigger.char] workspace.document edited := by
        rcases hFound.typed with hDeleted | ⟨-, hStill⟩
        · exact hDeleted.trans hBounds hLast
        · exact hStill ▸ hLast
      have hHidden : after.assistant.overlay = .hidden := congrArg Assistant.overlay hAssistant
      simp only [yields_edit]
      refine Editing.yields_act hInsert
        ⟨hFound.edited.trans hEdited, ⟨[trigger.char], hTyped, ?_⟩, ?_⟩
      · rw [hHidden]
        rfl
      · rw [hHidden]
        trivial

/-- The rows that are built for a trigger are shown, where no comment or string is in the way. -/
theorem openMenu_yields_rows (hBounds : workspace.document.InBounds) (source : SymbolSource)
    (trigger : Trigger) {before line name : List Char} {place : Position} {items : List MenuItem}
    {width : Nat}
    (hBefore : workspace.document.slice ⟨0, workspace.document.selection.start⟩ = .ok before)
    (hPlace : workspace.document.positionAt workspace.document.selection.start = .ok place)
    (hLine : workspace.document.lineText place.line = .ok line)
    (hOpen : Context.suppressesMenu before line place.column = false)
    (hName : Context.nameBefore (line.take place.column) = name)
    (hBuild : Menu.build
      (source ⟨trigger.catalogue, workspace.assistant.file, (Scope.ofName name).name⟩) trigger
      (Scope.ofName name) workspace.assistant.preferences = some (items, width)) :
    Yields (openMenu source trigger) workspace fun _ after =>
      after.assistant.overlay = .menu ⟨items, 0, trigger, (Scope.ofName name).style, width,
        ⟨place.line, place.column⟩⟩ := by
  obtain ⟨edited, hDelete, -, -⟩ := Document.exists_deleted hBounds
  simp only [openMenu, findMenu, yields_bind, yields_setOverlay, yields_document, yields_edit]
  apply Editing.yields_ask hBefore
  apply Editing.yields_ask hPlace
  apply Editing.yields_ask hLine
  rw [hOpen, if_neg Bool.false_ne_true]
  simp only [yields_bind, yields_edit, yields_lookUp, yields_assistant]
  apply Editing.yields_act hDelete
  simp only [Workspace.showing, hName, hBuild]
  exact yields_pure.mpr (yields_setOverlay.mpr rfl)

end Assisting

end EditAssist
