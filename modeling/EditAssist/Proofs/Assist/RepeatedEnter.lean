import EditAssist.Proofs.Assist.Consent
import EditAssist.Proofs.Document.Positions
import EditAssist.Proofs.Layout.Continuation

/-! Enter pressed twice in a row. The second line that it opens continues the first one, so the two
are alike where a continued line continues itself. -/
namespace EditAssist

open Text Continuation

namespace Document

variable {document before after : Document} {line row : List Char}

/-- `line` is what is shown in front of the caret on its line. -/
def InFront (document : Document) (line : List Char) : Prop :=
  ∃ place shown, document.position = .ok place ∧ document.lineText place.line = .ok shown ∧
    line = shown.take place.column

/-- A row typed behind a line feed is what is shown in front of the caret then. -/
theorem Typed.inFront (h : Typed ('\n' :: row) before after) (hBounds : before.InBounds)
    (hFeed : '\n' ∉ row) (hReturn : '\r' ∉ row) : after.InFront row := by
  let above := before.text.take before.selection.start ++ ['\n']
  have hTyped : before.text.take before.selection.start ++ '\n' :: row = above ++ row :=
    List.append_cons _ _ _
  have hText : after.text = above ++ row ++ before.text.drop before.selection.stop := by
    rw [h.text_eq, hTyped]
  have hCaret : after.caret = (above ++ row).length := by
    rw [caret, h.selection_eq, ← hTyped, Typed.length_left _ hBounds]
    rfl
  have hLead : Lead (above ++ row) above row := ⟨rfl, .inr ⟨_, rfl⟩, hFeed⟩
  have hCut := hLead.lineCut (before.text.drop before.selection.stop)
  rw [← hText, ← hCaret] at hCut
  have hColumn : after.caret - above.length = row.length := by
    rw [hCaret, List.length_append, Nat.add_sub_cancel_left]
  have hOutside : ¬ BehindReturn after.text after.caret := by
    rintro ⟨hLast, -⟩
    rw [hText, hCaret, List.take_left, ← hTyped, List.getLast?_append_cons] at hLast
    rcases List.mem_cons.mp (List.mem_of_getLast? hLast) with hFirst | hRow
    · cases hFirst
    · exact hReturn hRow
  refine ⟨_, _, positionAt_eq hCut, lineText_eq hCut, ?_⟩
  rw [hCut.take_shown hOutside, hColumn, List.take_left]

end Document

namespace Editing

open Document (Undoable Edited Typed)

variable {document : Document} {line : List Char}

/-- Without a selection, Enter types a line feed and what continues the line. -/
theorem breakLine_types (hBounds : document.InBounds) (hNone : document.hasSelection = false)
    (hFront : document.InFront line) :
    Yields breakLine document fun done after => done = true ∧ Edited 1 document after ∧
      Typed ('\n' :: lead line) document after := by
  obtain ⟨place, shown, hPlace, hShown, rfl⟩ := hFront
  simp only [breakLine, yields_bind, yields_current, hNone, Bool.false_eq_true, if_false,
    yields_pure, true_and]
  apply yields_ask hPlace
  apply yields_ask hShown
  let typed := '\n' :: lead (shown.take place.column)
  let shows (written : List Char) (selection : Selection) : Prop :=
    written = document.text.take document.selection.start ++ typed ++
      document.text.drop document.selection.stop ∧
    selection = .caret (document.selection.start + typed.length)
  obtain ⟨edited, hInsert, hTyped, hEdited, -⟩ :=
    Document.exists_typed typed hBounds.openGroup
  apply Yields.mono (@yields_grouped_showing _ document _ 1 shows ?_)
  · rintro _ after ⟨hAfter, hText, hSelection⟩
    exact ⟨hAfter, hText, hSelection⟩
  · exact yields_act hInsert ⟨hEdited, hTyped.text_eq, hTyped.selection_eq⟩

end Editing

namespace Assisting

open Document (Edited Typed)

variable {workspace : Workspace} {line : List Char}

/-- Enter breaks the line where no row of a menu and no hint is there to be inserted. -/
theorem press_enter_types (source : SymbolSource) (hBounds : workspace.document.InBounds)
    (hNone : workspace.document.hasSelection = false)
    (hMenu : workspace.assistant.overlay.menu? = none)
    (hHints : ∀ hints, workspace.assistant.overlay = .hints hints → hints.acceptable? = none)
    (hFront : workspace.document.InFront line) :
    Yields (press source .enter) workspace fun outcome after =>
      outcome = .handled ∧ after.assistant.overlay = .hidden ∧
        Edited 1 workspace.document after.document ∧
          Typed ('\n' :: lead line) workspace.document after.document := by
  have hRun : (press source .enter).run workspace =
      (Deed.layOut.actions .enter).run workspace :=
    (press_of_not_menu hMenu).trans (@pressPlain_of_none source .enter workspace hHints)
  have hLaidOut : Yields (Deed.layOut.actions .enter) workspace fun outcome after =>
      outcome = .handled ∧ after.assistant.overlay = .hidden ∧
        Edited 1 workspace.document after.document ∧
          Typed ('\n' :: lead line) workspace.document after.document := by
    simp only [Deed.actions, layOut, yields_bind, yields_setOverlay, yields_edit, yields_pure]
    apply (Editing.breakLine_types hBounds hNone hFront).mono
    rintro _ after ⟨rfl, hEdited, hTyped⟩
    exact ⟨rfl, rfl, hEdited, hTyped⟩
  obtain ⟨outcome, after, hAfter, hHolds⟩ := hLaidOut
  exact ⟨outcome, after, hRun.trans hAfter, hHolds⟩

/-- A second Enter right after the first one types what continues the line that the first one
opened. That is the same text again, unless the comment of the line begins with a single mark and
white space while a double mark stands somewhere in it: then the white space is gone the second
time. From then on nothing changes any more. -/
theorem press_enter_twice (source : SymbolSource) (line : List Char) :
    (lead (lead line) = lead line ↔ ¬ MarkedLate line) ∧
    lead (lead (lead line)) = lead (lead line) ∧
    ∀ workspace : Workspace, workspace.document.InBounds →
      workspace.document.hasSelection = false → workspace.assistant.overlay.menu? = none →
      (∀ hints, workspace.assistant.overlay = .hints hints → hints.acceptable? = none) →
      workspace.document.InFront line →
      ∃ first second, (press source .enter).run workspace = (.ok .handled, first) ∧
        (press source .enter).run first = (.ok .handled, second) ∧
        Typed ('\n' :: lead line) workspace.document first.document ∧
        Typed ('\n' :: lead (lead line)) first.document second.document := by
  refine ⟨lead_lead_iff line, (lead_lead_iff (lead line)).mpr (not_markedLate_lead line), ?_⟩
  intro workspace hBounds hNone hMenu hHints hFront
  obtain ⟨_, first, hFirst, rfl, hHidden, hEdited, hTyped⟩ :=
    press_enter_types source hBounds hNone hMenu hHints hFront
  have hEmpty : first.document.hasSelection = false := by
    rw [Document.hasSelection, hTyped.isEmpty_selection]
    rfl
  have hOpened : first.document.InFront (lead line) :=
    hTyped.inFront hBounds (fun hFeed => absurd (lead_subset line hFeed) (by decide))
      fun hReturn => absurd (lead_subset line hReturn) (by decide)
  obtain ⟨_, second, hSecond, rfl, -, -, hAgain⟩ :=
    press_enter_types source hEdited.inBounds hEmpty (by rw [hHidden]; rfl)
      (fun hints hShown => by rw [hHidden] at hShown; cases hShown) hOpened
  exact ⟨first, second, hFirst, hSecond, hTyped, hAgain⟩

/-- A comment behind code and above another line, while hints are shown of which none was picked. -/
theorem press_enter_twice_behind_comment :
    let source : SymbolSource := fun _ => []
    let line := "\tx '  é".toList
    let workspace : Workspace :=
      { document := .ofText "\tx '  é\r\ny".toList (.caret 7)
        assistant :=
          { file := [], language := .spin
            overlay := .hints (.ofEntries [['a', 'b', 'c'], ['a', 'b', 'd']] ⟨0, 0⟩) } }
    workspace.document.InBounds ∧ workspace.document.hasSelection = false ∧
      workspace.assistant.overlay.menu? = none ∧ workspace.document.InFront line ∧
      ¬ MarkedLate line ∧
      ∃ first second, (press source .enter).run workspace = (.ok .handled, first) ∧
        (press source .enter).run first = (.ok .handled, second) ∧
        first.document.text = "\tx '  é\n   '  \r\ny".toList ∧
        second.document.text = "\tx '  é\n   '  \n   '  \r\ny".toList := by
  intro source line workspace
  have hBounds : workspace.document.InBounds := ⟨by decide, by decide⟩
  have hFront : workspace.document.InFront line := ⟨⟨0, 7⟩, line, rfl, rfl, rfl⟩
  have hUnpicked (hints : Hints) (hShown : workspace.assistant.overlay = .hints hints) :
      hints.acceptable? = none := by
    cases hShown
    rfl
  obtain ⟨hStable, -, hPress⟩ := press_enter_twice source line
  obtain ⟨first, second, hFirst, hSecond, hTyped, hAgain⟩ :=
    hPress workspace hBounds rfl rfl hUnpicked hFront
  have hLead : lead line = "   '  ".toList := by decide
  have hText : first.document.text = "\tx '  é\n   '  \r\ny".toList := by
    rw [hTyped.text_eq, hLead]
    decide
  refine ⟨hBounds, rfl, rfl, hFront, hStable.mp (by decide), first, second, hFirst, hSecond, hText,
    ?_⟩
  rw [hAgain.text_eq, hTyped.selection_eq, hText, hLead]
  decide

end Assisting

end EditAssist
