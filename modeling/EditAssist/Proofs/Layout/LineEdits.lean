import EditAssist.Layout.LineEdits
import EditAssist.Proofs.Document.Yields
import EditAssist.Proofs.Layout.Fitting
import EditAssist.Proofs.Spin.BraceColumn

/-! The edits that keep lines in shape succeed wherever the selection lies within the text. Each of
them is at most one undo, and one that reports nothing done has left the document alone. -/
namespace EditAssist

open Text

/-- What an attempt does that answers whether it did anything. -/
structure Document.Attempted (before : Document) (done : Bool) (after : Document) : Prop where
  edited : Edited 1 before after
  still : done = false → after = before

theorem Document.Attempted.refused {document : Document} (hBounds : document.InBounds) :
    document.Attempted false document :=
  ⟨.refl 1 hBounds, fun _ => rfl⟩

theorem Document.Edited.attempted {before after : Document} (h : Edited 1 before after) :
    before.Attempted true after :=
  ⟨h, nofun⟩

/-- A closing brace took the place of white space: from the start of the line of the caret there
stand one tab stop less of spaces and the brace, and the caret is behind it. -/
structure Document.PulledLeft (tabWidth : Nat) (above lead : List Char)
    (before after : Document) : Prop where
  not_selected : before.selection.isEmpty = true
  in_front : Lead (before.text.take before.caret) above lead
  blank : ∀ c ∈ lead, isBlank c = true
  within : tabWidth < lead.length
  text_eq : after.text = above ++ (Shift.spaces (lead.length - tabWidth) ++ ['\x7d']) ++
    before.text.drop before.caret
  selection_eq : after.selection =
    .caret (above ++ (Shift.spaces (lead.length - tabWidth) ++ ['\x7d'])).length

theorem Document.PulledLeft.inBounds {tabWidth : Nat} {above lead : List Char}
    {before after : Document} (h : PulledLeft tabWidth above lead before after) :
    after.InBounds := by
  have hLength : (above ++ (Shift.spaces (lead.length - tabWidth) ++ ['\x7d'])).length ≤
      after.length := by
    rw [length, h.text_eq]
    exact (List.prefix_append _ _).length_le
  rw [InBounds, h.selection_eq]
  exact Selection.within_caret hLength

namespace Editing

open Document (Undoable Edited Attempted PulledLeft)

variable {document : Document}

theorem breakLine_yields (hBounds : document.InBounds) :
    Yields breakLine document (Attempted document) := by
  simp only [breakLine, yields_bind, yields_current]
  split
  · exact yields_pure.mpr (.refused hBounds)
  obtain ⟨above, row, below, hCut⟩ := exists_lineCut hBounds.head
  simp only [yields_bind, yields_pure]
  apply yields_ask (Document.positionAt_eq hCut)
  apply yields_ask (Document.lineText_eq hCut)
  obtain ⟨edited, hInsert, -, hEdited, -⟩ := Document.exists_typed _ hBounds.openGroup
  exact (yields_grouped_edited 1 (yields_act hInsert hEdited)).mono fun _ _ h => h.attempted

/-- A brace is moved to the left or not typed at all. -/
theorem closeBrace_pulls (hBounds : document.InBounds) (tabWidth : Nat) :
    Yields (closeBrace tabWidth) document fun done after =>
      (done = false ∧ after = document) ∨
      (done = true ∧ after ≠ document ∧ Undoable 1 document after ∧
        ∃ above lead, PulledLeft tabWidth above lead document after) := by
  simp only [closeBrace, yields_bind, yields_current]
  split
  · exact yields_pure.mpr (.inl ⟨rfl, rfl⟩)
  next hNone =>
  have hEmpty : document.selection.isEmpty = true := by simpa [Document.hasSelection] using hNone
  have hCaret : document.caret ≤ document.text.length := hBounds.head
  obtain ⟨above, row, below, hCut⟩ := exists_lineCut hCaret
  obtain ⟨lead, hLead, hColumn⟩ : ∃ lead, Lead (document.text.take document.caret) above lead ∧
      document.caret - above.length = lead.length :=
    ⟨_, hCut.lead, (List.length_take_of_le hCut.column_le).symm⟩
  simp only [yields_bind]
  apply yields_ask (Document.positionAt_eq hCut)
  rw [hColumn]
  split
  · exact yields_pure.mpr (.inl ⟨rfl, rfl⟩)
  next place hPlace =>
  obtain ⟨hWithin, rfl⟩ := Comment.column_of_braceColumn? hPlace
  simp only [yields_bind]
  apply yields_ask (Document.lineStart_eq hCut)
  apply yields_ask (Document.slice_of_le hCut.start_le hBounds.head)
  rw [hLead.text_eq, List.drop_left]
  split
  next hBlank =>
    have hText : document.text = above ++ lead ++ document.text.drop document.caret := by
      rw [← hLead.text_eq, List.take_append_drop]
    have hFront : (above ++ lead).length = document.caret := by
      rw [← hLead.text_eq, List.length_take_of_le hCaret]
    have hSome : Shift.spaces (lead.length - tabWidth) ++ ['\x7d'] ≠ [] :=
      List.append_ne_nil_of_right_ne_nil _ (List.cons_ne_nil _ _)
    obtain ⟨edited, hReplace, hWritten, hBehind, hUndoable, hChanged⟩ :=
      document.openGroup.exists_replaced_before_caret hText hFront hSome
    let shown (written : List Char) (selection : Selection) : Prop :=
      written = above ++ (Shift.spaces (lead.length - tabWidth) ++ ['\x7d']) ++
        document.text.drop document.caret ∧
      selection = .caret (above ++ (Shift.spaces (lead.length - tabWidth) ++ ['\x7d'])).length
    simp only [yields_bind, yields_pure, true_and]
    apply Yields.mono (@yields_grouped_changing _ document _ 1 shown ?_)
    · rintro _ after ⟨hUndoable, hChanged, hWritten, hBehind⟩
      exact .inr ⟨hChanged, hUndoable, above, lead, hEmpty, hLead, List.all_eq_true.mp hBlank,
        hWithin, hWritten, hBehind⟩
    · exact yields_act hReplace ⟨hUndoable, hChanged, hWritten, hBehind⟩
  · exact yields_pure.mpr (.inl ⟨rfl, rfl⟩)

/-- The plan was made for the text as it stands, and its edit comes before its selection. -/
theorem shiftLines_yields (hBounds : document.InBounds) (tabWidth : Nat) (shift : Shift) :
    Yields (shiftLines tabWidth shift) document fun _ after => Edited 1 document after := by
  obtain ⟨plan, hPlan, hFitting⟩ :=
    Shift.plan_fits document.text document.selection tabWidth shift
  simp only [shiftLines, yields_bind]
  apply yields_ask hPlan
  split
  · exact yields_pure.mpr (.refl 1 hBounds)
  next edit hEdit =>
  have hFits := hFitting edit hEdit
  have hLow := Range.low_eq_start hFits.start_le
  have hHigh := Range.high_eq_stop hFits.start_le
  obtain ⟨edited, hReplace, hReplaced⟩ := document.openGroup.exists_replaced edit.range edit.text
    (Nat.le_trans hFits.start_le hFits.stop_le) hFits.stop_le
  have hText : edited.text = edit.apply document.text := by
    rw [hReplaced.text_eq, hLow, hHigh]
    rfl
  have hChanged : edited ≠ document.openGroup := by
    apply hReplaced.changes
    rw [hLow, hHigh]
    exact hFits.changes
  have hSelection := hFits.selection
  rw [← hText] at hSelection
  have hUndoable :=
    hReplaced.undoable.select (Document.openGroup_pending_ne document) hChanged
  apply yields_grouped_edited 1
  simp only [yields_bind]
  apply yields_act hReplace
  exact yields_act (Document.select_of_within hSelection) ⟨hSelection, hUndoable _⟩

end Editing

end EditAssist
