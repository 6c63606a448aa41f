import EditAssist.Proofs.Document.Edited
import EditAssist.Proofs.Document.Editor

/-! Undo while a group is open. An undo takes back the newest group in the history, whatever the
open group has done to the text since. As long as that is nothing, `undo_safe_before_changes` finds
every undo safe: the history leads back to the start from the text before the open group, and that
is the text as it stands. Once the open group has changed the text, nothing of this is left, as
`undo_unsafe_in_open_group` shows. -/
namespace EditAssist.Document

/-- The changes that have been made in the open group, newest first. -/
def pendingChanges (document : Document) : List Change :=
  (document.pending.map (·.group.changes)).getD []

theorem pendingChanges_of_closed {document : Document} (hClosed : document.pending = none) :
    document.pendingChanges = [] := by
  rw [pendingChanges, hClosed]
  rfl

/-- A group of `history` after the other is taken back from `text` on, down to `start`. The
selection that comes back with each of them fits the text that comes back. -/
inductive LeadsBack (start : List Char) (fits : List Char → Selection → Prop) :
    (text : List Char) → (history : List ChangeGroup) → Prop
  | nil : LeadsBack start fits start []
  | cons {text older : List Char} {group : ChangeGroup} {history : List ChangeGroup}
      (hRevert : Change.revertAll group.changes text = .ok older) (hFits : fits older group.before)
      (hOlder : LeadsBack start fits older history) : LeadsBack start fits text (group :: history)

/-- The open group leads back to `settled`, the text that the history goes on from. -/
structure Recoverable (start : List Char) (fits : List Char → Selection → Prop)
    (document : Document) (settled : List Char) : Prop where
  revert : Change.revertAll document.pendingChanges document.text = .ok settled
  history : LeadsBack start fits settled document.history
  before : ∀ group ∈ document.pending, fits settled group.group.before
  selection : fits document.text document.selection

/-- Undoing as often as the history is long gives `text` back. -/
def RestoresTo (text : List Char) (document : Document) : Prop :=
  ∃ oldest, undoTimes document.undoDepth document = .ok oldest ∧ oldest.undoDepth = 0 ∧
    oldest.text = text

variable {start settled : List Char} {fits : List Char → Selection → Prop}
  {document edited : Document}

theorem LeadsBack.restoresTo (hPast : LeadsBack start fits document.text document.history) :
    document.RestoresTo start := by
  -- on the history, where each undo leaves one group less
  generalize hHistory : document.history = history at hPast
  generalize hText : document.text = text at hPast
  induction hPast generalizing document with
  | nil =>
      have hDepth : document.undoDepth = 0 := congrArg List.length hHistory
      refine ⟨document, ?_, hDepth, hText⟩
      rw [hDepth]
      rfl
  | @cons text older group history hRevert _ _ ih =>
      have hUndo := undo_cons hHistory (hText ▸ hRevert)
      obtain ⟨oldest, hOldest, hEnd⟩ :=
        @ih { document with text := older, selection := group.before, history := history } rfl rfl
      refine ⟨oldest, ?_, hEnd⟩
      have hDepth : document.undoDepth = history.length + 1 := congrArg List.length hHistory
      rw [hDepth, undoTimes, hUndo]
      exact hOldest

namespace Recoverable

theorem ofText (text : List Char) (selection : Selection)
    (hSelection : fits text (selection.clamp text.length)) :
    Recoverable text fits (Document.ofText text selection) text :=
  ⟨rfl, .nil, nofun, hSelection⟩

/-- With no change in an open group, the text is the settled one. -/
theorem text_eq (h : Recoverable start fits document settled)
    (hUnchanged : document.pendingChanges = []) : settled = document.text := by
  have hRevert := h.revert
  rw [hUnchanged] at hRevert
  exact (Except.ok.inj hRevert).symm

theorem restoresTo (h : Recoverable start fits document settled)
    (hClosed : document.pending = none) : document.RestoresTo start := by
  have hHistory := h.history
  rw [h.text_eq (pendingChanges_of_closed hClosed)] at hHistory
  exact hHistory.restoresTo

theorem select (h : Recoverable start fits document settled)
    (hFits : ∀ {text selection}, selection.Within text.length → fits text selection)
    {selection : Selection} (hSelect : document.select selection = .ok edited) :
    Recoverable start fits edited settled := by
  rw [select_eq] at hSelect
  split at hSelect
  · cases hSelect
  next hAnchor =>
  split at hSelect
  · cases hSelect
  next hHead =>
  cases hSelect
  exact ⟨h.revert, h.history, h.before, hFits ⟨Nat.not_lt.mp hAnchor, Nat.not_lt.mp hHead⟩⟩

/-- A change goes on top of those of the open group. Without one it is a group of its own, and the
text before it is settled. -/
theorem changed (h : Recoverable start fits document settled)
    (hFits : ∀ {text selection}, selection.Within text.length → fits text selection)
    {range : Range} (text : List Char) (hHigh : range.high ≤ document.length) :
    ∃ settled, Recoverable start fits (document.changed range text) settled := by
  have hBack := revert_changed text hHigh
  have hLow : (document.text.take range.low).length = range.low :=
    List.length_take_of_le (Nat.le_trans range.low_le_high hHigh)
  have hCaret : fits (document.changed range text).text
      (document.changed range text).selection := by
    apply hFits
    rw [changed_text, changed_selection]
    apply Selection.within_caret
    rw [List.length_append, List.length_append, hLow]
    exact Nat.le_add_right _ _
  rw [← changed_text] at hBack
  have hPending := changed_pending range text document
  have hHistory := changed_history range text document
  cases hOpen : document.pending with
  | none =>
      rw [hOpen] at hPending hHistory
      have hSettled : settled = document.text := h.text_eq (pendingChanges_of_closed hOpen)
      refine ⟨(document.changed range text).text, ?_, ?_, ?_, hCaret⟩
      · rw [pendingChanges, hPending]
        rfl
      · rw [hHistory]
        exact .cons hBack h.selection (hSettled ▸ h.history)
      · rw [hPending]
        exact nofun
  | some group =>
      rw [hOpen] at hPending hHistory
      refine ⟨settled, ?_, ?_, ?_, hCaret⟩
      · have hOlder := h.revert
        rw [pendingChanges, hOpen] at hOlder
        rw [pendingChanges, hPending, Option.map_some, Option.map_some, Option.getD_some,
          ← List.singleton_append, Change.revertAll_append, hBack]
        exact hOlder
      · rw [hHistory]
        exact h.history
      · rw [hPending]
        intro opened hMem
        obtain rfl := Option.some.inj hMem
        exact h.before group hOpen

theorem replace (h : Recoverable start fits document settled)
    (hFits : ∀ {text selection}, selection.Within text.length → fits text selection)
    {range : Range} {text : List Char} (hReplace : document.replace range text = .ok edited) :
    ∃ settled, Recoverable start fits edited settled := by
  obtain ⟨hHigh, rfl | rfl⟩ := replace_cases hReplace
  · exact ⟨settled, h⟩
  · exact h.changed hFits text hHigh

/-- The outermost group begins at the text as it stands. -/
theorem openGroup (h : Recoverable start fits document settled) :
    Recoverable start fits document.openGroup settled := by
  cases hOpen : document.pending with
  | none =>
      have hSettled := h.text_eq (pendingChanges_of_closed hOpen)
      refine ⟨?_, h.history, ?_, h.selection⟩
      · rw [hSettled, pendingChanges, Document.openGroup, hOpen]
        rfl
      · intro group hMem
        rw [Document.openGroup, hOpen] at hMem
        obtain rfl := Option.some.inj hMem
        rw [hSettled]
        exact h.selection
  | some group =>
      refine ⟨?_, h.history, ?_, h.selection⟩
      · have hRevert := h.revert
        rw [pendingChanges, hOpen] at hRevert
        rw [pendingChanges, Document.openGroup, hOpen]
        exact hRevert
      · intro inner hMem
        rw [Document.openGroup, hOpen] at hMem
        obtain rfl := Option.some.inj hMem
        exact h.before group hOpen

/-- The changes of the outermost group go on top of the history, if there are any. -/
theorem closeGroup (h : Recoverable start fits document settled)
    (hClose : document.closeGroup = .ok edited) :
    ∃ settled, Recoverable start fits edited settled := by
  have hRevert := h.revert
  rw [pendingChanges] at hRevert
  cases hOpen : document.pending with
  | none =>
      rw [Document.closeGroup, hOpen] at hClose
      cases hClose
  | some pending =>
      obtain ⟨group, nested⟩ := pending
      rw [hOpen] at hRevert
      have hBefore := h.before _ hOpen
      cases nested with
      | succ nested =>
          rw [closeGroup_nested hOpen] at hClose
          cases hClose
          refine ⟨settled, hRevert, h.history, ?_, h.selection⟩
          intro outer hMem
          obtain rfl := Option.some.inj hMem
          exact hBefore
      | zero =>
          rw [closeGroup_outermost hOpen] at hClose
          cases hClose
          have hClosed : ∀ group : OpenGroup, none = some group →
              fits document.text group.group.before := by
            intro group hGroup
            cases hGroup
          refine ⟨document.text, rfl, ?_, hClosed, h.selection⟩
          dsimp only
          split
          next hNone =>
            have hSettled := h.text_eq (by
              rw [pendingChanges, hOpen]
              exact List.isEmpty_iff.mp hNone)
            exact hSettled ▸ h.history
          next => exact .cons hRevert hBefore h.history

/-- An undo that comes before any change in the open group finds the text that its group has left.
The open group then goes back to the older text. -/
theorem exists_undo (h : Recoverable start fits document settled)
    (hUnchanged : document.history ≠ [] → document.pendingChanges = []) :
    ∃ found older, document.undo = .ok (found, older) ∧
      ((document.history ≠ [] → ∀ group ∈ document.pending, fits older.text group.group.before) →
        ∃ settled, Recoverable start fits older settled) := by
  cases hHistory : document.history with
  | nil =>
      refine ⟨false, document, ?_, fun _ => ⟨settled, h⟩⟩
      rw [undo, hHistory]
  | cons group rest =>
      have hSome : document.history ≠ [] := by simp [hHistory]
      have hSettled := h.text_eq (hUnchanged hSome)
      have hPast := h.history
      rw [hHistory, hSettled] at hPast
      cases hPast with
      | @cons _ older _ _ hRevert hFits hOlder =>
          refine ⟨true, _, undo_cons hHistory hRevert, fun hBefore =>
            ⟨older, ?_, hOlder, ?_, hFits⟩⟩
          · change Change.revertAll document.pendingChanges older = .ok older
            rw [hUnchanged hSome]
            rfl
          · exact hBefore (by simp)

end Recoverable

/-- What an undo that finds something must meet: no change in the open group yet, and an older text
that the selection from before that group fits. -/
def Untouched (fits : List Char → Selection → Prop) (step : Step Document) : Prop :=
  step.command = .undo → step.before.history ≠ [] → step.before.pendingChanges = [] ∧
    ∀ group ∈ step.before.pending, fits step.after.text group.group.before

/-- No edit loses the way back, and no undo does that meets what it must. -/
theorem keeps_recoverable (fits : List Char → Selection → Prop)
    (hFits : ∀ {text selection}, selection.Within text.length → fits text selection) :
    Editor.Keeps (fun document : Document => ∃ settled, Recoverable start fits document settled)
      (Untouched fits) where
  replace := fun ⟨_, h⟩ hReplace => h.replace hFits hReplace
  select := fun ⟨settled, h⟩ hSelect => ⟨settled, h.select hFits hSelect⟩
  openGroup := fun ⟨settled, h⟩ => ⟨settled, h.openGroup⟩
  closeGroup := fun ⟨_, h⟩ hClose => h.closeGroup hClose
  undo := by
    intro document found older hRecoverable hUndo hUntouched
    obtain ⟨settled, h⟩ := hRecoverable
    obtain ⟨_, _, hFound, hOlder⟩ := h.exists_undo fun hSome => (hUntouched rfl hSome).1
    change document.undo = .ok (found, older) at hUndo
    rw [hUndo] at hFound
    cases hFound
    exact hOlder fun hSome => (hUntouched rfl hSome).2

/-- Every undo that finds something comes before any change in the open group. -/
def UndoesBeforeChanges (steps : List (Step Document)) : Prop :=
  ∀ step ∈ steps, step.command = .undo → step.before.history ≠ [] →
    step.before.pendingChanges = []

instance (steps : List (Step Document)) : Decidable (UndoesBeforeChanges steps) :=
  inferInstanceAs (Decidable (∀ step ∈ steps, _))

/-- Where an undo finds something while a group is open, the selection from before that group still
lies within the text. -/
def UndoesWithinSelections (steps : List (Step Document)) : Prop :=
  ∀ step ∈ steps, step.command = .undo → step.before.history ≠ [] →
    ∀ group ∈ step.before.pending, group.group.before.Within step.after.length

instance (steps : List (Step Document)) : Decidable (UndoesWithinSelections steps) :=
  inferInstanceAs (Decidable (∀ step ∈ steps, _))

/-- Undo is safe anywhere, also in an open group, as long as that group has not changed the text.
Every undo succeeds, and whenever no group is open, undoing all that can be undone gives the first
text back. The selection stays within the text if the one that an open group goes back to does. -/
theorem undo_safe_before_changes (text : List Char) (selection : Selection)
    (commands : List Command)
    (hUndoes : UndoesBeforeChanges (Editor.runEach commands (ofText text selection)).steps) :
    let course := Editor.runEach commands (ofText text selection)
    (∀ step ∈ course.steps, step.command = .undo →
      ∃ found, step.before.undo = .ok (found, step.after)) ∧
    (∀ step ∈ course.steps, step.after.pending = none → step.after.RestoresTo text) ∧
    (UndoesWithinSelections course.steps → ∀ step ∈ course.steps, step.after.InBounds) ∧
    course.final = commands.foldl (fun document command => (command.run.run document).2)
      (ofText text selection) := by
  intro course
  have hText := Editor.throughout_runEach (keeps_recoverable (fun _ _ => True)
    fun _ => trivial) ⟨text, .ofText text selection trivial⟩ commands
    fun step hMem hUndo hSome => ⟨hUndoes step hMem hUndo hSome, fun _ _ => trivial⟩
  refine ⟨?_, ?_, ?_, Editor.runEach_document commands _⟩
  · intro step hMem hUndo
    rcases hText.undoes step hMem hUndo with hDone | ⟨failure, hFailed, -⟩
    · exact hDone
    · obtain ⟨settled, h⟩ := (hText.steps step hMem).1
      obtain ⟨_, _, hFound, -⟩ := h.exists_undo (hUndoes step hMem hUndo)
      change step.before.undo = .error failure at hFailed
      rw [hFailed] at hFound
      cases hFound
  · intro step hMem hClosed
    obtain ⟨settled, h⟩ := (hText.steps step hMem).2
    exact h.restoresTo hClosed
  · intro hWithin step hMem
    have hBounds := Editor.throughout_runEach
      (keeps_recoverable (fun text selection => selection.Within text.length) id)
      ⟨text, .ofText text selection (selection.within_clamp text.length)⟩ commands
      fun step hMem hUndo hSome =>
        ⟨hUndoes step hMem hUndo hSome, hWithin step hMem hUndo hSome⟩
    obtain ⟨settled, h⟩ := (hBounds.steps step hMem).2
    exact h.selection

/-- One undo finds nothing while a group holds a change, and one is made in a group before its first
change. -/
theorem undo_safe_before_changes_of_two_groups :
    let course := Editor.runEach
      [.openGroup, .insert ['z'], .undo, .closeGroup, .openGroup, .undo, .insert ['y'], .closeGroup]
      (ofText ['a', 'b'] ⟨1, 2⟩)
    UndoesBeforeChanges course.steps ∧ UndoesWithinSelections course.steps ∧
      (∀ step ∈ course.steps, step.command = .undo →
        ∃ found, step.before.undo = .ok (found, step.after)) ∧
      (∀ step ∈ course.steps, step.after.pending = none → step.after.RestoresTo ['a', 'b']) ∧
      (∀ step ∈ course.steps, step.after.InBounds) ∧ course.final.text = ['a', 'y'] := by
  intro course
  have hUndoes : UndoesBeforeChanges course.steps := by decide
  have hWithin : UndoesWithinSelections course.steps := by decide
  obtain ⟨hDone, hBack, hBounds, -⟩ := undo_safe_before_changes ['a', 'b'] ⟨1, 2⟩ _ hUndoes
  exact ⟨hUndoes, hWithin, hDone, hBack, hBounds hWithin, rfl⟩

/-- Undo is not safe in every open group. Once the group has removed the text of an older change,
undoing that change fails for good; once it has moved that text, undoing takes away other text, and
the first text does not come back. A group that outlives an undo may go back to a selection that the
older text does not have. -/
theorem undo_unsafe_in_open_group :
    let removed := Editor.runEach [.insert ['a', 'b', 'c'], .openGroup, .replace ⟨0, 3⟩ [], .undo]
      (ofText [] (.caret 0))
    let moved := Editor.runEach
      [.insert ['a', 'b'], .openGroup, .replace ⟨0, 0⟩ ['z', 'z'], .undo, .closeGroup]
      (ofText ['q'] (.caret 1))
    let outlived := Editor.runEach
      [.insert ['a', 'b', 'c'], .openGroup, .undo, .insert ['x'], .closeGroup, .undo]
      (ofText [] (.caret 0))
    removed.answer.getLast? = some (.error (.lostRange 0 3)) ∧
      (moved.final.pending = none ∧ ¬ moved.final.RestoresTo ['q']) ∧
      ¬ outlived.final.InBounds := by
  intro removed moved outlived
  refine ⟨rfl, ⟨rfl, ?_⟩, ?_⟩
  · rintro ⟨oldest, hUndone, -, hText⟩
    have hOldest : undoTimes moved.final.undoDepth moved.final =
        .ok ⟨['b'], .caret 3, [], none⟩ := by rfl
    rw [hOldest] at hUndone
    cases hUndone
    cases hText
  · intro hBounds
    exact absurd hBounds.head (by decide)

end EditAssist.Document
