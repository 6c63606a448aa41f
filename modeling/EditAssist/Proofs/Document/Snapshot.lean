import EditAssist.Proofs.Document.Editor
import EditAssist.Proofs.Document.Reversal

/-! An editor that undoes by restoring whole texts, and the proof that a document, which only
keeps the changes, cannot be told from it. What holds throughout a run is `Agrees`: the history,
replayed group by group, gives the snapshots one after the other, and an open group leads back
to the snapshot from before it. -/
namespace EditAssist

structure Snapshot where
  text : List Char
  selection : Selection
  deriving DecidableEq, Repr

/-- The outermost open group: what stood before it, whether anything has changed since, and how
many groups have been opened inside it. -/
structure OpenSnapshot where
  before : Snapshot
  changed : Bool
  nested : Nat
  deriving DecidableEq, Repr

/-- A text with a selection and the snapshots to go back to, newest first. -/
structure SnapshotEditor where
  text : List Char
  selection : Selection
  past : List Snapshot := []
  pending : Option OpenSnapshot := none
  deriving DecidableEq, Repr

namespace SnapshotEditor

/-- An editor with nothing to undo. The selection is moved back into the text. -/
def ofText (text : List Char) (selection : Selection) : SnapshotEditor :=
  { text := text, selection := selection.clamp text.length }

/-- Keeps what stands before a change: as a snapshot, or by marking the open group. -/
def remember (editor : SnapshotEditor) : SnapshotEditor :=
  match editor.pending with
  | none => { editor with past := ⟨editor.text, editor.selection⟩ :: editor.past }
  | some group => { editor with pending := some { group with changed := true } }

def select (selection : Selection) (editor : SnapshotEditor) : Except Failure SnapshotEditor :=
  if editor.text.length < selection.anchor then
    .error (.offsetOutOfRange selection.anchor editor.text.length)
  else if editor.text.length < selection.head then
    .error (.offsetOutOfRange selection.head editor.text.length)
  else .ok { editor with selection := selection }

/-- Puts `text` in the place of a range and leaves the caret after it, once the state before is
remembered. Nothing is remembered where nothing is removed or inserted. -/
def replace (range : Range) (text : List Char) (editor : SnapshotEditor) :
    Except Failure SnapshotEditor :=
  if editor.text.length < range.stop then
    .error (.offsetOutOfRange range.stop editor.text.length)
  else if editor.text.length < range.start then
    .error (.offsetOutOfRange range.start editor.text.length)
  else if range.low = range.high ∧ text = [] then .ok editor
  else .ok { editor.remember with
    text := editor.text.take range.low ++ text ++ editor.text.drop range.high
    selection := .caret (range.low + text.length) }

/-- Opens a group. The outermost one takes the snapshot. -/
def openGroup (editor : SnapshotEditor) : SnapshotEditor :=
  { editor with
    pending := some (match editor.pending with
      | none => ⟨⟨editor.text, editor.selection⟩, false, 0⟩
      | some group => { group with nested := group.nested + 1 }) }

/-- Closes the innermost group. The outermost one keeps its snapshot if anything has changed. -/
def closeGroup (editor : SnapshotEditor) : Except Failure SnapshotEditor :=
  match editor.pending with
  | none => .error .unbalancedGroup
  | some ⟨before, changed, nested + 1⟩ =>
    .ok { editor with pending := some ⟨before, changed, nested⟩ }
  | some ⟨before, changed, 0⟩ =>
    .ok { editor with
      pending := none
      past := if changed then before :: editor.past else editor.past }

/-- Restores the newest snapshot and says whether there was one. -/
def undo (editor : SnapshotEditor) : Except Failure (Bool × SnapshotEditor) :=
  match editor.past with
  | [] => .ok (false, editor)
  | snapshot :: older =>
    .ok (true,
      { editor with text := snapshot.text, selection := snapshot.selection, past := older })

instance : Editor SnapshotEditor where
  text := text
  selection := selection
  undoDepth := fun editor => editor.past.length
  openGroups := fun editor =>
    match editor.pending with
    | none => 0
    | some group => group.nested + 1
  replace := replace
  select := select
  openGroup := openGroup
  closeGroup := closeGroup
  undo := undo

end SnapshotEditor

/-- The groups of a history, taken back one after the other from `text` on, give the snapshots. -/
inductive Replays : List Char → List ChangeGroup → List Snapshot → Prop where
  | nil (text : List Char) : Replays text [] []
  | cons {text : List Char} {group : ChangeGroup} {older : List ChangeGroup}
      {snapshot : Snapshot} {past : List Snapshot}
      (hRevert : Change.revertAll group.changes text = .ok snapshot.text)
      (hBefore : group.before = snapshot.selection)
      (hOlder : Replays snapshot.text older past) :
      Replays text (group :: older) (snapshot :: past)

/-- The document keeps in changes what the other editor keeps in snapshots. -/
inductive Agrees : Document → SnapshotEditor → Prop where
  | closed {text : List Char} {selection : Selection} {history : List ChangeGroup}
      {past : List Snapshot} (hReplays : Replays text history past) :
      Agrees ⟨text, selection, history, none⟩ ⟨text, selection, past, none⟩
  | opened {text : List Char} {selection : Selection} {history : List ChangeGroup}
      {past : List Snapshot} {changes : List Change} {before : Snapshot} {changed : Bool}
      {nested : Nat} (hRevert : Change.revertAll changes text = .ok before.text)
      (hChanged : changes = [] ↔ changed = false)
      (hReplays : Replays before.text history past) :
      Agrees ⟨text, selection, history, some ⟨⟨changes, before.selection⟩, nested⟩⟩
        ⟨text, selection, past, some ⟨before, changed, nested⟩⟩

/-- Two edits agree if both fail for the same cause, or both succeed and their editors agree. -/
inductive EditsAgree : Except Failure Document → Except Failure SnapshotEditor → Prop where
  | ok {document : Document} {editor : SnapshotEditor} (hAgrees : Agrees document editor) :
      EditsAgree (.ok document) (.ok editor)
  | error (failure : Failure) : EditsAgree (.error failure) (.error failure)

/-- What can be seen of a step. -/
def Step.view {σ : Type} [Editor σ] (step : Step σ) : Command × View :=
  (step.command, Editor.view step.after)

/-- Two courses agree if every step looks the same, the answers are the same, and the editors
agree in the end. -/
structure CoursesAgree {α : Type} (left : Course Document α) (right : Course SnapshotEditor α) :
    Prop where
  steps : left.steps.map Step.view = right.steps.map Step.view
  answer : left.answer = right.answer
  final : Agrees left.final right.final

variable {document : Document} {editor : SnapshotEditor}

theorem Replays.length_eq {text : List Char} {history : List ChangeGroup} {past : List Snapshot}
    (hReplays : Replays text history past) : history.length = past.length := by
  induction hReplays with
  | nil => rfl
  | cons _ _ _ ih => rw [List.length_cons, List.length_cons, ih]

namespace Agrees

theorem ofText (text : List Char) (selection : Selection) :
    Agrees (Document.ofText text selection) (SnapshotEditor.ofText text selection) :=
  .closed (.nil text)

theorem text_eq (hAgrees : Agrees document editor) : document.text = editor.text := by
  cases hAgrees <;> rfl

theorem selection_eq (hAgrees : Agrees document editor) :
    document.selection = editor.selection := by
  cases hAgrees <;> rfl

/-- Editors that agree look the same. -/
theorem view_eq (hAgrees : Agrees document editor) : Editor.view document = Editor.view editor := by
  cases hAgrees with
  | closed hReplays => exact congrArg (View.mk _ _) hReplays.length_eq
  | opened _ _ hReplays => exact congrArg (View.mk _ _) hReplays.length_eq

theorem select (hAgrees : Agrees document editor) (selection : Selection) :
    EditsAgree (document.select selection) (editor.select selection) := by
  rw [Document.select_eq, SnapshotEditor.select, Document.length, hAgrees.text_eq]
  split
  · exact .error _
  split
  · exact .error _
  apply EditsAgree.ok
  cases hAgrees with
  | closed hReplays => exact .closed hReplays
  | opened hRevert hChanged hReplays => exact .opened hRevert hChanged hReplays

/-- A change that is recorded leads back to the snapshot that is taken. -/
theorem changed (hAgrees : Agrees document editor) {range : Range} (text : List Char)
    (hHigh : range.high ≤ document.length) :
    Agrees (document.changed range text)
      { editor.remember with
        text := editor.text.take range.low ++ text ++ editor.text.drop range.high
        selection := .caret (range.low + text.length) } := by
  have hBack := Document.revert_changed text hHigh
  cases hAgrees with
  | closed hReplays => exact .closed (.cons hBack rfl hReplays)
  | @opened _ _ _ _ changes _ _ _ hRevert _ hReplays =>
      refine .opened ?_ (by simp) hReplays
      rw [← List.singleton_append, Change.revertAll_append, hBack]
      exact hRevert

theorem replace (hAgrees : Agrees document editor) (range : Range) (text : List Char) :
    EditsAgree (document.replace range text) (editor.replace range text) := by
  have hLength : document.length = editor.text.length := congrArg List.length hAgrees.text_eq
  rw [Document.replace_eq, SnapshotEditor.replace, ← hLength]
  split
  · exact .error _
  next hStop =>
  split
  · exact .error _
  next hStart =>
  split
  · exact .ok hAgrees
  · refine .ok (hAgrees.changed text ?_)
    simp only [Range.high]
    omega

theorem openGroup (hAgrees : Agrees document editor) :
    Agrees document.openGroup editor.openGroup := by
  cases hAgrees with
  | @closed text selection history past hReplays =>
      exact @Agrees.opened text selection history past [] ⟨text, selection⟩ false 0 rfl
        ⟨fun _ => rfl, fun _ => rfl⟩ hReplays
  | opened hRevert hChanged hReplays => exact .opened hRevert hChanged hReplays

theorem closeGroup (hAgrees : Agrees document editor) :
    EditsAgree document.closeGroup editor.closeGroup := by
  cases hAgrees with
  | closed hReplays => exact .error _
  | @opened text _ history past changes before changed nested hRevert hChanged hReplays =>
      cases nested with
      | succ nested => exact .ok (.opened hRevert hChanged hReplays)
      | zero =>
          apply EditsAgree.ok
          cases changed with
          | true =>
              cases changes with
              | nil => cases hChanged.mp rfl
              | cons change older => exact .closed (.cons hRevert rfl hReplays)
          | false =>
              -- Without changes the text is still that of the snapshot.
              obtain rfl : changes = [] := hChanged.mpr rfl
              cases hRevert
              exact .closed hReplays

/-- Undoing goes back to the newest snapshot, as long as no group has changed the text since. -/
theorem undo (hAgrees : Agrees document editor) (hClosed : document.openGroups = 0) :
    (document.undo = .ok (false, document) ∧ editor.undo = .ok (false, editor)) ∨
      ∃ older restored, document.undo = .ok (true, older) ∧
        editor.undo = .ok (true, restored) ∧ Agrees older restored := by
  cases hAgrees with
  | closed hReplays =>
      cases hReplays with
      | nil text => exact .inl ⟨rfl, rfl⟩
      | cons hRevert hBefore hOlder =>
          refine .inr ⟨_, _, Document.undo_cons rfl hRevert, rfl, ?_⟩
          rw [hBefore]
          exact .closed hOlder
  | opened hRevert hChanged hReplays => cases hClosed

end Agrees

namespace CoursesAgree

open Editor

theorem once {left : Except Failure Document} {right : Except Failure SnapshotEditor}
    (command : Command) (hAgrees : Agrees document editor) (hEdits : EditsAgree left right) :
    CoursesAgree (once command document left) (once command editor right) := by
  cases hEdits with
  | ok hEdited =>
      refine ⟨?_, rfl, hEdited⟩
      simp only [Editor.once, List.map_cons, List.map_nil, Step.view, hEdited.view_eq]
  | error failure =>
      refine ⟨?_, rfl, hAgrees⟩
      simp only [Editor.once, List.map_cons, List.map_nil, Step.view, hAgrees.view_eq]

theorem deleteSelection (hAgrees : Agrees document editor) :
    EditsAgree (Editor.deleteSelection document) (Editor.deleteSelection editor) := by
  simp only [Editor.deleteSelection, selection, hAgrees.selection_eq]
  split
  · exact .ok hAgrees
  · exact hAgrees.replace _ _

theorem goToLine (hAgrees : Agrees document editor) (number : Nat) :
    EditsAgree (Editor.goToLine number document) (Editor.goToLine number editor) := by
  simp only [Editor.goToLine, text, hAgrees.text_eq]
  cases Document.lineStart { text := editor.text } (number - 1) with
  | error failure => exact .error failure
  | ok offset => exact hAgrees.select _

theorem undone (hAgrees : Agrees document editor) (hClosed : document.openGroups = 0) :
    CoursesAgree (undone document document.undo) (undone editor editor.undo) := by
  rcases hAgrees.undo hClosed with ⟨hLeft, hRight⟩ | ⟨older, restored, hLeft, hRight, hOlder⟩
  · rw [hLeft, hRight]
    refine ⟨?_, rfl, hAgrees⟩
    simp only [Editor.undone, List.map_cons, List.map_nil, Step.view, hAgrees.view_eq]
  · rw [hLeft, hRight]
    refine ⟨?_, rfl, hOlder⟩
    simp only [Editor.undone, List.map_cons, List.map_nil, Step.view, hOlder.view_eq]

/-- A group looks the same from outside if its body does. -/
theorem enclose {left : Course Document (List Reply × Option Failure)}
    {right : Course SnapshotEditor (List Reply × Option Failure)}
    (hAgrees : Agrees document editor) (hInside : CoursesAgree left right) :
    CoursesAgree (enclose document left) (enclose editor right) := by
  have hOpened : Agrees (openGroup document) (openGroup editor) := hAgrees.openGroup
  have hClosed : EditsAgree (closeGroup left.final) (closeGroup right.final) :=
    hInside.final.closeGroup
  simp only [Editor.enclose, hInside.answer]
  generalize closeGroup left.final = leftClosed at hClosed ⊢
  generalize closeGroup right.final = rightClosed at hClosed ⊢
  cases right.answer.2.filter Failure.isFatal with
  | some fatal =>
      refine ⟨?_, rfl, hInside.final⟩
      simp only [List.map_cons, hInside.steps, Step.view, hOpened.view_eq]
  | none =>
      cases hClosed with
      | ok hFinal =>
          refine ⟨?_, rfl, hFinal⟩
          simp only [List.map_cons, List.map_append, List.map_nil, hInside.steps, Step.view,
            hOpened.view_eq, hFinal.view_eq]
      | error closing =>
          refine ⟨?_, rfl, hInside.final⟩
          simp only [List.map_cons, List.map_append, List.map_nil, hInside.steps, Step.view,
            hOpened.view_eq, hInside.final.view_eq]

mutual

/-- Every command looks the same on both editors, if it undoes nothing while a group is open. -/
theorem run {document : Document} {editor : SnapshotEditor} (command : Command)
    (hAgrees : Agrees document editor)
    (hUndoes : UndoesBetweenGroups (Editor.run command document).steps) :
    CoursesAgree (Editor.run command document) (Editor.run command editor) := by
  cases command with
  | insert text =>
      refine once _ hAgrees ?_
      simp only [Editor.insert, selection, hAgrees.selection_eq]
      exact hAgrees.replace _ _
  | deleteSelection => exact once _ hAgrees (deleteSelection hAgrees)
  | replace range text => exact once _ hAgrees (hAgrees.replace range text)
  | select selection => exact once _ hAgrees (hAgrees.select selection)
  | setCaret offset => exact once _ hAgrees (hAgrees.select (.caret offset))
  | goToLine number => exact once _ hAgrees (goToLine hAgrees number)
  | openGroup => exact once _ hAgrees (.ok hAgrees.openGroup)
  | closeGroup => exact once _ hAgrees hAgrees.closeGroup
  | undo =>
      refine undone hAgrees ?_
      have hStep : ∃ after, ⟨.undo, document, after⟩ ∈ (Editor.run .undo document).steps := by
        simp only [Editor.run, Editor.undone]
        cases Editor.undo document with
        | error failure => exact ⟨_, List.mem_singleton_self _⟩
        | ok result => exact ⟨_, List.mem_singleton_self _⟩
      obtain ⟨after, hMem⟩ := hStep
      exact hUndoes _ hMem rfl
  | group body =>
      refine enclose hAgrees (runAll body hAgrees.openGroup fun step hMem => hUndoes step ?_)
      simp only [Editor.run, Editor.enclose]
      split
      · exact List.mem_cons_of_mem _ hMem
      · exact List.mem_cons_of_mem _ (List.mem_append_left _ hMem)
      · exact List.mem_cons_of_mem _ (List.mem_append_left _ hMem)

/-- So does every list of commands. -/
theorem runAll {document : Document} {editor : SnapshotEditor} (commands : List Command)
    (hAgrees : Agrees document editor)
    (hUndoes : UndoesBetweenGroups (Editor.runAll commands document).steps) :
    CoursesAgree (Editor.runAll commands document) (Editor.runAll commands editor) := by
  cases commands with
  | nil => exact ⟨rfl, rfl, hAgrees⟩
  | cons command rest =>
      have hFirst : CoursesAgree (Editor.run command document) (Editor.run command editor) := by
        refine run command hAgrees fun step hMem => hUndoes step ?_
        simp only [Editor.runAll]
        split
        · exact hMem
        · exact List.mem_append_left _ hMem
      simp only [Editor.runAll] at hUndoes ⊢
      rw [← hFirst.answer]
      split
      · next failure _ => exact ⟨hFirst.steps, rfl, hFirst.final⟩
      · next reply hReply =>
          rw [hReply] at hUndoes
          have hRest := runAll rest hFirst.final fun step hMem =>
            hUndoes step (List.mem_append_right _ hMem)
          refine ⟨?_, ?_, hRest.final⟩
          · rw [List.map_append, List.map_append, hFirst.steps, hRest.steps]
          · rw [hRest.answer]

end

theorem runEach {document : Document} {editor : SnapshotEditor} (commands : List Command)
    (hAgrees : Agrees document editor)
    (hUndoes : UndoesBetweenGroups (Editor.runEach commands document).steps) :
    CoursesAgree (Editor.runEach commands document) (Editor.runEach commands editor) := by
  induction commands generalizing document editor with
  | nil => exact ⟨rfl, rfl, hAgrees⟩
  | cons command rest ih =>
      simp only [Editor.runEach] at hUndoes ⊢
      have hFirst := run command hAgrees fun step hMem =>
        hUndoes step (List.mem_append_left _ hMem)
      have hRest := ih hFirst.final fun step hMem => hUndoes step (List.mem_append_right _ hMem)
      refine ⟨?_, ?_, hRest.final⟩
      · rw [List.map_append, List.map_append, hFirst.steps, hRest.steps]
      · rw [hFirst.answer, hRest.answer]

end CoursesAgree

/-- Keeping changes refines keeping whole texts. Whatever commands run, in groups or not and
failing or not, text, selection and number of undos are the same after every step, and so are
all answers, if nothing is undone while a group is open. -/
theorem document_agrees_with_snapshots (text : List Char) (selection : Selection)
    (commands : List Command)
    (hUndoes : Editor.UndoesBetweenGroups
      (Editor.runEach commands (Document.ofText text selection)).steps) :
    let changes := Editor.runEach commands (Document.ofText text selection)
    let snapshots := Editor.runEach commands (SnapshotEditor.ofText text selection)
    changes.steps.map Step.view = snapshots.steps.map Step.view ∧
      changes.answer = snapshots.answer ∧
      changes.final = commands.foldl (fun document command => (command.run.run document).2)
        (Document.ofText text selection) := by
  have hAgree := CoursesAgree.runEach commands (.ofText text selection) hUndoes
  exact ⟨hAgree.steps, hAgree.answer, Editor.runEach_document commands _⟩

/-- A group that fails half way, one that is closed from inside to undo, and undos between them. -/
theorem document_agrees_with_snapshots_through_groups :
    Editor.UndoesBetweenGroups
        (Editor.runEach
          [.insert ['x'], .group [.replace ⟨2, 0⟩ [], .group [.insert ['y']], .select ⟨0, 9⟩],
            .undo, .group [.closeGroup, .undo, .openGroup, .insert ['z']], .undo]
          (Document.ofText ['a', 'b'] ⟨1, 2⟩)).steps ∧
      (Editor.runEach
          [.insert ['x'], .group [.replace ⟨2, 0⟩ [], .group [.insert ['y']], .select ⟨0, 9⟩],
            .undo, .group [.closeGroup, .undo, .openGroup, .insert ['z']], .undo]
          (Document.ofText ['a', 'b'] ⟨1, 2⟩)).steps.map Step.view =
        (Editor.runEach
          [.insert ['x'], .group [.replace ⟨2, 0⟩ [], .group [.insert ['y']], .select ⟨0, 9⟩],
            .undo, .group [.closeGroup, .undo, .openGroup, .insert ['z']], .undo]
          (SnapshotEditor.ofText ['a', 'b'] ⟨1, 2⟩)).steps.map Step.view :=
  ⟨by decide, (document_agrees_with_snapshots ['a', 'b'] ⟨1, 2⟩ _ (by decide)).1⟩

end EditAssist
