import EditAssist.Proofs.Assist.Reacting
import EditAssist.Proofs.Document.TwoRuns

/-! Two assistants side by side. Questions and edits see the documents alone, and as long as the
assistants are the same, they show the same and ask the same. -/
namespace EditAssist

theorem Editing.run_ask_of_ok {α : Type} {question : Document → Except Failure α}
    {document : Document} {answer : α} (hAnswer : question document = .ok answer) :
    (ask question).run document = (.ok answer, document) := by
  rw [run_ask, hAnswer]

namespace Assisting

open Workspace (Quiet)

variable {α β : Type} {left right : Workspace} {last : β → Workspace → Workspace → Prop}

theorem agree_document {next other : Document → Assisting β}
    (hAgree : Agree (next left.document) (other right.document) left right last) :
    Agree (document >>= next) (document >>= other) left right last :=
  agree_bind_of_runs rfl rfl hAgree

theorem agree_assistant {next other : Assistant → Assisting β} (hQuiet : left.Quiet right)
    (hAgree : Agree (next left.assistant) (other left.assistant) left right last) :
    Agree (assistant >>= next) (assistant >>= other) left right last := by
  refine agree_bind_of_runs rfl rfl ?_
  rw [hQuiet.assistant]
  exact hAgree

theorem agree_setOverlay {overlay : Overlay} {last : Unit → Workspace → Workspace → Prop}
    (hLast : last () (left.showing overlay) (right.showing overlay)) :
    Agree (setOverlay overlay) (setOverlay overlay) left right last :=
  ⟨(), _, _, rfl, rfl, hLast⟩

theorem run_edit_of_run {edits : Editing α} {answer : α} {edited : Document}
    (hRun : edits.run left.document = (.ok answer, edited)) :
    (ExceptT.run (edit edits)).run left = (.ok answer, { left with document := edited }) := by
  change (edit edits).run left = _
  rw [run_edit, hRun]

theorem agree_edit {first second : Editing α} {last : α → Workspace → Workspace → Prop}
    (hAgree : Agree first second left.document right.document fun answer leftAfter rightAfter =>
      last answer { left with document := leftAfter } { right with document := rightAfter }) :
    Agree (edit first) (edit second) left right last := by
  obtain ⟨answer, leftAfter, rightAfter, hFirst, hSecond, hLast⟩ := hAgree
  exact ⟨answer, _, _, run_edit_of_run hFirst, run_edit_of_run hSecond, hLast⟩

/-- The same is asked of both documents, and the answers may differ. -/
theorem agree_ask {question : Document → Except Failure α} {answer given : α}
    {next other : α → Assisting β}
    (hLeft : question left.document = .ok answer) (hRight : question right.document = .ok given)
    (hAgree : Agree (next answer) (other given) left right last) :
    Agree (edit (Editing.ask question) >>= next) (edit (Editing.ask question) >>= other) left right
      last :=
  agree_bind_of_runs (run_edit_of_run (Editing.run_ask_of_ok hLeft))
    (run_edit_of_run (Editing.run_ask_of_ok hRight)) hAgree

theorem agree_act {change : Document → Except Failure Document} {leftAfter rightAfter : Document}
    {next other : Unit → Assisting β}
    (hLeft : change left.document = .ok leftAfter) (hRight : change right.document = .ok rightAfter)
    (hAgree : Agree (next ()) (other ()) { left with document := leftAfter }
      { right with document := rightAfter } last) :
    Agree (edit (Editing.act change) >>= next) (edit (Editing.act change) >>= other) left right
      last :=
  agree_bind_of_runs (run_edit_of_run (Editing.run_act_of_ok hLeft))
    (run_edit_of_run (Editing.run_act_of_ok hRight)) hAgree

/-- Both workspaces ask the same and are answered the same. -/
theorem agree_lookUp {source : SymbolSource} {catalogue : Catalogue} {object : List Char}
    {next other : List (List Char) → Assisting β} (hQuiet : left.Quiet right)
    (hAgree : ∀ lookups, Agree (next (source ⟨catalogue, left.assistant.file, object⟩))
      (other (source ⟨catalogue, left.assistant.file, object⟩))
      { left with lookups := lookups } { right with lookups := lookups } last) :
    Agree (lookUp source catalogue object >>= next) (lookUp source catalogue object >>= other)
      left right last := by
  have hFile : right.assistant.file = left.assistant.file := congrArg (·.file) hQuiet.assistant
  refine agree_bind_of_runs rfl rfl ?_
  rw [hFile, hQuiet.lookups]
  exact hAgree _

end Assisting

end EditAssist
