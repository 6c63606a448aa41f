import EditAssist.Proofs.Document.Edited
import EditAssist.Proofs.Document.Endings

/-! Runs that cannot fail. `Yields` says that a run gives an answer and what holds of that answer
and of the state it leaves; the rules follow the ways to put runs together. -/
namespace EditAssist

/-- The run gives an answer, and `post` holds of it and of the state after it. -/
def Yields {σ α : Type} (actions : ExceptT Failure (StateM σ) α) (state : σ)
    (post : α → σ → Prop) : Prop :=
  ∃ answer after, (ExceptT.run actions).run state = (.ok answer, after) ∧ post answer after

section Rules

variable {σ α β : Type} {state : σ}

theorem Yields.mono {actions : ExceptT Failure (StateM σ) α} {post weaker : α → σ → Prop}
    (hYields : Yields actions state post)
    (hPost : ∀ answer after, post answer after → weaker answer after) :
    Yields actions state weaker := by
  obtain ⟨answer, after, hRun, hHolds⟩ := hYields
  exact ⟨answer, after, hRun, hPost answer after hHolds⟩

/-- A run has one end only. -/
theorem yields_of_run {actions : ExceptT Failure (StateM σ) α} {answer : α} {after : σ}
    {post : α → σ → Prop} (hRun : (ExceptT.run actions).run state = (.ok answer, after)) :
    Yields actions state post ↔ post answer after := by
  constructor
  · intro hYields
    obtain ⟨_, _, hOther, hHolds⟩ := hYields
    rw [hRun] at hOther
    cases hOther
    exact hHolds
  · intro hHolds
    exact ⟨answer, after, hRun, hHolds⟩

theorem yields_pure {answer : α} {post : α → σ → Prop} :
    Yields (pure answer) state post ↔ post answer state :=
  yields_of_run rfl

/-- To give an answer is to end without a failure. -/
theorem yields_iff_ends {actions : ExceptT Failure (StateM σ) α} {post : α → σ → Prop} :
    Yields actions state post ↔ Ends actions state (fun _ => False) post := by
  rw [Ends]
  split
  next answer after hRun => exact yields_of_run hRun
  next failure after hRun =>
    constructor
    · rintro ⟨_, _, hOther, -⟩
      rw [hRun] at hOther
      cases hOther
    · exact False.elim

/-- The second part of a run has to cope with every way in which the first one may end. -/
theorem yields_bind {first : ExceptT Failure (StateM σ) α}
    {next : α → ExceptT Failure (StateM σ) β} {post : β → σ → Prop} :
    Yields (first >>= next) state post ↔
      Yields first state fun answer after => Yields (next answer) after post := by
  simp only [yields_iff_ends, ends_bind]

end Rules

namespace Editing

open Document (Undoable Edited)

variable {α : Type} {document : Document}

theorem yields_current {post : Document → Document → Prop} :
    Yields current document post ↔ post document document :=
  yields_of_run rfl

theorem yields_ask {question : Document → Except Failure α} {answer : α}
    {post : α → Document → Prop} (hAnswer : question document = .ok answer)
    (hHolds : post answer document) : Yields (ask question) document post := by
  refine (yields_of_run ?_).mpr hHolds
  change (ask question).run document = _
  rw [run_ask, hAnswer]

theorem yields_act {edit : Document → Except Failure Document} {edited : Document}
    {post : Unit → Document → Prop} (hEdit : edit document = .ok edited)
    (hHolds : post () edited) : Yields (act edit) document post :=
  (yields_of_run (run_act_of_ok hEdit)).mpr hHolds

/-- A group around undoable edits can be closed. It leaves their text and their selection and is
itself one undo, and something if they are something. -/
theorem yields_grouped {body : Editing α} (limit : Nat) {post : α → Document → Prop}
    (hBody : Yields body document.openGroup fun answer edited =>
      Undoable limit document.openGroup edited ∧
        ∀ closed, closed.text = edited.text → closed.selection = edited.selection →
          Undoable 1 document closed → (edited ≠ document.openGroup → closed ≠ document) →
          post answer closed) :
    Yields (grouped body) document post := by
  obtain ⟨answer, edited, hRun, hUndoable, hPost⟩ := hBody
  obtain ⟨closed, hClose, hText, hSelection, hUndone, hChanged⟩ :=
    Document.closeGroup_of_undoable hUndoable
  refine ⟨answer, closed, ?_, hPost closed hText hSelection hUndone hChanged⟩
  change (grouped body).run document = _
  change body.run document.openGroup = _ at hRun
  rw [grouped, run_ofFunction, hRun]
  simp only [hClose]

/-- A group around edits that stay within the text stays within it too, and shows what they
show. -/
theorem yields_grouped_showing {body : Editing α} (limit : Nat)
    {shown : List Char → Selection → Prop}
    (hBody : Yields body document.openGroup fun _ edited =>
      Edited limit document.openGroup edited ∧ shown edited.text edited.selection) :
    Yields (grouped body) document fun _ closed =>
      Edited 1 document closed ∧ shown closed.text closed.selection := by
  refine yields_grouped limit (hBody.mono ?_)
  rintro answer edited ⟨hEdited, hShown⟩
  refine ⟨hEdited.undoable, fun closed hText hSelection hUndone _ => ⟨⟨?_, hUndone⟩, ?_⟩⟩
  · rw [Document.InBounds, Document.length, hText, hSelection]
    exact hEdited.inBounds
  · rw [hText, hSelection]
    exact hShown

theorem yields_grouped_edited {body : Editing α} (limit : Nat)
    (hBody : Yields body document.openGroup fun _ edited =>
      Edited limit document.openGroup edited) :
    Yields (grouped body) document fun _ closed => Edited 1 document closed := by
  apply Yields.mono (@yields_grouped_showing α document body limit (fun _ _ => True) ?_)
  · exact fun _ _ h => h.1
  · exact hBody.mono fun _ _ h => ⟨h, trivial⟩

/-- A group around edits that change something changes something itself. -/
theorem yields_grouped_changing {body : Editing α} (limit : Nat)
    {shown : List Char → Selection → Prop}
    (hBody : Yields body document.openGroup fun _ edited =>
      Undoable limit document.openGroup edited ∧ edited ≠ document.openGroup ∧
        shown edited.text edited.selection) :
    Yields (grouped body) document fun _ closed =>
      Undoable 1 document closed ∧ closed ≠ document ∧ shown closed.text closed.selection := by
  refine yields_grouped limit (hBody.mono ?_)
  rintro answer edited ⟨hUndoable, hSome, hShown⟩
  refine ⟨hUndoable, fun closed hText hSelection hUndone hChanged => ⟨hUndone, hChanged hSome, ?_⟩⟩
  rw [hText, hSelection]
  exact hShown

end Editing

end EditAssist
