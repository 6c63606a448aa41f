import EditAssist.Document.Edit

/-! Sequences of edits. What a sequence did before it failed stays done, so a failure comes with
the document as it then stands. -/
namespace EditAssist

/-- A run over a document that gives an answer or fails. -/
abbrev Editing (α : Type) : Type :=
  ExceptT Failure (StateM Document) α

namespace Editing

variable {α β : Type}

/-- The answer or the failure of a run, and the document after it. -/
def run (edits : Editing α) (document : Document) : Except Failure α × Document :=
  (ExceptT.run edits).run document

def ofFunction (edits : Document → Except Failure α × Document) : Editing α :=
  ExceptT.mk fun document => edits document

def current : Editing Document :=
  ofFunction fun document => (.ok document, document)

def ask (question : Document → Except Failure α) : Editing α :=
  ofFunction fun document => (question document, document)

/-- Makes one edit. If it fails, the document stays as it is. -/
def act (edit : Document → Except Failure Document) : Editing Unit :=
  ofFunction fun document =>
    match edit document with
    | .ok edited => (.ok (), edited)
    | .error failure => (.error failure, document)

/-- Runs `body` in a group of its own and closes the group even when it failed. A fatal failure
of the body is reported first, then one of closing the group, then any other of the body. -/
def grouped (body : Editing α) : Editing α :=
  ofFunction fun document =>
    match body.run document.openGroup with
    | (.ok answer, edited) =>
      match edited.closeGroup with
      | .ok closed => (.ok answer, closed)
      | .error closing => (.error closing, edited)
    | (.error failure, edited) =>
      if failure.isFatal then (.error failure, edited)
      else
        match edited.closeGroup with
        | .ok closed => (.error failure, closed)
        | .error closing => (.error closing, edited)

@[simp] theorem run_ofFunction (edits : Document → Except Failure α × Document)
    (document : Document) : (ofFunction edits).run document = edits document :=
  rfl

/-- The second part of a run starts where the first one ended, unless that one failed. -/
theorem run_bind (first : Editing α) (next : α → Editing β) (document : Document) :
    run (first >>= next) document =
      match first.run document with
      | (.ok answer, edited) => (next answer).run edited
      | (.error failure, edited) => (.error failure, edited) := by
  simp only [run, ExceptT.run_bind, StateT.run_bind]
  cases StateT.run (ExceptT.run first) document with
  | mk result edited => cases result <;> rfl

@[simp] theorem run_ask (question : Document → Except Failure α) (document : Document) :
    (ask question).run document = (question document, document) :=
  rfl

theorem run_act_of_ok {edit : Document → Except Failure Document} {document edited : Document}
    (hEdit : edit document = .ok edited) : (act edit).run document = (.ok (), edited) := by
  simp [act, hEdit]

theorem run_act_of_error {edit : Document → Except Failure Document} {document : Document}
    {failure : Failure} (hEdit : edit document = .error failure) :
    (act edit).run document = (.error failure, document) := by
  simp [act, hEdit]

end Editing

end EditAssist
