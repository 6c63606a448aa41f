import EditAssist.Document.Basic

/-! Changes to a document and the way back. Each operation here either succeeds or leaves the
document as it was, since a failure carries no document. -/
namespace EditAssist

/-- Takes a change back. The characters it put in must still be within the text. -/
def Change.revert (change : Change) (text : List Char) : Except Failure (List Char) :=
  if change.start + change.inserted ≤ text.length then
    .ok (text.take change.start ++ change.removed ++ text.drop (change.start + change.inserted))
  else .error (.lostRange change.start change.inserted)

namespace Document

/-- Selects within the text. The anchor is checked before the head. -/
def select (selection : Selection) (document : Document) : Except Failure Document := do
  document.checkOffset selection.anchor
  document.checkOffset selection.head
  return { document with selection := selection }

def setCaret (offset : Nat) (document : Document) : Except Failure Document :=
  document.select (.caret offset)

/-- Moves the caret to the start of a line, where lines are counted from one. -/
def goToLine (number : Nat) (document : Document) : Except Failure Document := do
  let offset ← document.lineStart (number - 1)
  document.setCaret offset

/-- Remembers a change, in the open group or as a group of its own. -/
def record (change : Change) (before : Selection) (document : Document) : Document :=
  match document.pending with
  | some group =>
    { document with
      pending := some { group with
        group := { group.group with changes := change :: group.group.changes } } }
  | none => { document with history := ⟨[change], before⟩ :: document.history }

/-- Puts `text` in the place of a range, reversed or not, and leaves the caret after it. The
end of the range is checked before its start. Nothing in the place of nothing is no change. -/
def replace (range : Range) (text : List Char) (document : Document) :
    Except Failure Document := do
  document.checkOffset range.stop
  document.checkOffset range.start
  let removed := (document.text.take range.high).drop range.low
  if removed.isEmpty && text.isEmpty then return document
  return { document with
    text := document.text.take range.low ++ text ++ document.text.drop range.high
    selection := .caret (range.low + text.length) }.record
      ⟨range.low, removed, text.length⟩ document.selection

/-- Types a text in the place of the selection. -/
def insert (text : List Char) (document : Document) : Except Failure Document :=
  document.replace document.selection.range text

def deleteSelection (document : Document) : Except Failure Document :=
  if document.selection.isEmpty then .ok document
  else document.replace document.selection.range []

/-- Opens a group of changes that will be undone together. Groups nest. -/
def openGroup (document : Document) : Document :=
  { document with
    pending := some (match document.pending with
      | none => ⟨⟨[], document.selection⟩, 0⟩
      | some group => { group with nested := group.nested + 1 }) }

/-- Closes the innermost group. The changes of the outermost one can be undone from now on, if
there are any. -/
def closeGroup (document : Document) : Except Failure Document :=
  match document.pending with
  | none => .error .unbalancedGroup
  | some ⟨group, nested + 1⟩ => .ok { document with pending := some ⟨group, nested⟩ }
  | some ⟨group, 0⟩ =>
    .ok { document with
      pending := none
      history := if group.changes.isEmpty then document.history else group :: document.history }

/-- Takes back the newest group in the history, newest change first, and says whether there was
one. A group that is still open is not touched, and its changes may have taken the text away
from under an older one. -/
def undo (document : Document) : Except Failure (Bool × Document) :=
  match document.history with
  | [] => .ok (false, document)
  | group :: older => do
    let text ← group.changes.foldlM (fun text change => change.revert text) document.text
    return (true, { document with text := text, selection := group.before, history := older })

end Document

end EditAssist
