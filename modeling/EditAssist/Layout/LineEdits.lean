import EditAssist.Document.Editing
import EditAssist.Layout.Continuation
import EditAssist.Layout.Shift
import EditAssist.Spin.Comment

/-! Edits that keep lines in shape: breaking a line, closing a brace, moving lines in and out.
Each of them is undone as one step. -/
namespace EditAssist.Editing

open Text

/-- Breaks the line at the caret and starts the new one as the old one asks for. Nothing
happens while text is selected. -/
def breakLine : Editing Bool := do
  let document ← current
  if document.hasSelection then return false
  let place ← ask (·.position)
  let line ← ask (·.lineText place.line)
  grouped (act (·.insert ('\n' :: Continuation.lead (line.take place.column))))
  return true

/-- Puts a closing brace one tab stop to the left of the caret if that closes an open brace and
only white space comes before it on the line. -/
def closeBrace (tabWidth : Nat) : Editing Bool := do
  let document ← current
  if document.hasSelection then return false
  let place ← ask (·.position)
  match Comment.braceColumn? document.text place.line place.column tabWidth with
  | none => return false
  | some column =>
    let start ← ask (·.lineStart place.line)
    let lead : Range := ⟨start, document.caret⟩
    let before ← ask (·.slice lead)
    if before.all isBlank then
      grouped (act (·.replace lead (Shift.spaces column ++ ['\x7d'])))
      return true
    else return false

/-- Moves the lines at the selection. -/
def shiftLines (tabWidth : Nat) (shift : Shift) : Editing Unit := do
  let plan ← ask fun document => Shift.plan document.text document.selection tabWidth shift
  match plan.edit with
  | none => return ()
  | some edit =>
    grouped do
      act (·.replace edit.range edit.text)
      act (·.select plan.selection)

end EditAssist.Editing
