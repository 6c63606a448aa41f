import EditAssist.Assist.Menu
import EditAssist.Assist.Workspace
import EditAssist.Layout.Shift

/-! Inserting what was chosen in a menu or among hints. Each insertion is undone as one step, and
nothing is shown after it. -/
namespace EditAssist

/-- The keys that may insert a hint. -/
inductive AcceptKey
  | enter
  | tab
  | backTab
  deriving DecidableEq, Repr

namespace Editing

/-- Inserts the chosen row of a menu, if there is one, and selects the arguments of a call. -/
def acceptMenu (menu : Menu) (index : Nat) : Editing Bool :=
  match menu.insertion? index with
  | none => return false
  | some text => do
    grouped do
      let start := (← current).selection.start
      act (·.insert text)
      match Menu.arguments? text with
      | none => return ()
      | some range => act (·.select ⟨start + range.start, start + range.stop⟩)
    return true

/-- What a key adds after the hint it inserted: Enter breaks the line at its end, Tab pads to
the next tab stop, where a space or tab at the caret counts as one column. -/
def afterHint (key : AcceptKey) (tabWidth : Nat) : Editing Unit := do
  let document ← current
  match key with
  | .backTab => return ()
  | .enter => if document.isLineEnd document.caret then act (·.insert ['\n'])
  | .tab =>
    let place ← ask (·.position)
    let onBlank :=
      document.charAt? document.caret == some ' ' || document.charAt? document.caret == some '\t'
    let column := if onBlank then place.column + 1 else place.column
    let pad ← ask fun _ => Shift.padding tabWidth column
    if 0 < pad then act (·.insert (Shift.spaces pad))

/-- Puts the hint that may be inserted in the place of the word before the caret. -/
def acceptHint (hints : Hints) (key : AcceptKey) (tabWidth : Nat) : Editing Bool :=
  match hints.acceptable? with
  | none => return false
  | some entry => do
    let document ← current
    let caret := document.caret
    let start := document.wordStart caret
    grouped do
      act (·.replace ⟨start, caret⟩ entry)
      afterHint key tabWidth
    return true

end Editing

namespace Assisting

/-- Inserts row `index` of the menu and says whether there was one. Nothing is shown
afterwards. -/
def acceptMenu (index : Nat) : Assisting Bool := do
  let overlay := (← assistant).overlay
  setOverlay .hidden
  match overlay with
  | .menu menu => edit (Editing.acceptMenu menu index)
  | _ => return false

/-- Inserts the hint that may be inserted and says whether there was one. Nothing is shown
afterwards. -/
def acceptHint (key : AcceptKey) : Assisting Bool := do
  let assistant ← assistant
  setOverlay .hidden
  match assistant.overlay with
  | .hints hints =>
    if assistant.preferences.hints then
      edit (Editing.acceptHint hints key assistant.tabWidth)
    else return false
  | _ => return false

end Assisting

end EditAssist
