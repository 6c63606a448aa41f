import EditAssist.Assist.Accept
import EditAssist.Assist.Opening
import EditAssist.Layout.LineEdits

/-! The answer to every key: what it does to the document and to the overlay. -/
namespace EditAssist

inductive Key
  | enter
  | tab
  | backTab
  | up
  | down
  | escape
  | backspace
  | char (c : Char)
  deriving DecidableEq, Repr

/-- Whether a key is done with, or is still to have its ordinary effect. -/
inductive Outcome
  | handled
  | unhandled
  deriving DecidableEq, Repr

/-- A key is done with if something came of it. -/
def Outcome.ofBool (handled : Bool) : Outcome :=
  if handled then .handled else .unhandled

namespace Assisting

/-- Tab and its opposite insert a hint or else move lines. -/
def pressTab (key : AcceptKey) (shift : Shift) : Assisting Outcome := do
  let tabWidth := (← assistant).tabWidth
  unless ← acceptHint key do
    edit (Editing.shiftLines tabWidth shift)
  return .handled

/-- Up and Down pick a hint. -/
def pickHint (direction : Direction) : Assisting Outcome := do
  match (← assistant).overlay with
  | .hints hints =>
    setOverlay (.hints (hints.move direction))
    return .handled
  | _ => return .unhandled

/-- Types a closing brace, where it belongs or where the caret is. -/
def typeBrace : Assisting Outcome := do
  setOverlay .hidden
  let tabWidth := (← assistant).tabWidth
  unless ← edit (Editing.closeBrace tabWidth) do
    edit (Editing.act (·.insert ['\x7d']))
  return .handled

/-- Types a character that opens no menu. -/
def typeChar (source : SymbolSource) (c : Char) : Assisting Outcome := do
  edit (Editing.act (·.insert [c]))
  refreshHints source
  return .handled

/-- A key while no menu is open. -/
def pressPlain (source : SymbolSource) : Key → Assisting Outcome
  | .enter => do
    if ← acceptHint .enter then return .handled
    return .ofBool (← edit Editing.breakLine)
  | .tab => pressTab .tab .indent
  | .backTab => pressTab .backTab .outdent
  | .up => pickHint .up
  | .down => pickHint .down
  | .escape | .backspace => do
    setOverlay .hidden
    return .unhandled
  | .char c => do
    if c = '\x7d' then typeBrace
    else
      match (Trigger.ofChar? c).filter (← assistant).opensMenu with
      | some trigger => do
        openMenu source trigger
        return .handled
      | none => typeChar source c

/-- A key while a menu is open. Keys that neither move in the menu nor choose from it insert the
trigger, and then do what they do without a menu. -/
def pressInMenu (source : SymbolSource) (menu : Menu) : Key → Assisting Outcome
  | .up => do
    setOverlay (.menu (menu.move .up))
    return .handled
  | .down => do
    setOverlay (.menu (menu.move .down))
    return .handled
  | .enter | .tab => do
    let _ ← acceptMenu menu.active
    return .handled
  | .escape => do
    setOverlay .hidden
    return .handled
  | .backspace => do
    setOverlay .hidden
    return .unhandled
  | .backTab => do
    let _ ← acceptMenu 0
    pressPlain source .backTab
  | .char c => do
    let _ ← acceptMenu 0
    if c = menu.trigger.char then return .handled
    pressPlain source (.char c)

def press (source : SymbolSource) (key : Key) : Assisting Outcome := do
  match (← assistant).overlay with
  | .menu menu => pressInMenu source menu key
  | _ => pressPlain source key

/-- Types characters one after the other until one fails. -/
def typeText (source : SymbolSource) :
    List Char → StateM Workspace (List Outcome × Option Failure)
  | [] => pure ([], none)
  | c :: rest => fun workspace =>
    match (press source (.char c)).run workspace with
    | (.error failure, after) => (([], some failure), after)
    | (.ok outcome, after) =>
      match typeText source rest after with
      | ((outcomes, failure), finished) => ((outcome :: outcomes, failure), finished)

end Assisting

end EditAssist
