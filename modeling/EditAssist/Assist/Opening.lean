import EditAssist.Assist.Candidates
import EditAssist.Assist.Context
import EditAssist.Assist.Menu
import EditAssist.Assist.Workspace

/-! When hints and menus appear. Only here is the symbol table asked. -/
namespace EditAssist

/-- The catalogue that a menu is made from. -/
def Trigger.catalogue : Trigger → Catalogue
  | dot => .members
  | hash => .constants

namespace Assisting

open Text

/-- The shortest word that gets hints. -/
def minWordLength : Nat := 3

/-- Hints for the word that ends at the caret. There are none while text is selected, inside a
word, for a short word, or if nothing matches. -/
def findHints (source : SymbolSource) : Assisting (Option Hints) := do
  let document ← document
  if document.hasSelection then return none
  let caret := document.caret
  let start := document.wordStart caret
  if document.wordStop caret != caret || caret - start < minWordLength then return none
  let typed ← edit (Editing.ask (·.slice ⟨start, caret⟩))
  let entries := Candidates.ofRows typed (← lookUp source .members [])
  if entries.isEmpty then return none
  let place ← edit (Editing.ask (·.positionAt start))
  return some (.ofEntries entries ⟨place.line, place.column⟩)

/-- Looks for hints anew, unless they are turned off or a menu is open. -/
def refreshHints (source : SymbolSource) : Assisting Unit := do
  let assistant ← assistant
  match assistant.preferences.hints, assistant.overlay with
  | false, _ | _, .menu _ => return ()
  | true, _ =>
    match ← findHints source with
    | some hints => setOverlay (.hints hints)
    | none => setOverlay .hidden

/-- The menu that a trigger opens at the caret. There is none in a comment or a string, and none
without a symbol to show. Selected text is deleted before the symbol table is asked. -/
def findMenu (source : SymbolSource) (trigger : Trigger) : Assisting (Option Menu) := do
  let start := (← document).selection.start
  let before ← edit (Editing.ask (·.slice ⟨0, start⟩))
  let place ← edit (Editing.ask (·.positionAt start))
  let line ← edit (Editing.ask (·.lineText place.line))
  if Context.suppressesMenu before line place.column then return none
  edit (Editing.act (·.deleteSelection))
  let scope := Scope.ofName (Context.nameBefore (line.take place.column))
  let rows ← lookUp source trigger.catalogue scope.name
  match Menu.build rows trigger scope (← assistant).preferences with
  | none => return none
  | some (items, width) =>
    return some ⟨items, 0, trigger, scope.style, width, ⟨place.line, place.column⟩⟩

/-- Opens the menu of a trigger, or types the trigger if it has none. -/
def openMenu (source : SymbolSource) (trigger : Trigger) : Assisting Unit := do
  setOverlay .hidden
  match ← findMenu source trigger with
  | some menu => setOverlay (.menu menu)
  | none => edit (Editing.act (·.insert [trigger.char]))

end Assisting

end EditAssist
