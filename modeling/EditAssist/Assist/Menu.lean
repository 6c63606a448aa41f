import EditAssist.Assist.Overlay
import EditAssist.Document.Range
import EditAssist.Settings.Preferences
import EditAssist.Spin.Declaration
import EditAssist.Text.Order

/-! From the rows of a symbol table to the rows of a menu. -/
namespace EditAssist

/-- Where a menu takes its symbols from: an object named before the trigger, or the file. -/
inductive Scope
  | object (name : List Char)
  | file
  deriving DecidableEq, Repr

namespace Scope

/-- The scope that a name before the trigger means. No name means the file. -/
def ofName (name : List Char) : Scope :=
  if name.isEmpty then file else object name

def name : Scope → List Char
  | object name => name
  | file => []

/-- Members of objects are inserted with the trigger. -/
def style : Scope → InsertStyle
  | object _ => .withTrigger
  | file => .nameOnly

end Scope

namespace Menu

open Text

/-- Whether a menu leaves out symbols of a kind. An object shows its public methods alone. The
file's own dot menu leaves constants to the hash menu, if that is on. Rows of unknown kind are
always kept. -/
def leavesOut (trigger : Trigger) (scope : Scope) (hashMenu : Bool) :
    Option Symbol.Kind → Bool
  | none => false
  | some kind =>
    match trigger, scope with
    | .dot, .object _ => kind != .publicMethod
    | .dot, .file => hashMenu && (kind == .constant || kind == .enumeration)
    | .hash, _ => false

/-- The order of the rows: the file's own dot menu starts with objects, a hash menu goes by the
alphabet, and all else stays as it comes. -/
def arrange (trigger : Trigger) (scope : Scope) (rows : List (List Char)) : List (List Char) :=
  match trigger, scope with
  | .dot, .file =>
    let isObject := fun row => Symbol.kind? row == some .object
    rows.filter isObject ++ rows.filter fun row => !isObject row
  | .hash, _ => rows.mergeSort atMost
  | .dot, .object _ => rows

/-- The text that a row declares: its shown form without section and size, shortened once more,
or all of its shown form if nothing else is in it. -/
def declared (row : List Char) : List Char :=
  let whole := Declaration.shown row
  let rest := Declaration.dropCategory whole
  if rest.isEmpty then whole else Declaration.shown rest

def names (row : List Char) : List (List Char) :=
  if (Symbol.kind? row).any Symbol.Kind.declaresSeveral then
    ((declared row).splitOn ',').map trim
  else [trim (declared row)]

/-- Adds a row for a name, unless the name is empty or already there. -/
def addName (icon : Icon) (items : List MenuItem) (name : List Char) : List MenuItem :=
  if name.isEmpty || items.any fun item => item.text == name then items
  else items ++ [⟨name, icon⟩]

def addRow (items : List MenuItem) (row : List Char) : List MenuItem :=
  (names row).foldl (addName (.ofKind (Symbol.kind? row))) items

def widest (items : List MenuItem) : Nat :=
  items.foldl (fun width item => max width item.text.length) 0

/-- The rows of a menu and the width of the widest one behind the trigger. There is no menu if
no symbol is left to show. -/
def build (rows : List (List Char)) (trigger : Trigger) (scope : Scope)
    (preferences : Preferences) : Option (List MenuItem × Nat) :=
  let kept := (arrange trigger scope rows).filter fun row =>
    !leavesOut trigger scope preferences.hashMenu (Symbol.kind? row)
  let items := kept.foldl addRow [⟨[trigger.char], .trigger⟩]
  if 1 < items.length then some (items, widest items.tail) else none

def insertion? (menu : Menu) (index : Nat) : Option (List Char) :=
  menu.items[index]?.map fun item =>
    let name := trim (Declaration.dropCategory item.text)
    match menu.style with
    | .nameOnly => name
    | .withTrigger => if index = 0 then [menu.trigger.char] else menu.trigger.char :: name

/-- The range between the parentheses of a call: after the first opening one and before the last
closing one, or empty if none closes. A parenthesis with nothing but triggers before it opens no
call. -/
def arguments? (text : List Char) : Option Range :=
  (find? ['('] text).bind fun first =>
    if (text.take first).all fun c => c == '.' || c == '#' then none
    else
      let start := first + 1
      let stop := ((lastIndexOf? ')' text).filter (start ≤ ·)).getD start
      some ⟨start, stop⟩

end Menu

end EditAssist
