import EditAssist.Assist.Geometry
import EditAssist.Spin.Symbol

/-! What the assistant shows over the text: nothing, a menu, or hints below a word. There is at
most one overlay. -/
namespace EditAssist

/-- The characters that open a menu. -/
inductive Trigger
  | dot
  | hash
  deriving DecidableEq, Repr

namespace Trigger

def char : Trigger → Char
  | dot => '.'
  | hash => '#'

def ofChar? (c : Char) : Option Trigger :=
  if c = '.' then some dot else if c = '#' then some hash else none

/-- The characters that open a menu are those of the triggers, one each. -/
theorem ofChar?_eq_some_iff {c : Char} {trigger : Trigger} :
    ofChar? c = some trigger ↔ c = trigger.char := by
  cases trigger <;> simp only [ofChar?, char] <;> split <;> simp_all

end Trigger

/-- The picture beside a row of a menu. -/
inductive Icon
  | trigger
  | constant
  | object
  | privateMethod
  | publicMethod
  | storage
  | data
  | unknown
  deriving DecidableEq, Repr

/-- The icon of a symbol, where rows without a known kind have one of their own. -/
def Icon.ofKind : Option Symbol.Kind → Icon
  | some .constant | some .enumeration => constant
  | some .object => object
  | some .privateMethod => privateMethod
  | some .publicMethod => publicMethod
  | some .storage => storage
  | some .dataLabel => data
  | none => unknown

/-- What a menu inserts for a row: the trigger and the name, or the name alone. -/
inductive InsertStyle
  | withTrigger
  | nameOnly
  deriving DecidableEq, Repr

structure MenuItem where
  text : List Char
  icon : Icon
  deriving DecidableEq, Repr

/-- A list to choose from. Its first row is the trigger itself; `width` is that of the widest
other row. -/
structure Menu where
  items : List MenuItem
  active : Nat
  trigger : Trigger
  style : InsertStyle
  width : Nat
  anchor : Anchor
  deriving DecidableEq, Repr

/-- Identifiers that the word being typed may become. `chosen` says whether one of them was
picked since the list was made. -/
structure Hints where
  entries : List (List Char)
  active : Nat
  chosen : Bool
  anchor : Anchor
  deriving DecidableEq, Repr

inductive Direction
  | up
  | down
  deriving DecidableEq, Repr

/-- Moves the active row, at most to either end. -/
def Menu.move (direction : Direction) (menu : Menu) : Menu :=
  { menu with
    active := match direction with
      | .up => menu.active - 1
      | .down => min (menu.active + 1) (menu.items.length - 1) }

namespace Hints

/-- A new list, with its first entry active and none picked. -/
def ofEntries (entries : List (List Char)) (anchor : Anchor) : Hints :=
  ⟨entries, 0, false, anchor⟩

/-- The entry at which one is after going round `count` entries. Without any there is nowhere to
be. -/
def around {count : Nat} (hSome : 0 < count) (steps : Nat) : Fin count :=
  ⟨steps % count, Nat.mod_lt steps hSome⟩

/-- Picks the next entry, going on from either end to the other. A single entry stays. -/
def move (direction : Direction) (hints : Hints) : Hints :=
  let count := hints.entries.length
  if hFew : count < 2 then hints
  else
    have hSome : 0 < count := Nat.lt_of_lt_of_le Nat.zero_lt_two (Nat.not_lt.mp hFew)
    { hints with
      active := match direction with
        | .up => (around hSome (hints.active + count - 1)).val
        | .down => (around hSome (hints.active + 1)).val
      chosen := true }

def activeEntry? (hints : Hints) : Option (List Char) :=
  hints.entries[hints.active]?

/-- The entry that may be inserted: a picked one, or the only one. -/
def acceptable? (hints : Hints) : Option (List Char) :=
  if hints.entries.length = 1 ∨ hints.chosen then hints.activeEntry? else none

/-- The mark between the rows of a tooltip. -/
def lineBreak : List Char :=
  ['<', 'b', 'r', '/', '>']

def bold (text : List Char) : List Char :=
  ['<', 'b', '>'] ++ text ++ ['<', '/', 'b', '>']

/-- The tooltip: one row an entry, the active one in bold type. -/
def markup (hints : Hints) : List Char :=
  lineBreak.intercalate (hints.entries.mapIdx fun index entry =>
    if index = hints.active then bold entry else entry)

end Hints

inductive Overlay
  | hidden
  | hints (list : Hints)
  | menu (list : Menu)
  deriving DecidableEq, Repr

/-- What is to be drawn, and where. -/
inductive Drawing
  | tooltip (place : Pixel) (markup : List Char)
  | menu (place : Pixel) (width height : Nat) (items : List MenuItem) (active : Nat)
  deriving DecidableEq, Repr

/-- The drawing of an overlay, if there is anything to draw. -/
def Overlay.draw (view : Viewport) : Overlay → Option Drawing
  | hidden => none
  | .hints list => some (.tooltip (list.anchor.pixel view) list.markup)
  | .menu list =>
    let (width, height) := Geometry.menuSize list.width view
    some (.menu (list.anchor.pixel view) width height list.items list.active)

end EditAssist
