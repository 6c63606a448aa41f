import EditAssist.Settings.Json.Reader

/-! Preferences of the person at the keyboard, and the two ways to read them from a settings
document: all at once and strictly, or merged key by key. -/
namespace EditAssist

structure Preferences where
  /-- Spaces to a tab stop. -/
  tabWidth : Nat := 4
  /-- Hints while a word is typed. -/
  hints : Bool := true
  /-- A menu of members after a dot. -/
  dotMenu : Bool := true
  /-- A menu of constants after a hash. While it is on, constants are left out of the dot menu of
  the file itself. -/
  hashMenu : Bool := true
  deriving DecidableEq, Repr

/-- Why a settings document is refused. -/
inductive SettingsError
  /-- The text is no JSON. -/
  | malformed
  /-- A value has the wrong shape. -/
  | mismatch
  /-- A tab stop without width. -/
  | zeroTabWidth
  deriving DecidableEq, Repr

namespace Preferences

def tabWidthKey : List Char :=
  ['t', 'a', 'b', 'W', 'i', 'd', 't', 'h']

def hintsKey : List Char :=
  ['i', 'n', 'l', 'i', 'n', 'e', 'S', 'u', 'g', 'g', 'e', 's', 't']

def dotMenuKey : List Char :=
  ['d', 'o', 't', 'C', 'o', 'm', 'p', 'l', 'e', 't', 'e']

def hashMenuKey : List Char :=
  ['c', 'o', 'n', 's', 't', 'a', 'n', 't', 'C', 'o', 'm', 'p', 'l', 'e', 't', 'e']

/-- The key of the part of a document that is about the editor. -/
def sectionKey : List Char :=
  ['s', 'p', 'i', 'n', 'E', 'd', 'i', 't', 'o', 'r']

/-- A tab stop has at least one column. -/
def check (preferences : Preferences) : Except SettingsError Unit :=
  if preferences.tabWidth = 0 then .error .zeroTabWidth else .ok ()

/-- The part of a document that is about the editor, or the whole document if it has no such
part. -/
def sectionOf (document : Json) : Json :=
  (document.field? sectionKey).getD document

/-- A value that may be missing but not of another shape. -/
def orDefault {α : Type} (read : Json → Option α) (fallback : α) :
    Option Json → Option α
  | none => some fallback
  | some json => read json

/-- Preferences from values that may be missing. -/
def ofParts? (tabWidth hints dotMenu hashMenu : Option Json) : Option Preferences := do
  let fallback : Preferences := {}
  some
    { tabWidth := ← orDefault Json.natural? fallback.tabWidth tabWidth
      hints := ← orDefault Json.bool? fallback.hints hints
      dotMenu := ← orDefault Json.bool? fallback.dotMenu dotMenu
      hashMenu := ← orDefault Json.bool? fallback.hashMenu hashMenu }

/-- Preferences from an object with the keys above, where other keys do not matter, or from an
array of at most four values in the order of the fields. -/
def ofJson? : Json → Option Preferences
  | .object fields =>
    ofParts? (Json.lookup? tabWidthKey fields) (Json.lookup? hintsKey fields)
      (Json.lookup? dotMenuKey fields) (Json.lookup? hashMenuKey fields)
  | .array items =>
    if 4 < items.length then none else ofParts? items[0]? items[1]? items[2]? items[3]?
  | _ => none

/-- The strict reader of a parsed document: a value of the wrong shape refuses the document, and
so does a tab stop without width. -/
def ofDocument (document : Json) : Except SettingsError Preferences :=
  match ofJson? (sectionOf document) with
  | none => .error .mismatch
  | some preferences => preferences.check.map fun _ => preferences

/-- The strict reader of a settings text. -/
def read (text : List Char) : Except SettingsError Preferences :=
  match Json.read? text with
  | none => .error .malformed
  | some document => ofDocument document

/-- Takes over every key of a document that has a value of the right shape and leaves the other
preferences alone. -/
def merge (preferences : Preferences) (document : Json) : Preferences :=
  match (sectionOf document).fields? with
  | none => preferences
  | some fields =>
    { tabWidth := (((Json.lookup? tabWidthKey fields).bind Json.natural?).filter (0 < ·)).getD
        preferences.tabWidth
      hints := ((Json.lookup? hintsKey fields).bind Json.bool?).getD preferences.hints
      dotMenu := ((Json.lookup? dotMenuKey fields).bind Json.bool?).getD preferences.dotMenu
      hashMenu := ((Json.lookup? hashMenuKey fields).bind Json.bool?).getD preferences.hashMenu }

def mergeText (preferences : Preferences) (text : List Char) :
    Except SettingsError Preferences :=
  match Json.read? text with
  | none => .error .malformed
  | some document => .ok (preferences.merge document)

def tab (preferences : Preferences) : List Char :=
  List.replicate preferences.tabWidth ' '

end Preferences

/-- What is wrong, in words, where the reader of settings says it itself. -/
def SettingsError.message? : SettingsError → Option String
  | .zeroTabWidth => some "tab width must be at least 1"
  | _ => none

end EditAssist
