import EditAssist.Assist.Lookup
import EditAssist.Assist.Overlay
import EditAssist.Document.Editing
import EditAssist.Settings.Language

/-! The assistant of one document, and the workspace in which it acts. -/
namespace EditAssist

/-- What the assistant remembers: which file it serves, how it is set up, what it shows, and the
text that was last saved. -/
structure Assistant where
  file : List Char
  language : Language
  preferences : Preferences := {}
  overlay : Overlay := .hidden
  saved : Option (List Char) := none
  deriving DecidableEq, Repr

/-- The document with its assistant and the questions it has asked, oldest first. -/
structure Workspace where
  document : Document
  assistant : Assistant
  lookups : List Lookup := []
  deriving DecidableEq, Repr

namespace Assistant

/-- A new assistant. The name of the file decides the language unless one is given. -/
def ofFile (file : List Char) (language : Option Language) (preferences : Preferences) :
    Assistant :=
  { file := file
    language := language.getD (.ofFileName file)
    preferences := preferences }

def hide (assistant : Assistant) : Assistant :=
  { assistant with overlay := .hidden }

/-- Takes over other preferences. Hints vanish when they are turned off. -/
def setPreferences (preferences : Preferences) (assistant : Assistant) : Assistant :=
  let assistant := { assistant with preferences := preferences }
  match assistant.overlay with
  | .hints _ => if preferences.hints then assistant else assistant.hide
  | _ => assistant

/-- Merges a settings text into the preferences. A text that is no JSON changes nothing. -/
def mergeSettings (settings : List Char) (assistant : Assistant) :
    Except SettingsError Assistant :=
  (assistant.preferences.mergeText settings).map assistant.setPreferences

/-- A tab stop is at least one column wide. -/
def tabWidth (assistant : Assistant) : Nat :=
  max assistant.preferences.tabWidth 1

theorem tabWidth_pos (assistant : Assistant) : 0 < assistant.tabWidth :=
  Nat.lt_of_lt_of_le Nat.zero_lt_one (Nat.le_max_right _ _)

/-- Whether a trigger opens menus here. -/
def opensMenu (assistant : Assistant) (trigger : Trigger) : Bool :=
  assistant.language == .spin &&
    match trigger with
    | .dot => assistant.preferences.dotMenu
    | .hash => assistant.preferences.hashMenu

def markSaved (document : Document) (assistant : Assistant) : Assistant :=
  { assistant with saved := some document.text }

/-- Whether the text differs from the saved one. Before the first save any text does. -/
def isModified (document : Document) (assistant : Assistant) : Bool :=
  match assistant.saved with
  | some saved => saved != document.text
  | none => 0 < document.length

end Assistant

/-- A run in a workspace that gives an answer or fails. What it did before it failed stays
done. -/
abbrev Assisting (α : Type) : Type :=
  ExceptT Failure (StateM Workspace) α

namespace Assisting

variable {α β : Type}

/-- The answer or the failure of a run, and the workspace after it. -/
def run (actions : Assisting α) (workspace : Workspace) : Except Failure α × Workspace :=
  (ExceptT.run actions).run workspace

def ofFunction (actions : Workspace → Except Failure α × Workspace) : Assisting α :=
  ExceptT.mk fun workspace => actions workspace

def document : Assisting Document :=
  ofFunction fun workspace => (.ok workspace.document, workspace)

def assistant : Assisting Assistant :=
  ofFunction fun workspace => (.ok workspace.assistant, workspace)

def edit (edits : Editing α) : Assisting α :=
  ofFunction fun workspace =>
    match edits.run workspace.document with
    | (result, document) => (result, { workspace with document := document })

def setOverlay (overlay : Overlay) : Assisting Unit :=
  ofFunction fun workspace =>
    (.ok (), { workspace with assistant := { workspace.assistant with overlay := overlay } })

def lookUp (source : SymbolSource) (catalogue : Catalogue) (object : List Char) :
    Assisting (List (List Char)) :=
  ofFunction fun workspace =>
    let lookup := ⟨catalogue, workspace.assistant.file, object⟩
    (.ok (source lookup), { workspace with lookups := workspace.lookups ++ [lookup] })

/-- The second part of a run starts where the first one ended, unless that one failed. -/
theorem run_bind (first : Assisting α) (next : α → Assisting β) (workspace : Workspace) :
    run (first >>= next) workspace =
      match first.run workspace with
      | (.ok answer, after) => (next answer).run after
      | (.error failure, after) => (.error failure, after) := by
  simp only [run, ExceptT.run_bind, StateT.run_bind]
  cases StateT.run (ExceptT.run first) workspace with
  | mk result after => cases result <;> rfl

/-- A first part that gives an answer hands it on. -/
theorem run_bind_of_ok {first : Assisting α} {next : α → Assisting β} {answer : α}
    {workspace after : Workspace} (hFirst : first.run workspace = (.ok answer, after)) :
    (first >>= next).run workspace = (next answer).run after := by
  rw [run_bind, hFirst]

@[simp] theorem run_assistant (workspace : Workspace) :
    assistant.run workspace = (.ok workspace.assistant, workspace) :=
  rfl

@[simp] theorem run_edit (edits : Editing α) (workspace : Workspace) :
    (edit edits).run workspace =
      ((edits.run workspace.document).1,
        { workspace with document := (edits.run workspace.document).2 }) :=
  rfl

@[simp] theorem run_setOverlay (overlay : Overlay) (workspace : Workspace) :
    (setOverlay overlay).run workspace =
      (.ok (),
        { workspace with assistant := { workspace.assistant with overlay := overlay } }) :=
  rfl

end Assisting

end EditAssist
