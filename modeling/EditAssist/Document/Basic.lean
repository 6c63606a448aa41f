import EditAssist.Document.Failure
import EditAssist.Text.Alphanumeric
import EditAssist.Text.Lines
import EditAssist.Text.Trim

/-! A document under edit: its text, its selection and what can be undone. This module asks
questions about the text; none of them changes anything. -/
namespace EditAssist

/-- One replacement as it was made: from `start` on, the text `removed` gave way to `inserted`
characters. -/
structure Change where
  start : Nat
  removed : List Char
  inserted : Nat
  deriving DecidableEq, Repr

/-- Changes that are undone together, newest first, and the selection from before them. -/
structure ChangeGroup where
  changes : List Change
  before : Selection
  deriving DecidableEq, Repr

/-- A group that still takes changes, and how many groups have been opened inside it. -/
structure OpenGroup where
  group : ChangeGroup
  nested : Nat
  deriving DecidableEq, Repr

/-- A text with a selection. `history` holds what can be undone, newest first; while a group is
open, changes go into `pending` instead. -/
structure Document where
  text : List Char
  selection : Selection := .caret 0
  history : List ChangeGroup := []
  pending : Option OpenGroup := none
  deriving DecidableEq, Repr

namespace Document

open Text

/-- A document with nothing to undo. The selection is moved back into the text. -/
def ofText (text : List Char) (selection : Selection) : Document :=
  { text := text, selection := selection.clamp text.length }

def length (document : Document) : Nat :=
  document.text.length

/-- The caret is the head of the selection. -/
def caret (document : Document) : Nat :=
  document.selection.head

def hasSelection (document : Document) : Bool :=
  !document.selection.isEmpty

def openGroups (document : Document) : Nat :=
  match document.pending with
  | none => 0
  | some group => group.nested + 1

/-- One more than the number of line feeds. -/
def lineCount (document : Document) : Nat :=
  document.text.count '\n' + 1

def checkOffset (document : Document) (offset : Nat) : Except Failure Unit :=
  if document.length < offset then .error (.offsetOutOfRange offset document.length) else .ok ()

def checkLine (document : Document) (line : Nat) : Except Failure Unit :=
  if document.lineCount ≤ line then .error (.lineOutOfRange line document.lineCount) else .ok ()

/-- The text of a range. A reversed range is a fatal mistake of the caller. -/
def slice (document : Document) (range : Range) : Except Failure (List Char) := do
  document.checkOffset range.stop
  if range.stop < range.start then throw (.reversedRange range)
  return (document.text.take range.stop).drop range.start

def selectedText (document : Document) : Except Failure (List Char) :=
  document.slice document.selection.range

/-- The character at an offset. There is none at the end. -/
def charAt? (document : Document) (offset : Nat) : Option Char :=
  document.text[offset]?

/-- The line of an offset: the number of line feeds before it. -/
def lineAt (document : Document) (offset : Nat) : Except Failure Nat := do
  document.checkOffset offset
  return (document.text.take offset).count '\n'

/-- The number of characters up to and including the first `line` line feeds. -/
def skipLines : (line : Nat) → List Char → Nat
  | 0, _ => 0
  | _ + 1, [] => 0
  | line + 1, c :: rest => (if c = '\n' then skipLines line rest else skipLines (line + 1) rest) + 1

def lineStart (document : Document) (line : Nat) : Except Failure Nat := do
  document.checkLine line
  return skipLines line document.text

/-- The text of a line without its break. All carriage returns at its end are part of the
break. -/
def lineText (document : Document) (line : Nat) : Except Failure (List Char) := do
  document.checkLine line
  return dropTail (· == '\r') ((rows document.text)[line]?.getD [])

def positionAt (document : Document) (offset : Nat) : Except Failure Position := do
  let line ← document.lineAt offset
  let start ← document.lineStart line
  return ⟨line, offset - start⟩

/-- Offsets are 64-bit words, so an offset that is only reported wraps. -/
def wrapOffset (offset : Nat) : Nat :=
  offset % Nat.pow 2 64

/-- The offset of a position. The column may not lie past the text of its line. -/
def offsetAt (document : Document) (position : Position) : Except Failure Nat := do
  let start ← document.lineStart position.line
  let text ← document.lineText position.line
  if text.length < position.column then
    throw (.offsetOutOfRange (wrapOffset (start + position.column)) document.length)
  return start + position.column

def position (document : Document) : Except Failure Position :=
  document.positionAt document.caret

/-- The start of the word that ends at an offset. An offset past the end ends no word. -/
def wordStart (document : Document) (offset : Nat) : Nat :=
  if offset ≤ document.length then
    offset - ((document.text.take offset).reverse.takeWhile isWordChar).length
  else offset

def wordStop (document : Document) (offset : Nat) : Nat :=
  offset + ((document.text.drop offset).takeWhile isWordChar).length

def isLineEnd (document : Document) (offset : Nat) : Bool :=
  match document.charAt? offset with
  | none => true
  | some c => c == '\n' || c == '\r'

def undoDepth (document : Document) : Nat :=
  document.history.length

end Document

end EditAssist
