/-! Places in a document. All offsets and columns count characters. -/
namespace EditAssist

/-- The characters from `start` to before `stop`. A range that someone else gives may be
reversed. -/
structure Range where
  start : Nat
  stop : Nat
  deriving DecidableEq, Repr

namespace Range

def point (offset : Nat) : Range :=
  ⟨offset, offset⟩

/-- A reversed range has no characters. -/
def size (range : Range) : Nat :=
  range.stop - range.start

/-- Whether the range has no characters, as a reversed one has none. -/
def isEmpty (range : Range) : Bool :=
  range.stop ≤ range.start

def low (range : Range) : Nat :=
  min range.start range.stop

def high (range : Range) : Nat :=
  max range.start range.stop

end Range

/-- A selection runs from its anchor to its head, in either direction. The head is the caret. -/
structure Selection where
  anchor : Nat
  head : Nat
  deriving DecidableEq, Repr

namespace Selection

def caret (offset : Nat) : Selection :=
  ⟨offset, offset⟩

def start (selection : Selection) : Nat :=
  min selection.anchor selection.head

def stop (selection : Selection) : Nat :=
  max selection.anchor selection.head

def isEmpty (selection : Selection) : Bool :=
  selection.anchor == selection.head

/-- The selected range, never reversed. -/
def range (selection : Selection) : Range :=
  ⟨selection.start, selection.stop⟩

/-- The selection with both ends moved back into a text of `length` characters. -/
def clamp (selection : Selection) (length : Nat) : Selection :=
  ⟨min selection.anchor length, min selection.head length⟩

theorem start_le_stop (selection : Selection) : selection.start ≤ selection.stop := by
  simp only [start, stop]
  omega

end Selection

/-- A line and a column in it, both counted from zero. -/
structure Position where
  line : Nat
  column : Nat
  deriving DecidableEq, Repr

/-- Puts `text` in the place of a range of the document. -/
structure Replacement where
  range : Range
  text : List Char
  deriving DecidableEq, Repr

namespace Replacement

/-- The text after the edit, for a range that is not reversed. -/
def apply (edit : Replacement) (text : List Char) : List Char :=
  text.take edit.range.start ++ edit.text ++ text.drop edit.range.stop

end Replacement

end EditAssist
