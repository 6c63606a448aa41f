import EditAssist.Document.Checked
import EditAssist.Document.LineMap
import EditAssist.Text.Lines

/-! Moving lines by one tab stop. A plan is one edit together with the selection that belongs to
the edited text, so that both can be applied as one step. -/
namespace EditAssist

/-- Which way lines move. -/
inductive Shift
  | indent
  | outdent
  deriving DecidableEq, Repr

namespace Shift

open Text

/-- What to do to the text and where the selection goes. -/
structure Plan where
  edit : Option Replacement
  selection : Selection
  deriving DecidableEq, Repr

/-- A run of spaces. -/
def spaces (count : Nat) : List Char :=
  List.replicate count ' '

/-- How many spaces a line loses when it moves out: those in front of it, one tab stop at
most. -/
def removable (width : Nat) (line : List Char) : Nat :=
  min width (line.takeWhile (· == ' ')).length

/-- One line moved. -/
def moveLine (width : Nat) : Shift → List Char → List Char
  | indent, line => spaces width ++ line
  | outdent, line => line.drop (removable width line)

/-- Where a column of a line lies once the line has moved. -/
def moveColumn (width : Nat) : Shift → List Char → Nat → Nat
  | indent, _, column => column + width
  | outdent, line, column => column - removable width line

/-- Moves every line but a trailing empty one, and joins them again. -/
def moveLines (width : Nat) (shift : Shift) (lines : List (List Char)) : List Char :=
  ['\n'].intercalate
    (lines.dropLast.map (shift.moveLine width) ++
      (match lines.getLast? with
        | none => []
        | some [] => [[]]
        | some last => [shift.moveLine width last]))

/-- The plan for a selection with a line feed in it: every line it touches moves. The last line
stays if the selection ends at its start. -/
def planBlock (text : List Char) (start stop width : Nat) (shift : Shift) :
    Except Failure Plan := do
  let map := LineMap.ofText text
  let blockStart := (map.start? (map.position start).line).getD 0
  let final ← Checked.charBefore text stop
  let blockStop :=
    if final = '\n' then stop else (map.stop? (map.position stop).line).getD stop
  let block ← Checked.piece text ⟨blockStart, blockStop⟩
  let lines := rows block
  let firstLine := lines.headD []
  let lastLine := lines.getLastD []
  let moved := shift.moveLines width lines
  let above := shift.moveLines width (lines.dropLast ++ [[]])
  let lastColumn := stop - (blockStop - lastLine.length)
  return {
    edit := if moved = block then none else some ⟨⟨blockStart, blockStop⟩, moved⟩
    selection :=
      { anchor := blockStart + shift.moveColumn width firstLine (start - blockStart)
        head := blockStart + above.length +
          (if lastLine.isEmpty then 0 else shift.moveColumn width lastLine lastColumn) } }

/-- The distance from a column to the next tab stop behind it. -/
def toTabStop (width column : Nat) : Except Failure Nat := do
  let past ← Checked.remainder column width
  return width - past

/-- The distance from a column to the next tab stop, and none at a tab stop. -/
def padding (width column : Nat) : Except Failure Nat := do
  let distance ← toTabStop width column
  Checked.remainder distance width

/-- The plan that replaces a selection within one line by spaces up to the next tab stop. -/
def planTab (text : List Char) (start stop width : Nat) : Except Failure Plan := do
  let column := ((LineMap.ofText text).position start).column
  let pad := spaces (← toTabStop width column)
  return { edit := some ⟨⟨start, stop⟩, pad⟩, selection := .caret (start + pad.length) }

/-- The plan that moves the line of a selection within one line out. -/
def planOutdent (text : List Char) (start stop width : Nat) : Plan :=
  let map := LineMap.ofText text
  let line := (map.position start).line
  let lineStart := (map.start? line).getD 0
  let lineStop := (map.stop? line).getD lineStart
  let content := (text.take lineStop).drop lineStart
  let removed := removable width content
  if removed = 0 then { edit := none, selection := ⟨start, stop⟩ }
  else
    { edit := some ⟨⟨lineStart, lineStop⟩, content.drop removed⟩
      selection := ⟨max (start - removed) lineStart, max (stop - removed) lineStart⟩ }

/-- The plan for moving the lines at a selection. A tab stop is at least one column wide, and
the selection is first moved back into the text. -/
def plan (text : List Char) (selection : Selection) (tabWidth : Nat) (shift : Shift) :
    Except Failure Plan := do
  let width := max tabWidth 1
  let start := min selection.start text.length
  let stop := min selection.stop text.length
  let selected ← Checked.piece text ⟨start, stop⟩
  if selected.contains '\n' then planBlock text start stop width shift
  else
    match shift with
    | indent => planTab text start stop width
    | outdent => return planOutdent text start stop width

theorem toTabStop_eq {width : Nat} (hWidth : 0 < width) (column : Nat) :
    toTabStop width column = .ok (width - column % width) := by
  rw [toTabStop, Checked.remainder_eq_ok_iff.mpr ⟨hWidth, rfl⟩]
  rfl

theorem padding_eq {width : Nat} (hWidth : 0 < width) (column : Nat) :
    padding width column = .ok ((width - column % width) % width) := by
  rw [padding, toTabStop_eq hWidth]
  exact Checked.remainder_eq_ok_iff.mpr ⟨hWidth, rfl⟩

end Shift

end EditAssist
