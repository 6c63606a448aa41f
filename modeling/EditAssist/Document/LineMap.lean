import EditAssist.Document.Range

/-! A table of line starts, which answers questions about lines without reading the text
again. -/
namespace EditAssist

/-- The offsets at which the lines of a text start, and its length. -/
structure LineMap where
  starts : List Nat
  length : Nat
  deriving DecidableEq, Repr

namespace LineMap

/-- The offsets just after each line feed, where `text` begins at `offset`. -/
def startsAfter (offset : Nat) : List Char → List Nat
  | [] => []
  | c :: rest =>
    if c = '\n' then (offset + 1) :: startsAfter (offset + 1) rest
    else startsAfter (offset + 1) rest

/-- The first line starts at 0, every other one after a line feed. -/
def ofText (text : List Char) : LineMap :=
  ⟨0 :: startsAfter 0 text, text.length⟩

/-- The line that holds `offset`: the last one that does not start after it. -/
def lineAt (map : LineMap) (offset : Nat) : Nat :=
  (map.starts.takeWhile (· ≤ offset)).length - 1

/-- The offset at which `line` starts, if there is such a line. -/
def start? (map : LineMap) (line : Nat) : Option Nat :=
  map.starts[line]?

/-- The offset at which `line` ends, its line feed not counted. -/
def stop? (map : LineMap) (line : Nat) : Option Nat :=
  (map.start? line).map fun _ =>
    match map.start? (line + 1) with
    | some next => next - 1
    | none => map.length

/-- The position of an offset. An offset past the end is taken to be the end. -/
def position (map : LineMap) (offset : Nat) : Position :=
  let place := min offset map.length
  let line := map.lineAt place
  ⟨line, place - (map.start? line).getD 0⟩

end LineMap

end EditAssist
