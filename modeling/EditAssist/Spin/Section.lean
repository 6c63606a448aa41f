import EditAssist.Spin.Keyword
import EditAssist.Text.Lines

/-! Sections of a Spin source file and the bands of rows that they cover. -/
namespace EditAssist

inductive Section
  | con
  | var
  | obj
  | pub
  | pri
  | dat
  deriving DecidableEq, Repr

namespace Section

open Text

/-- All sections, in the order in which a header is compared with them. -/
def all : List Section :=
  [con, var, obj, pub, pri, dat]

def keyword : Section → List Char
  | con => ['C', 'O', 'N']
  | .var => ['V', 'A', 'R']
  | obj => ['O', 'B', 'J']
  | pub => ['P', 'U', 'B']
  | pri => ['P', 'R', 'I']
  | dat => ['D', 'A', 'T']

/-- The section that a row opens: its first three characters are the keyword, in any case, and
the fourth, if there is one, goes on with no word. -/
def ofHeader? (row : List Char) : Option Section :=
  if Keyword.wordContinues (row.drop 3) then none
  else all.find? fun kind => eqIgnoringCase (row.take 3) kind.keyword

end Section

/-- The rows from `first` to before `stop`, all of one section. `alternate` marks every other
band in a run of bands of the same kind. -/
structure Band where
  kind : Section
  first : Nat
  stop : Nat
  alternate : Bool
  deriving DecidableEq, Repr

namespace Band

open Text

/-- The depth of comment braces after a row. A row counts at most one opening and one closing
brace, and the depth does not fall below zero. -/
def depthAfter (depth : Nat) (row : List Char) : Nat :=
  (if row.contains '{' then depth + 1 else depth) - (if row.contains '}' then 1 else 0)

/-- A cut of the rows read so far: the finished bands, newest first, the header of the band
that is still open, the depth of comment braces and the number of rows. -/
structure Cut where
  finished : List Band
  kind : Section
  first : Nat
  alternate : Bool
  depth : Nat
  count : Nat

namespace Cut

/-- Before any row an implicit `CON` band is open. -/
def start : Cut :=
  ⟨[], .con, 0, false, 0, 0⟩

/-- All bands, newest first, once the open one ends at the current row. A band without rows is
left out. -/
def close (cut : Cut) : List Band :=
  if cut.first < cut.count then
    ⟨cut.kind, cut.first, cut.count, cut.alternate⟩ :: cut.finished
  else cut.finished

/-- The tone of a new band after the finished ones, newest first. -/
def toneAfter (kind : Section) : List Band → Bool
  | [] => false
  | last :: _ => last.kind == kind && !last.alternate

/-- Reads one more row. A header opens a new band unless a comment is open after its row. -/
def next (cut : Cut) (row : List Char) : Cut :=
  let depth := depthAfter cut.depth row
  match if depth = 0 then Section.ofHeader? row else none with
  | none => { cut with depth := depth, count := cut.count + 1 }
  | some kind =>
    { finished := cut.close
      kind := kind
      first := cut.count
      alternate := toneAfter kind cut.close
      depth := depth
      count := cut.count + 1 }

end Cut

/-- The bands of a text, from its first row to its last. -/
def ofText (text : List Char) : List Band :=
  ((rows text).foldl Cut.next Cut.start).close.reverse

end Band

end EditAssist
