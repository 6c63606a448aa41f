import EditAssist.Spin.Declaration
import EditAssist.Text.Order

/-! The identifiers of a symbol table that match what has been typed of a word. -/
namespace EditAssist.Candidates

open Text

/-- The identifier at the place where a row first holds `typed`, in any case of plain letters.
It starts after the last space before that place and ends at the first delimiter. What is
already typed in full is no candidate. -/
def ofRow? (typed row : List Char) : Option (List Char) :=
  let declaration := foldBlanks (Symbol.declaration row)
  (find? (asciiLower typed) (asciiLower declaration)).bind fun hit =>
    let start := ((lastIndexOf? ' ' (declaration.take hit)).map (· + 1)).getD 0
    let candidate := Declaration.identifier (declaration.drop start)
    if candidate.isEmpty || candidate == typed then none else some candidate

/-- Drops the entries that repeat the one kept before them but for case, where `last` was kept
before the first. -/
def dropRepeatsAfter (last : List Char) : List (List Char) → List (List Char)
  | [] => []
  | entry :: rest =>
    if lowercase entry == lowercase last then dropRepeatsAfter last rest
    else entry :: dropRepeatsAfter entry rest

/-- Keeps the first of neighbours that differ only in case. -/
def dropRepeats : List (List Char) → List (List Char)
  | [] => []
  | entry :: rest => entry :: dropRepeatsAfter entry rest

/-- The candidates of all rows, in alphabetical order without regard to case. Of candidates
that differ only in case the one of the earliest row stays. -/
def ofRows (typed : List Char) (rows : List (List Char)) : List (List Char) :=
  dropRepeats ((rows.filterMap (ofRow? typed)).mergeSort
    fun left right => atMost (lowercase left) (lowercase right))

end EditAssist.Candidates
