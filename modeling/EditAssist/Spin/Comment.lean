import EditAssist.Text.Lines
import EditAssist.Text.Search

/-! Regions between an opening and a closing mark. Counting goes by records: a record gives at
most one opening and one closing mark however many it holds, and an empty record gives none. -/
namespace EditAssist

/-- The two marks of a region. -/
structure Delimiters where
  opener : List Char
  closer : List Char
  deriving DecidableEq, Repr

def Delimiters.block : Delimiters :=
  ⟨['/', '*'], ['*', '/']⟩

def Delimiters.brace : Delimiters :=
  ⟨['{'], ['}']⟩

/-- How many records hold an opening mark and how many a closing one. -/
structure Balance where
  opens : Nat := 0
  closes : Nat := 0
  deriving DecidableEq, Repr

namespace Balance

open Text

/-- Whether as many records open a region as close one. -/
def isBalanced (balance : Balance) : Bool :=
  balance.opens == balance.closes

/-- Whether more records open a region than close one. -/
def isOpen (balance : Balance) : Bool :=
  balance.closes < balance.opens

/-- Counts a record for each of the two marks that it holds. -/
def count (marks : Delimiters) (balance : Balance) (record : List Char) : Balance where
  opens := balance.opens + (if occursIn marks.opener record then 1 else 0)
  closes := balance.closes + (if occursIn marks.closer record then 1 else 0)

def ofRecords (marks : Delimiters) (records : List (List Char)) : Balance :=
  records.foldl (count marks) {}

/-- The balance over a text. Empty records are taken out before the rest is counted. -/
def ofText (marks : Delimiters) (text : List Char) : Balance :=
  ofRecords marks ((records text).filter (!·.isEmpty))

end Balance

namespace Comment

open Text

/-- What one pass over the records finds: whether a region was open after record `line`, and the
balance over all of them. -/
structure Scan where
  openAtLine : Bool
  balance : Balance
  deriving DecidableEq, Repr

/-- One pass from record number `index` on. An empty record is not counted, but its number is. -/
def scanFrom (marks : Delimiters) (line : Nat) :
    (index : Nat) → Scan → List (List Char) → Scan
  | _, found, [] => found
  | index, found, record :: rest =>
    let balance := if record.isEmpty then found.balance else found.balance.count marks record
    scanFrom marks line (index + 1)
      ⟨if index = line then balance.isOpen else found.openAtLine, balance⟩ rest

/-- The balance of `text` and the state at `line`. A line past the last record is never open. -/
def scan (marks : Delimiters) (text : List Char) (line : Nat) : Scan :=
  scanFrom marks line 0 ⟨false, {}⟩ (records text)

/-- Whether a region is open after `line`, the marks on that line included. -/
def isOpenAt (marks : Delimiters) (text : List Char) (line : Nat) : Bool :=
  (scan marks text line).openAtLine

/-- Takes the block comment out of a record, from its first opening mark to its last closing
one, if that comes after it. -/
def dropBlockComment (record : List Char) : List Char :=
  match find? Delimiters.block.opener record, findLast? Delimiters.block.closer record with
  | some first, some last =>
    if first + 2 ≤ last then record.take first ++ record.drop (last + 2) else record
  | _, _ => record

/-- The column for a closing brace typed at `column` of `line`, one tab stop to the left. There
is none within a tab stop of the margin, on a line that itself opens a brace, when the braces of
the text are balanced, or on the first line. -/
def braceColumn? (text : List Char) (line column tabWidth : Nat) : Option Nat :=
  let lines := records text
  if column ≤ tabWidth then none
  else if occursIn Delimiters.brace.opener (lines[line]?.getD []) then none
  else if (Balance.ofRecords .brace ((lines.filter (!·.isEmpty)).map dropBlockComment)).isBalanced
  then none
  else if line = 0 then none
  else some (column - tabWidth)

end Comment

end EditAssist
