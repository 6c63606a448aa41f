import EditAssist.Document.Range

/-! Why an operation on a document is refused. -/
namespace EditAssist

/-- The causes of a failure. All but the first three are fatal: they mean that the caller or the
history speaks of characters that cannot be there, or divides by zero. -/
inductive Failure
  /-- An offset past the end of a document of `length` characters. -/
  | offsetOutOfRange (offset length : Nat)
  /-- A line that a document of `count` lines does not have. -/
  | lineOutOfRange (line count : Nat)
  /-- A group was closed though none was open. -/
  | unbalancedGroup
  /-- A piece of the text was asked for with its ends reversed. -/
  | reversedRange (range : Range)
  /-- A change cannot be taken back because the text no longer reaches that far. -/
  | lostRange (start size : Nat)
  /-- A piece that reaches past the end of `length` characters. -/
  | rangePastEnd (range : Range) (length : Nat)
  /-- No character stands before an offset in a text of `length` characters. -/
  | noCharBefore (offset length : Nat)
  /-- A division by zero. -/
  | divisionByZero
  deriving DecidableEq, Repr

namespace Failure

/-- Whether a run ends for good where this failure arises. -/
def isFatal : Failure → Bool
  | offsetOutOfRange .. | lineOutOfRange .. | unbalancedGroup => false
  | reversedRange .. | lostRange .. | rangePastEnd .. | noCharBefore .. | divisionByZero => true

/-- The failure in words. -/
def message : Failure → String
  | offsetOutOfRange offset length =>
    s!"offset {offset} is past the end of the document ({length} chars)"
  | lineOutOfRange line count => s!"line {line} does not exist ({count} lines)"
  | unbalancedGroup => "edit group closed without a matching open"
  | reversedRange range => s!"range starts at {range.start} and ends at {range.stop}"
  | lostRange start size => s!"change of {size} chars at {start} lies past the end of the document"
  | rangePastEnd range length => s!"range ends at {range.stop}, past the end of {length} chars"
  | noCharBefore offset length => s!"no char stands before offset {offset} of {length} chars"
  | divisionByZero => "division by zero"

end Failure

end EditAssist
