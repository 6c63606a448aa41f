import EditAssist.Text.Blank

/-! What the text around the caret says about it. -/
namespace EditAssist.Context

open Text

/-- A line comment has begun before the caret. -/
def inLineComment (before : List Char) : Bool :=
  before.contains '\''

/-- The last brace before the caret opens a comment. -/
def inBraceComment (before : List Char) : Bool :=
  (before.reverse.find? fun c => c == '\x7b' || c == '\x7d') == some '\x7b'

/-- An odd number of quotes stands on the line up to the character at the caret. -/
def inString (through : List Char) : Bool :=
  through.count '"' % 2 == 1

/-- Whether no menu may open at `column` of `line`, with `before` all the text before it. -/
def suppressesMenu (before line : List Char) (column : Nat) : Bool :=
  inLineComment (line.take column) || inBraceComment before || inString (line.take (column + 1))

/-- The name that ends at the caret: all characters back to the nearest white space. -/
def nameBefore (before : List Char) : List Char :=
  (before.reverse.takeWhile fun c => !isBlank c).reverse

end EditAssist.Context
