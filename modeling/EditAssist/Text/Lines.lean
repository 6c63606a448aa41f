/-! Two ways to cut a text into lines. A *row* ends at every line feed, so a text has one row
more than it has line feeds; this is how rows are numbered on screen. A *record* is what a line
feed ends: no record follows a final line feed, and a carriage return just before a line feed
belongs to the break. -/
namespace EditAssist.Text

/-- The pieces between line feeds. -/
def rows (text : List Char) : List (List Char) :=
  text.splitOn '\n'

/-- Drops one carriage return at the end. -/
def chopReturn (row : List Char) : List Char :=
  if row.getLast? = some '\r' then row.dropLast else row

/-- The records among the rows of a text. Every row but the last was ended by a line feed. -/
def recordsOfRows : List (List Char) → List (List Char)
  | [] => []
  | [last] => if last.isEmpty then [] else [last]
  | row :: rest => chopReturn row :: recordsOfRows rest

/-- The records of a text. -/
def records (text : List Char) : List (List Char) :=
  recordsOfRows (rows text)

end EditAssist.Text
