import EditAssist.Text.Blank
import EditAssist.Text.Search

/-! What a new line starts with when the line above it is broken. -/
namespace EditAssist.Continuation

open Text

/-- The comment mark to repeat: the double mark of a documentation comment if the line holds
one anywhere. -/
def mark (line : List Char) : List Char :=
  if occursIn ['\'', '\''] line then ['\'', '\''] else ['\'']

/-- What a walk along the line from `column` on gives. Up to the comment it gives a space for every
character, and the mark where the comment begins. From there on, or from the start of a line
without a comment, it goes as far as white space goes and gives a space for each. -/
def leadFrom (comment : Option Nat) (mark : List Char) (column : Nat) : List Char → List Char
  | [] => []
  | c :: rest =>
    if comment.any (column ≤ ·) || isBlank c then
      (if comment == some column then mark else [' ']) ++
        leadFrom comment mark (column + 1) rest
    else []

/-- The text that continues a line. Without a comment this is its indentation. A comment goes
on in the same column: the code before it becomes spaces, the mark is repeated, and the white
space after the mark is kept. -/
def lead (line : List Char) : List Char :=
  leadFrom (line.idxOf? '\'') (mark line) 0 line

end EditAssist.Continuation
