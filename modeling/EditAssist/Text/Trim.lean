import EditAssist.Text.Blank

/-! Cutting and folding white space. -/
namespace EditAssist.Text

/-- Drops the longest tail whose characters all satisfy `p`. -/
def dropTail (p : Char → Bool) (text : List Char) : List Char :=
  (text.reverse.dropWhile p).reverse

/-- Drops white space at both ends. -/
def trim (text : List Char) : List Char :=
  dropTail isBlank (text.dropWhile isBlank)

/-- The pieces between runs of white space, none of them empty. -/
def words (text : List Char) : List (List Char) :=
  (text.splitOnP isBlank).filter fun word => !word.isEmpty

/-- Folds every run of white space into one space and drops it at the ends. -/
def foldBlanks (text : List Char) : List Char :=
  [' '].intercalate (words text)

end EditAssist.Text
