import EditAssist.Text.Alphanumeric
import EditAssist.Text.Lowercase
import EditAssist.Text.Search

/-! The keywords of Spin that matter to declarations, and the search for them as whole words
without regard to the case of plain letters. -/
namespace EditAssist.Keyword

open Text

def sections : List (List Char) :=
  [['c', 'o', 'n'], ['d', 'a', 't'], ['p', 'u', 'b'], ['p', 'r', 'i'], ['o', 'b', 'j'],
   ['v', 'a', 'r']]

/-- Storage sizes, which may stand before a declared name. -/
def sizes : List (List Char) :=
  [['b', 'y', 't', 'e'], ['l', 'o', 'n', 'g'], ['w', 'o', 'r', 'd']]

/-- Keywords that end the name part of a declaration. -/
def stops : List (List Char) :=
  sizes ++ [['o', 'r', 'g']]

/-- Whether a word goes on at the start of `text`. -/
def wordContinues : List Char → Bool
  | [] => false
  | c :: _ => isWordChar c

/-- Whether `text` starts with `keyword` and the word ends there. -/
def leads (text keyword : List Char) : Bool :=
  eqIgnoringCase (text.take keyword.length) keyword &&
    !wordContinues (text.drop keyword.length)

/-- The first keyword of `set` that `text` starts with. -/
def leading? (set : List (List Char)) (text : List Char) : Option (List Char) :=
  set.find? (leads text)

/-- The index of the first keyword at which a word starts, where `inWord` says whether the
character before `text` belongs to a word. -/
def findFrom? (set : List (List Char)) (inWord : Bool) : List Char → Option Nat
  | [] => none
  | c :: rest =>
    if !inWord && (leading? set (c :: rest)).isSome then some 0
    else (findFrom? set (isWordChar c) rest).map (· + 1)

/-- The index of the first keyword that stands as a whole word. -/
def find? (set : List (List Char)) (text : List Char) : Option Nat :=
  findFrom? set false text

/-- The byte at which that keyword starts when the text is written in UTF-8. -/
def findByte? (set : List (List Char)) (text : List Char) : Option Nat :=
  (find? set text).map fun place => utf8Size (text.take place)

end EditAssist.Keyword
