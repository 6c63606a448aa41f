import EditAssist.Spin.Keyword
import EditAssist.Spin.Symbol
import EditAssist.Text.Search
import EditAssist.Text.Trim

/-! From the declaration of a symbol to the text that is shown for it. -/
namespace EditAssist.Declaration

open Text

/-- Characters that end an identifier. -/
def delimiters : List Char :=
  [' ', '[', ',', '(', ')', '<', '>', ':', '=', '+', '-', '*', '/', '!', '@', '#', '$', '%', '^',
   '&', '|', '\t', '\r', '\n']

/-- The marks that start the tail of a declaration, in the order in which they are tried. -/
def tailMarks : List Char :=
  [':', '|', '[', '=']

/-- Cuts the tail of a declaration once. A closing parenthesis is kept with all before it, so
that call signatures stay whole; else the text ends before the last of a tail mark, else before
the first storage size or `org`. Nothing is cut at the very start. -/
def cutTail (text : List Char) : List Char :=
  let kept :=
    match (lastIndexOf? ')' text).filter (0 < ·) with
    | some close => text.take (close + 1)
    | none =>
      match tailMarks.findSome? fun mark => (lastIndexOf? mark text).filter (0 < ·) with
      | some i => text.take i
      | none =>
        match (Keyword.find? Keyword.stops text).filter (0 < ·) with
        | some i => text.take i
        | none => text
  trim kept

/-- Cuts until a cut no longer shortens the text. -/
def cutAll (text : List Char) : List Char :=
  if (cutTail text).length < text.length then cutAll (cutTail text) else text
termination_by text.length

/-- The shown form of a symbol row: its declaration with white space folded and the tail cut. -/
def shown (row : List Char) : List Char :=
  cutAll (foldBlanks (Symbol.declaration row))

/-- Drops a leading keyword of `set` and the one character after it. -/
def dropLeading (set : List (List Char)) (text : List Char) : List Char :=
  match Keyword.leading? set text with
  | some keyword => text.drop (keyword.length + 1)
  | none => text

/-- Drops a leading section keyword, then a leading storage size. -/
def dropCategory (text : List Char) : List Char :=
  dropLeading Keyword.sizes (dropLeading Keyword.sections text)

/-- The text up to the first delimiter, without white space at its ends. -/
def identifier (text : List Char) : List Char :=
  trim (text.takeWhile fun c => !delimiters.contains c)

end EditAssist.Declaration
