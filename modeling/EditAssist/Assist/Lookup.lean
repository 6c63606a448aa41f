/-! Questions to the symbol table. -/
namespace EditAssist

/-- The two lists that a symbol table keeps of every scope. -/
inductive Catalogue
  | members
  | constants
  deriving DecidableEq, Repr

/-- A question: a catalogue, the file that asks and the object that is meant. No object means
the file itself. -/
structure Lookup where
  catalogue : Catalogue
  file : List Char
  object : List Char
  deriving DecidableEq, Repr

abbrev SymbolSource : Type :=
  Lookup → List (List Char)

end EditAssist
