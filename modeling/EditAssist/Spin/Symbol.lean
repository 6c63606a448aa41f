/-! Rows of a symbol table. A row is a tag character, a tab and a declaration. -/
namespace EditAssist.Symbol

/-- What a row of the symbol table declares. -/
inductive Kind
  | constant
  | enumeration
  | object
  | privateMethod
  | publicMethod
  | storage
  | dataLabel
  deriving DecidableEq, Repr

namespace Kind

def tag : Kind → Char
  | constant => 'c'
  | enumeration => 'e'
  | object => 'o'
  | privateMethod => 'p'
  | publicMethod => 'f'
  | storage => 'v'
  | dataLabel => 'x'

def ofTag? (tag : Char) : Option Kind :=
  if tag = 'c' then some constant
  else if tag = 'e' then some enumeration
  else if tag = 'o' then some object
  else if tag = 'p' then some privateMethod
  else if tag = 'f' then some publicMethod
  else if tag = 'v' then some storage
  else if tag = 'x' then some dataLabel
  else none

/-- Every tag is read back as its kind, so no two kinds share one. -/
theorem ofTag?_tag (kind : Kind) : ofTag? kind.tag = some kind := by
  cases kind <;> rfl

/-- Kinds whose declaration may list several names. -/
def declaresSeveral : Kind → Bool
  | constant | enumeration | storage | dataLabel => true
  | object | privateMethod | publicMethod => false

end Kind

/-- The first character of a row, whether or not it stands for a kind. -/
def tag? (row : List Char) : Option Char :=
  row.head?

/-- The kind of a row, if its first character is a tag. -/
def kind? (row : List Char) : Option Kind :=
  (tag? row).bind Kind.ofTag?

/-- The text after the first tab. A row without a tab is all declaration. -/
def declaration (row : List Char) : List Char :=
  match row.dropWhile (· != '\t') with
  | [] => row
  | _ :: rest => rest

end EditAssist.Symbol
