/-! Values of settings documents. -/
namespace EditAssist

/-- A JSON value. Settings hold no numbers but naturals below `2 ^ 64`, so of every other number
only the fact that it is one is kept. -/
inductive Json
  | null
  | bool (value : Bool)
  | natural (value : Nat)
  | otherNumber
  | string (value : List Char)
  | array (items : List Json)
  | object (fields : List (List Char × Json))

namespace Json

/-- The value of a key among the fields of an object. Of a repeated key the last field counts. -/
def lookup? (key : List Char) (fields : List (List Char × Json)) : Option Json :=
  (fields.reverse.find? fun field => field.1 == key).map (·.2)

def fields? : Json → Option (List (List Char × Json))
  | .object fields => some fields
  | _ => none

/-- The value of a key, if this is an object that has it. -/
def field? (key : List Char) (json : Json) : Option Json :=
  json.fields?.bind (lookup? key)

def natural? : Json → Option Nat
  | .natural value => some value
  | _ => none

def bool? : Json → Option Bool
  | .bool value => some value
  | _ => none

end Json

end EditAssist
