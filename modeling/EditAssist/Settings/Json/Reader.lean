import EditAssist.Settings.Json.Token
import EditAssist.Settings.Json.Value

/-! From tokens to values. The reader takes one token at a time and keeps the containers that
are still open on a stack. -/
namespace EditAssist.Json

/-- An open container around the value that is being read: the items before it, or the fields
before it and its key, newest first. -/
inductive Frame
  | items (before : List Json)
  | field (before : List (List Char × Json)) (key : List Char)

inductive Reading
  | atValue (stack : List Frame)
  | atFirstItem (stack : List Frame)
  | atKey (isFirst : Bool) (before : List (List Char × Json)) (stack : List Frame)
  | atColon (before : List (List Char × Json)) (key : List Char) (stack : List Frame)
  | afterItem (items : List Json) (stack : List Frame)
  | afterField (fields : List (List Char × Json)) (stack : List Frame)
  | done (value : Json)

namespace Reading

/-- The most containers that may be open at a time. -/
def maxDepth : Nat := 127

/-- A finished value goes into the innermost open container. -/
def put (value : Json) : List Frame → Reading
  | [] => .done value
  | .items before :: stack => .afterItem (value :: before) stack
  | .field before key :: stack => .afterField ((key, value) :: before) stack

/-- The first token of a value. -/
def begin? (token : Token) (stack : List Frame) : Option Reading :=
  match token with
  | .null => some (put .null stack)
  | .bool value => some (put (.bool value) stack)
  | .natural value => some (put (.natural value) stack)
  | .otherNumber => some (put .otherNumber stack)
  | .string value => some (put (.string value) stack)
  | .openBracket => if stack.length < maxDepth then some (.atFirstItem stack) else none
  | .openBrace => if stack.length < maxDepth then some (.atKey true [] stack) else none
  | _ => none

def step? (reading : Reading) (token : Token) : Option Reading :=
  match reading, token with
  | .atValue stack, token => begin? token stack
  | .atFirstItem stack, .closeBracket => some (put (.array []) stack)
  | .atFirstItem stack, token => begin? token (.items [] :: stack)
  | .atKey true _ stack, .closeBrace => some (put (.object []) stack)
  | .atKey _ before stack, .string key => some (.atColon before key stack)
  | .atColon before key stack, .colon => some (.atValue (.field before key :: stack))
  | .afterItem items stack, .comma => some (.atValue (.items items :: stack))
  | .afterItem items stack, .closeBracket => some (put (.array items.reverse) stack)
  | .afterField fields stack, .comma => some (.atKey false fields stack)
  | .afterField fields stack, .closeBrace => some (put (.object fields.reverse) stack)
  | _, _ => none

end Reading

/-- The value that a sequence of tokens spells. -/
def ofTokens? (tokens : List Token) : Option Json :=
  match tokens.foldlM Reading.step? (.atValue []) with
  | some (.done value) => some value
  | _ => none

/-- The value that a text spells, from its first character to its last. -/
def read? (text : List Char) : Option Json :=
  (Token.readAll? text).bind ofTokens?

end EditAssist.Json
