import EditAssist.Settings.Preferences
import EditAssist.Text.Lowercase
import EditAssist.Text.Search

/-! The language of a document, which decides whether menus open. -/
namespace EditAssist

/-- Menus open in Spin documents only. -/
inductive Language
  | spin
  | plain
  deriving DecidableEq, Repr

namespace Language

open Text

/-- The name of a language, which is also the ending of its files. -/
def name : Language → List Char
  | spin => ['s', 'p', 'i', 'n']
  | plain => ['p', 'l', 'a', 'i', 'n']

def ofName? (text : List Char) : Option Language :=
  [spin, plain].find? fun language => language.name == text

/-- A file is a Spin document if the text after its last dot is the name of the language, in any
case. -/
def ofFileName (file : List Char) : Language :=
  match lastIndexOf? '.' file with
  | some dot => if eqIgnoringCase (file.drop (dot + 1)) spin.name then spin else plain
  | none => plain

/-- Whether a token is a value or opens one. -/
def startsValue : Json.Token → Bool
  | .null | .bool _ | .natural _ | .otherNumber | .string _ | .openBrace | .openBracket => true
  | .closeBrace | .closeBracket | .comma | .colon => false

/-- The name of a language in front of a text. A string that names none is of the wrong shape.
Only a string may stand here at all, as a whole text or as a key. -/
def readName (text : List Char) : Except SettingsError (Language × List Char) :=
  match Json.Token.read? text with
  | some (.string value, rest) =>
    match ofName? value with
    | some language => .ok (language, rest)
    | none => .error .mismatch
  | _ => .error .malformed

/-- What stands between the key and the end of an object with that one key: a colon, a null and
the closing brace. The shape of the value is judged before what follows it. -/
def readNullField (text : List Char) : Except SettingsError (List Char) :=
  match Json.Token.read? text with
  | some (.colon, afterColon) =>
    match Json.Token.read? afterColon with
    | some (.null, afterValue) =>
      match Json.Token.read? afterValue with
      | some (.closeBrace, rest) => .ok rest
      | _ => .error .malformed
    | some (token, _) => .error (if startsValue token then .mismatch else .malformed)
    | none => .error .malformed
  | _ => .error .malformed

/-- A language from a text that holds its name as a string, or an object whose one key is the
name and whose value is null. The text is judged from front to back, so a wrong shape is found
before anything behind it. -/
def read (text : List Char) : Except SettingsError Language := do
  let (language, rest) ←
    match Json.Token.read? text with
    | some (.openBrace, inner) => do
      let (language, afterName) ← readName inner
      let rest ← readNullField afterName
      pure (language, rest)
    | _ => readName text
  if Json.Token.isEnd rest then pure language else .error .malformed

end Language

end EditAssist
