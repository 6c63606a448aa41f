import EditAssist.Settings.Json.Numeral

/-! Tokens of JSON text. -/
namespace EditAssist.Json

/-- The words of JSON text. -/
inductive Token
  | openBrace
  | closeBrace
  | openBracket
  | closeBracket
  | comma
  | colon
  | null
  | bool (value : Bool)
  | natural (value : Nat)
  | otherNumber
  | string (value : List Char)
  deriving DecidableEq, Repr

namespace Token

/-- The only white space of JSON. -/
def isSpace (c : Char) : Bool :=
  c == ' ' || c == '\t' || c == '\n' || c == '\r'

/-- A piece of a string: a character, or a 16-bit unit that was written by its number. -/
inductive Piece
  | char (value : Char)
  | unit (value : Nat)
  deriving DecidableEq, Repr

def hexValue? (c : Char) : Option Nat :=
  if c.isDigit then some (c.toNat - '0'.toNat)
  else if 'a' ≤ c ∧ c ≤ 'f' then some (c.toNat - 'a'.toNat + 10)
  else if 'A' ≤ c ∧ c ≤ 'F' then some (c.toNat - 'A'.toNat + 10)
  else none

def unit? (a b c d : Char) : Option Nat := do
  some (((← hexValue? a) * 16 + (← hexValue? b)) * 256 + (← hexValue? c) * 16 + (← hexValue? d))

/-- The character that a backslash and a letter stand for. -/
def escaped? (c : Char) : Option Char :=
  if c == '"' || c == '\\' || c == '/' then some c
  else if c == 'b' then some '\x08'
  else if c == 'f' then some '\x0c'
  else if c == 'n' then some '\n'
  else if c == 'r' then some '\r'
  else if c == 't' then some '\t'
  else none

/-- The pieces of a string up to its closing quote, and the text after it. Control characters
may not stand in a string as they are. -/
def readPieces? : List Char → Option (List Piece × List Char)
  | [] => none
  | '"' :: rest => some ([], rest)
  | '\\' :: 'u' :: a :: b :: c :: d :: rest => do
    let value ← unit? a b c d
    let (pieces, tail) ← readPieces? rest
    some (.unit value :: pieces, tail)
  | '\\' :: c :: rest => do
    let value ← escaped? c
    let (pieces, tail) ← readPieces? rest
    some (.char value :: pieces, tail)
  | c :: rest =>
    if c.toNat < 0x20 || c == '\\' then none
    else do
      let (pieces, tail) ← readPieces? rest
      some (.char c :: pieces, tail)

/-- The units that come first in a pair. -/
def isHighSurrogate (unit : Nat) : Bool :=
  0xD800 ≤ unit && unit < 0xDC00

/-- The units that come second in a pair. -/
def isLowSurrogate (unit : Nat) : Bool :=
  0xDC00 ≤ unit && unit < 0xE000

/-- The characters of the pieces of a string. A high surrogate and the low one right after it
give one character, and neither may stand alone. -/
def join? : List Piece → Option (List Char)
  | [] => some []
  | .char c :: rest => (join? rest).map (c :: ·)
  | .unit high :: .unit low :: rest =>
    if isHighSurrogate high then
      if isLowSurrogate low then
        (join? rest).map
          (Char.ofNat (0x10000 + (high - 0xD800) * 0x400 + (low - 0xDC00)) :: ·)
      else none
    else if isLowSurrogate high then none
    else (join? (.unit low :: rest)).map (Char.ofNat high :: ·)
  | .unit value :: rest =>
    if isHighSurrogate value || isLowSurrogate value then none
    else (join? rest).map (Char.ofNat value :: ·)

/-- The string whose opening quote stands just before the text. -/
def readString? (text : List Char) : Option (Token × List Char) := do
  let (pieces, rest) ← readPieces? text
  some (.string (← join? pieces), rest)

/-- A number. Numerals that overflow are none. -/
def readNumber? (text : List Char) : Option (Token × List Char) := do
  let (numeral, rest) ← Numeral.read? text
  if numeral.overflows then none
  else
    match numeral.natural? with
    | some value => some (.natural value, rest)
    | none => some (.otherNumber, rest)

/-- The token in front of a text that starts with no space, and the rest. -/
def readHere? : List Char → Option (Token × List Char)
  | [] => none
  | '\x7b' :: rest => some (.openBrace, rest)
  | '\x7d' :: rest => some (.closeBrace, rest)
  | '[' :: rest => some (.openBracket, rest)
  | ']' :: rest => some (.closeBracket, rest)
  | ',' :: rest => some (.comma, rest)
  | ':' :: rest => some (.colon, rest)
  | '"' :: rest => readString? rest
  | 'n' :: 'u' :: 'l' :: 'l' :: rest => some (.null, rest)
  | 't' :: 'r' :: 'u' :: 'e' :: rest => some (.bool true, rest)
  | 'f' :: 'a' :: 'l' :: 's' :: 'e' :: rest => some (.bool false, rest)
  | text => readNumber? text

/-- The first token of a text and the text after it. -/
def read? (text : List Char) : Option (Token × List Char) :=
  readHere? (text.dropWhile isSpace)

/-- Whether nothing but space is left. -/
def isEnd (text : List Char) : Bool :=
  text.all isSpace

/-- All tokens of a text. Every token takes at least one character. -/
def readAll? (text : List Char) : Option (List Token) :=
  if isEnd text then some []
  else
    match read? text with
    | none => none
    | some (token, rest) =>
      if rest.length < text.length then (readAll? rest).map (token :: ·) else none
termination_by text.length

end Token

end EditAssist.Json
