/-! Numerals of JSON: how they are spelled, and which of them are too large to be numbers. -/
namespace EditAssist.Json

/-- A numeral in parts: sign, digits before and after the point, and the power of ten that is
written after it. `plain` says that it has neither point nor exponent. -/
structure Numeral where
  negative : Bool
  whole : List Nat
  fraction : List Nat
  exponent : Int
  plain : Bool
  deriving DecidableEq, Repr

namespace Numeral

def digitValue (c : Char) : Nat :=
  c.toNat - '0'.toNat

/-- The longest run of digits in front of a text, and the rest. -/
def splitDigits (text : List Char) : List Nat × List Char :=
  ((text.takeWhile Char.isDigit).map digitValue, text.dropWhile Char.isDigit)

def ofDigits (digits : List Nat) : Nat :=
  digits.foldl (fun value digit => value * 10 + digit) 0

/-- The digits before the point. A leading zero stands alone. -/
def readWhole? (text : List Char) : Option (List Nat × List Char) :=
  match splitDigits text with
  | ([], _) => none
  | (0 :: _ :: _, _) => none
  | found => some found

/-- The digits after a point, of which there is at least one. -/
def readFraction? : List Char → Option (List Nat × List Char)
  | '.' :: rest =>
    match splitDigits rest with
    | ([], _) => none
    | found => some found
  | text => some ([], text)

/-- A sign and the text after it. A missing sign is positive. -/
def readSign : List Char → Bool × List Char
  | '-' :: rest => (true, rest)
  | '+' :: rest => (false, rest)
  | text => (false, text)

/-- The power of ten after an exponent mark, where at least one digit follows the sign. -/
def readExponent? (text : List Char) : Option (Int × List Char) :=
  match text with
  | [] => some (0, [])
  | c :: rest =>
    if c == 'e' || c == 'E' then
      let (negative, unsigned) := readSign rest
      match splitDigits unsigned with
      | ([], _) => none
      | (digits, tail) =>
        some (if negative then -(ofDigits digits : Int) else ofDigits digits, tail)
    else some (0, text)

/-- A numeral in front of a text, and the rest. -/
def read? (text : List Char) : Option (Numeral × List Char) := do
  let (negative, unsigned) :=
    match text with
    | '-' :: rest => (true, rest)
    | _ => (false, text)
  let (whole, afterWhole) ← readWhole? unsigned
  let (fraction, afterFraction) ← readFraction? afterWhole
  let (exponent, rest) ← readExponent? afterFraction
  some (⟨negative, whole, fraction, exponent, afterWhole.length == rest.length⟩, rest)

/-- The first number that a 64-bit word does not hold. -/
def wordBound : Nat := Nat.pow 2 64

/-- Takes digits into a significand as long as it fits a word, and counts the digits that are
left over. -/
def accumulate (value : Nat) : List Nat → Nat × Nat
  | [] => (value, 0)
  | digit :: rest =>
    if value * 10 + digit < wordBound then accumulate (value * 10 + digit) rest
    else (value, rest.length + 1)

/-- The significand of a numeral and its power of ten. Left-over digits before the point raise
the power; left-over digits after it are dropped. -/
def scaled (numeral : Numeral) : Nat × Int :=
  let (whole, excess) := accumulate 0 numeral.whole
  let (significand, dropped) := accumulate whole numeral.fraction
  (significand, numeral.exponent + excess - (numeral.fraction.length - dropped : Nat))

/-- The nearest number with 53 significant bits, the even one of two equally near. -/
def round53 (n : Nat) : Nat :=
  if n < Nat.pow 2 53 then n
  else
    let unit := Nat.pow 2 (n.log2 - 52)
    let quotient := n / unit
    let rest := n % unit
    (if unit < 2 * rest ∨ (2 * rest = unit ∧ quotient % 2 = 1) then quotient + 1 else quotient) *
      unit

/-- The least number that rounds past the largest binary number of 53 bits and exponents below
1024. -/
def overflowBound : Nat := Nat.pow 2 1024 - Nat.pow 2 970

/-- Whether the value overflows. Significand and power of ten are rounded each on their own
before they are multiplied; a zero never overflows. -/
def overflows (numeral : Numeral) : Bool :=
  let (significand, power) := numeral.scaled
  significand != 0 &&
    (power > 308 ||
      (power ≥ 0 && round53 significand * round53 (Nat.pow 10 power.toNat) ≥ overflowBound))

/-- The value of a numeral that is a natural number below `2 ^ 64`, spelled without sign, point
and exponent. -/
def natural? (numeral : Numeral) : Option Nat :=
  let (value, excess) := accumulate 0 numeral.whole
  if numeral.plain && !numeral.negative && excess == 0 then some value else none

end Numeral

end EditAssist.Json
