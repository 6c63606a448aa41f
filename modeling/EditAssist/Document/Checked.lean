import EditAssist.Document.Failure

/-! Operations that are not defined everywhere. A run that asks for a result where there is none
ends for good, so whoever asks has to see to it that there is one. -/
namespace EditAssist.Checked

/-- What a division leaves over. -/
def remainder (number divisor : Nat) : Except Failure Nat :=
  if divisor = 0 then .error .divisionByZero else .ok (number % divisor)

/-- The character before an offset. There is none at the start and none past the end. -/
def charBefore (text : List Char) (offset : Nat) : Except Failure Char :=
  match offset, text[offset - 1]? with
  | _ + 1, some c => .ok c
  | _, _ => .error (.noCharBefore offset text.length)

/-- The piece of a text within a range, which may neither be reversed nor reach past the end. -/
def piece (text : List Char) (range : Range) : Except Failure (List Char) :=
  if range.stop < range.start then .error (.reversedRange range)
  else if text.length < range.stop then .error (.rangePastEnd range text.length)
  else .ok ((text.take range.stop).drop range.start)

theorem remainder_eq_ok_iff {number divisor rest : Nat} :
    remainder number divisor = .ok rest ↔ 0 < divisor ∧ number % divisor = rest := by
  rw [remainder]
  split <;> simp [Nat.pos_iff_ne_zero, *]

theorem charBefore_eq_ok_iff {text : List Char} {offset : Nat} {c : Char} :
    charBefore text offset = .ok c ↔ 0 < offset ∧ text[offset - 1]? = some c := by
  cases offset with
  | zero => simp [charBefore]
  | succ index => cases hChar : text[index]? <;> simp [charBefore, hChar]

theorem piece_eq_ok_iff {text content : List Char} {range : Range} :
    piece text range = .ok content ↔
      range.start ≤ range.stop ∧ range.stop ≤ text.length ∧
        (text.take range.stop).drop range.start = content := by
  rw [piece]
  split
  next hReversed => simp [Nat.not_le_of_lt hReversed]
  next hOrder =>
    split
    next hPast => simp [Nat.not_le_of_lt hPast]
    next hWithin => simp [Nat.not_lt.mp hOrder, Nat.not_lt.mp hWithin]

end EditAssist.Checked
