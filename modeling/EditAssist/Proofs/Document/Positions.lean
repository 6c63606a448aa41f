import EditAssist.Proofs.Document.Lines
import EditAssist.Proofs.Text.Trim

/-! Offsets and positions. The table of line starts and the document itself number lines alike and
give every offset the same position; a position that has an offset is the position of that offset.
The way back from an offset through its position ends at the text of the line: what belongs to the
break behind it has a position but is not reached through it. -/
namespace EditAssist

open Text

namespace LineMap

variable {text : List Char} {line start next : Nat}

/-- The table has one line more than the text has line feeds. -/
theorem length_starts (text : List Char) : (ofText text).starts.length = text.count '\n' + 1 := by
  rw [ofText, List.length_cons, length_startsAfter]

/-- A line is in the table if the text has it. -/
theorem le_count_of_start? (hStart : (ofText text).start? line = some start) :
    line ≤ text.count '\n' := by
  obtain ⟨hLine, -⟩ := List.getElem?_eq_some_iff.mp hStart
  rw [length_starts] at hLine
  exact Nat.le_of_lt_succ hLine

/-- The start of a line is its first position. -/
theorem position_start (hStart : (ofText text).start? line = some start) :
    (ofText text).position start = ⟨line, 0⟩ := by
  obtain ⟨above, row, below, hNumber, hCut⟩ := exists_lineCut_of_line (le_count_of_start? hStart)
  subst hNumber
  rw [start?_eq hCut] at hStart
  cases hStart
  rw [position_eq hCut, Nat.sub_self]

/-- A line ends just before the next one starts: only its line feed lies between. -/
theorem stop?_of_next (hNext : (ofText text).start? (line + 1) = some next) :
    ∃ stop, (ofText text).stop? line = some stop ∧ stop + 1 = next := by
  have hAfter : (startsAfter 0 text)[line]? = some next := hNext
  have hPositive := (mem_startsAfter (List.mem_of_getElem? hAfter)).1
  obtain ⟨above, row, below, hNumber, hCut⟩ :=
    exists_lineCut_of_line (Nat.le_of_succ_le (le_count_of_start? hNext))
  subst hNumber
  refine ⟨next - 1, ?_, Nat.sub_add_cancel hPositive⟩
  rw [stop?, start?_eq hCut, Option.map_some, hNext]

end LineMap

namespace Document

variable {document : Document} {offset : Nat} {above row below : List Char}

/-- What lies beyond the last line is no line. -/
theorem checkLine_of_le {line : Nat} (hLine : document.lineCount ≤ line) :
    document.checkLine line = .error (.lineOutOfRange line document.lineCount) := by
  rw [checkLine, if_pos hLine]

/-- A line of the document starts where the table says, and both have the same lines. -/
theorem lineStart_eq_ok_iff {line start : Nat} :
    document.lineStart line = .ok start ↔
      (LineMap.ofText document.text).start? line = some start := by
  by_cases hLine : line ≤ document.text.count '\n'
  · obtain ⟨above, row, below, hNumber, hCut⟩ := exists_lineCut_of_line hLine
    subst hNumber
    rw [lineStart_eq hCut, LineMap.start?_eq hCut, Except.ok.injEq, Option.some.injEq]
  · have hPast : document.lineCount ≤ line := Nat.not_le.mp hLine
    rw [lineStart, checkLine_of_le hPast]
    constructor
    · intro hStart
      cases hStart
    · intro hStart
      exact absurd (LineMap.le_count_of_start? hStart) hLine

/-- A position is as good as its column: within the text of the line, or past it. -/
theorem offsetAt_eq (h : LineCut document.text offset above row below) (column : Nat) :
    document.offsetAt ⟨above.count '\n', column⟩ =
      if (dropTail (· == '\r') row).length < column then
        .error (.offsetOutOfRange (wrapOffset (above.length + column)) document.length)
      else .ok (above.length + column) := by
  simp only [offsetAt, lineStart_eq h, lineText_eq h, bind, Except.bind]
  split <;> rfl

theorem positionAt_of_offsetAt {position : Position}
    (hOffset : document.offsetAt position = .ok offset) :
    document.positionAt offset = .ok position := by
  obtain ⟨line, column⟩ := position
  by_cases hLine : line ≤ document.text.count '\n'
  · obtain ⟨above, row, below, hNumber, hCut⟩ := exists_lineCut_of_line hLine
    subst hNumber
    rw [offsetAt_eq hCut] at hOffset
    split at hOffset
    · cases hOffset
    next hWithin =>
    cases hOffset
    have hColumn : column ≤ row.length :=
      Nat.le_trans (Nat.not_lt.mp hWithin) (prefix_dropTail _ row).length_le
    rw [positionAt_eq (hCut.slide hColumn), Nat.add_sub_cancel_left]
  · have hPast : document.lineCount ≤ line := Nat.not_le.mp hLine
    rw [offsetAt, lineStart, checkLine_of_le hPast] at hOffset
    cases hOffset

/-- The document and the table of its line starts say the same of every offset, every line and
every position. -/
theorem lineMap_agrees (document : Document) :
    let map := LineMap.ofText document.text
    (∀ offset ≤ document.length, ∃ place start stop,
      document.positionAt offset = .ok place ∧ map.position offset = place ∧
        map.start? place.line = some start ∧ start + place.column = offset ∧
        map.stop? place.line = some stop ∧ offset ≤ stop) ∧
    (∀ line start, document.lineStart line = .ok start ↔ map.start? line = some start) ∧
    (∀ line start, map.start? line = some start → map.position start = ⟨line, 0⟩) ∧
    (∀ line next, map.start? (line + 1) = some next →
      ∃ stop, map.stop? line = some stop ∧ stop + 1 = next) ∧
    document.lineCount = map.starts.length ∧
    ∀ place offset, document.offsetAt place = .ok offset →
      document.positionAt offset = .ok place := by
  intro map
  refine ⟨fun offset hOffset => ?_, fun _ _ => lineStart_eq_ok_iff,
    fun _ _ => LineMap.position_start, fun _ _ => LineMap.stop?_of_next,
    (LineMap.length_starts document.text).symm, fun _ _ => positionAt_of_offsetAt⟩
  obtain ⟨above, row, below, hCut⟩ := exists_lineCut hOffset
  exact ⟨_, _, _, positionAt_eq hCut, LineMap.position_eq hCut, LineMap.start?_eq hCut,
    Nat.add_sub_cancel' hCut.start_le, LineMap.stop?_eq hCut, hCut.le_stop⟩

/-- Offsets next to a break of two characters, behind an empty line, and behind the last line
feed. -/
theorem lineMap_agrees_around_breaks :
    let document : Document := .ofText ['a', '\r', '\n', '\n', '\u2028', '\n'] (.caret 0)
    let map := LineMap.ofText document.text
    document.positionAt 2 = .ok ⟨0, 2⟩ ∧ map.position 2 = ⟨0, 2⟩ ∧
      document.positionAt 6 = .ok ⟨3, 0⟩ ∧ map.position 6 = ⟨3, 0⟩ ∧
      document.lineStart 2 = .ok 4 ∧ map.start? 2 = some 4 ∧ map.position 4 = ⟨2, 0⟩ ∧
      map.stop? 1 = some 3 ∧ document.lineCount = map.starts.length ∧
      document.offsetAt ⟨2, 1⟩ = .ok 5 ∧ document.positionAt 5 = .ok ⟨2, 1⟩ := by
  intro document map
  obtain ⟨hOffsets, hLines, hStarts, hStops, hCount, hBack⟩ := lineMap_agrees document
  obtain ⟨place, -, -, hInside, hSame, -⟩ := hOffsets 2 (by decide)
  obtain ⟨last, -, -, hLast, hAlso, -⟩ := hOffsets 6 (by decide)
  obtain rfl : place = ⟨0, 2⟩ := hSame.symm
  obtain rfl : last = ⟨3, 0⟩ := hAlso.symm
  have hThird : map.start? 2 = some 4 := rfl
  obtain ⟨stop, hStop, hNext⟩ := hStops 1 4 hThird
  obtain rfl : stop = 3 := Nat.succ.inj hNext
  have hOffset : document.offsetAt ⟨2, 1⟩ = .ok 5 := rfl
  exact ⟨hInside, hSame, hLast, hAlso, (hLines 2 4).mpr hThird, hThird, hStarts 2 4 hThird, hStop,
    hCount, hOffset, hBack ⟨2, 1⟩ 5 hOffset⟩

end Document

namespace Text

/-- A carriage return stands before the offset, and behind it nothing but carriage returns up to
the end of the line. -/
def BehindReturn (text : List Char) (offset : Nat) : Prop :=
  (text.take offset).getLast? = some '\r' ∧
    ∀ c ∈ ((text.drop offset).dropWhile (· == '\r')).head?, c = '\n'

/-- The offset parts a carriage return from the line feed behind it. -/
def InsideBreak (text : List Char) (offset : Nat) : Prop :=
  (text.take offset).getLast? = some '\r' ∧ (text.drop offset).head? = some '\n'

namespace LineCut

variable {text above row below : List Char} {offset : Nat}

/-- Past the text of the line there are carriage returns alone. -/
theorem behindReturn (h : LineCut text offset above row below)
    (hPast : (dropTail (· == '\r') row).length < offset - above.length) :
    BehindReturn text offset := by
  obtain ⟨returns, hRow, hReturns⟩ := exists_dropTail_append (· == '\r') row
  generalize dropTail (· == '\r') row = shown at hPast hRow
  have hEnd := h.column_le
  generalize hColumn : offset - above.length = column at hPast hEnd
  refine ⟨?_, ?_⟩
  · -- the offset has at least one of them before it
    have hTake : row.take column = shown ++ returns.take (column - shown.length) := by
      rw [hRow, List.take_append, List.take_of_length_le (Nat.le_of_lt hPast)]
    have hSome : returns.take (column - shown.length) ≠ [] := by
      rw [hRow, List.length_append] at hEnd
      rw [ne_eq, List.take_eq_nil_iff, not_or, ← List.length_eq_zero_iff]
      omega
    have hLast := hReturns _ (List.mem_of_mem_take (List.getLast_mem hSome))
    rw [h.take_eq, hColumn, hTake, ← List.append_assoc, List.getLast?_append,
      List.getLast?_eq_some_getLast hSome, Option.some_or, beq_iff_eq.mp hLast]
  · -- and what is left of them goes on to the end of the line
    have hDrop : row.drop column = returns.drop (column - shown.length) := by
      rw [hRow, List.drop_append, List.drop_of_length_le (Nat.le_of_lt hPast), List.nil_append]
    rw [h.drop_eq, hColumn, hDrop,
      List.dropWhile_append_of_pos fun c hMem => hReturns c (List.mem_of_mem_drop hMem)]
    rcases h.below_start with rfl | ⟨rest, rfl⟩
    · exact nofun
    · intro c hHead
      exact (Option.some.inj hHead).symm

/-- What is shown of a line agrees with it up to any offset that lies behind none of the returns at
its end. -/
theorem take_shown (h : LineCut text offset above row below)
    (hOutside : ¬ BehindReturn text offset) :
    (dropTail (· == '\r') row).take (offset - above.length) =
      row.take (offset - above.length) := by
  have hWithin := Nat.not_lt.mp (mt h.behindReturn hOutside)
  obtain ⟨returns, hRow, -⟩ := exists_dropTail_append (· == '\r') row
  generalize dropTail (· == '\r') row = shown at hRow hWithin
  rw [hRow, List.take_append_of_le_length hWithin]

/-- A line feed is met at the end of a line only, so the carriage return before it is the last
character of that line. -/
theorem past_of_insideBreak (h : LineCut text offset above row below)
    (hInside : InsideBreak text offset) :
    (dropTail (· == '\r') row).length < offset - above.length := by
  obtain ⟨hReturn, hFeed⟩ := hInside
  have hEnd : row.drop (offset - above.length) = [] := by
    cases hRest : row.drop (offset - above.length) with
    | nil => rfl
    | cons c rest =>
        rw [h.drop_eq, hRest] at hFeed
        obtain rfl : c = '\n' := Option.some.inj hFeed
        exact absurd (List.mem_of_mem_drop (hRest ▸ List.mem_cons_self)) h.row_clear
  have hColumn : row.length ≤ offset - above.length := List.drop_eq_nil_iff.mp hEnd
  rw [h.take_eq, List.take_of_length_le hColumn] at hReturn
  rcases List.eq_nil_or_concat row with rfl | ⟨front, c, hRow⟩
  · -- an empty line has a line feed before it, or nothing
    rcases h.above_end with rfl | ⟨front, rfl⟩
    · cases hReturn
    · simp at hReturn
  · rw [List.concat_eq_append] at hRow
    subst hRow
    obtain rfl : c = '\r' := by simpa using hReturn
    have hTail : ∀ c ∈ ['\r'], (c == '\r') = true := by simp
    rw [dropTail_append hTail]
    have hShown := (prefix_dropTail (· == '\r') front).length_le
    rw [List.length_append, List.length_singleton] at hColumn
    omega

end LineCut

end Text

namespace Document

/-- An offset is reached again through its position, unless it lies behind a carriage return that
ends its line. A position ends at the text of its line, so the offset inside a break of two
characters has a position that is refused. -/
theorem offsetAt_positionAt (document : Document) {offset : Nat}
    (hOffset : offset ≤ document.length) :
    ∃ place, document.positionAt offset = .ok place ∧
      (¬ BehindReturn document.text offset → document.offsetAt place = .ok offset) ∧
      (InsideBreak document.text offset → document.offsetAt place =
        .error (.offsetOutOfRange (wrapOffset offset) document.length)) := by
  obtain ⟨above, row, below, hCut⟩ := exists_lineCut hOffset
  refine ⟨_, positionAt_eq hCut, fun hOutside => ?_, fun hInside => ?_⟩
  · have hWithin := mt hCut.behindReturn hOutside
    rw [offsetAt_eq hCut, if_neg hWithin, Nat.add_sub_cancel' hCut.start_le]
  · rw [offsetAt_eq hCut, if_pos (hCut.past_of_insideBreak hInside),
      Nat.add_sub_cancel' hCut.start_le]

/-- A carriage return within a line is passed, and one that belongs to the break is not. -/
theorem offsetAt_positionAt_around_returns :
    let document : Document := .ofText ['a', '\r', 'b', '\r', '\n'] (.caret 0)
    4 ≤ document.length ∧
      document.positionAt 2 = .ok ⟨0, 2⟩ ∧ ¬ BehindReturn document.text 2 ∧
      document.offsetAt ⟨0, 2⟩ = .ok 2 ∧
      document.positionAt 4 = .ok ⟨0, 4⟩ ∧ InsideBreak document.text 4 ∧
      document.offsetAt ⟨0, 4⟩ = .error (.offsetOutOfRange (wrapOffset 4) document.length) := by
  intro document
  have hFour : 4 ≤ document.length := by decide
  have hOutside : ¬ BehindReturn document.text 2 := by
    rintro ⟨-, hRest⟩
    exact absurd (hRest 'b' rfl) (by decide)
  obtain ⟨place, hPlace, hBack, -⟩ :=
    offsetAt_positionAt document (Nat.le_trans (by decide : 2 ≤ 4) hFour)
  obtain ⟨inside, hInside, -, hRefused⟩ := offsetAt_positionAt document hFour
  obtain rfl : ⟨0, 2⟩ = place := Except.ok.inj hPlace
  obtain rfl : ⟨0, 4⟩ = inside := Except.ok.inj hInside
  exact ⟨hFour, hPlace, hOutside, hBack hOutside, hInside, ⟨rfl, rfl⟩, hRefused ⟨rfl, rfl⟩⟩

/-- Not every offset is reached again: the one inside the first break of this text is refused. -/
theorem offset_lost_inside_break :
    let document : Document := .ofText ['a', '\r', '\n', 'b'] (.caret 0)
    2 ≤ document.length ∧ document.positionAt 2 = .ok ⟨0, 2⟩ ∧
      document.offsetAt ⟨0, 2⟩ = .error (.offsetOutOfRange 2 4) ∧
      ¬ ∀ (document : Document) (offset : Nat), offset ≤ document.length →
        (document.positionAt offset >>= document.offsetAt) = .ok offset := by
  intro document
  have hTwo : 2 ≤ document.length := by decide
  refine ⟨hTwo, rfl, rfl, fun hAll => ?_⟩
  have hLost : (document.positionAt 2 >>= document.offsetAt) = .ok 2 := hAll document 2 hTwo
  cases hLost

end Document

end EditAssist
