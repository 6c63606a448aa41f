import EditAssist.Proofs.Layout.Carrying

/-! Moving lines out takes back that they were moved in. The selection that comes with the lines
touches the same lines again, and each of these loses the spaces that it gained. -/
namespace EditAssist.Shift

open Text

variable {text : List Char} {start stop left right width : Nat}

/-- The line of an offset is told by the line feeds before it. -/
theorem line_position (hOffset : start ≤ text.length) :
    ((LineMap.ofText text).position start).line = (text.take start).count '\n' := by
  obtain ⟨above, row, below, hCut⟩ := exists_lineCut hOffset
  rw [LineMap.position_eq hCut, hCut.count_take]

/-- A line feed lies between two offsets if and only if they are on different lines. -/
theorem spansLines_iff (hOrder : start ≤ stop) (hStop : stop ≤ text.length) :
    SpansLines text start stop ↔
      ((LineMap.ofText text).position start).line < ((LineMap.ofText text).position stop).line := by
  have hTake : (text.take stop).take start = text.take start := by
    rw [List.take_take, Nat.min_eq_left hOrder]
  have hSplit := congrArg (List.count '\n') (List.take_append_drop start (text.take stop))
  rw [List.count_append, hTake] at hSplit
  rw [SpansLines, ← List.count_pos_iff, line_position (Nat.le_trans hOrder hStop),
    line_position hStop]
  omega

/-- Of two offsets on different lines, the one on the upper line comes first. -/
theorem lt_of_line_lt (hLeft : left ≤ text.length) (hRight : right ≤ text.length)
    (hLines : ((LineMap.ofText text).position left).line <
      ((LineMap.ofText text).position right).line) : left < right := by
  rw [line_position hLeft, line_position hRight] at hLines
  rw [← Nat.not_le]
  intro hOrder
  have hFewer := (List.take_sublist_take_left (l := text) hOrder).count_le '\n'
  omega

/-- No two offsets of a text have the same position. -/
theorem position_inj (hLeft : left ≤ text.length) (hRight : right ≤ text.length)
    (hSame : (LineMap.ofText text).position left = (LineMap.ofText text).position right) :
    left = right := by
  obtain ⟨above, row, below, hCut⟩ := exists_lineCut hLeft
  obtain ⟨upper, other, lower, hOther⟩ := exists_lineCut hRight
  rw [LineMap.position_eq hCut, LineMap.position_eq hOther, Position.mk.injEq] at hSame
  obtain ⟨hLine, hColumn⟩ := hSame
  have hStarts := LineMap.start?_eq hCut
  rw [hLine, LineMap.start?_eq hOther] at hStarts
  have hStart := Option.some.inj hStarts
  have hFirst := hCut.start_le
  have hSecond := hOther.start_le
  omega

/-- A line that has moved in has a whole tab stop of spaces to lose. -/
theorem removable_indented (width : Nat) (row : List Char) :
    removable width (indent.moveLine width row) = width := by
  have hSpaces : ∀ c ∈ spaces width, (c == ' ') = true := by
    intro c hMem
    rw [List.eq_of_mem_replicate hMem]
    rfl
  rw [removable, moveLine, List.takeWhile_append_of_pos hSpaces, List.length_append,
    length_spaces]
  omega

theorem outdent_moveLine_indent (width : Nat) (row : List Char) :
    outdent.moveLine width (indent.moveLine width row) = row := by
  change (spaces width ++ row).drop (removable width (indent.moveLine width row)) = row
  rw [removable_indented]
  exact List.drop_left' (length_spaces width)

section RoundTrip

variable {inward back : Plan}
  (hInward : inward.Carries text start stop width .indent)
  (hTouches : ∀ line, Touches (inward.applied text) left right line ↔ Touches text start stop line)
include hInward hTouches

/-- A place that was carried in is carried back where it was. -/
theorem movePlace_indent_outdent {offset : Nat} (hOffset : offset ≤ text.length) :
    movePlace (inward.applied text) left right width .outdent
        (movePlace text start stop width .indent ((LineMap.ofText text).position offset)) =
      (LineMap.ofText text).position offset := by
  obtain ⟨above, row, below, hCut⟩ := exists_lineCut hOffset
  rw [LineMap.position_eq hCut]
  by_cases hTouched : Touches text start stop (above.count '\n')
  · have hRow := hInward.row (above.count '\n')
    rw [hCut.getElem?_rows, Option.map_some, if_pos hTouched] at hRow
    simp only [movePlace, hTouches, hTouched, if_true, hRow, Option.getD_some, moveColumn,
      removable_indented, Nat.add_sub_cancel]
  · simp only [movePlace, hTouches, hTouched, if_false]

theorem rows_indent_outdent
    (hBack : back.Carries (inward.applied text) left right width .outdent) :
    back.applied (inward.applied text) = text := by
  rw [← rows_inj]
  apply List.ext_getElem?
  intro line
  rw [hBack.row, hInward.row]
  by_cases hTouched : Touches text start stop line
  · simp only [hTouches, hTouched, if_true]
    cases (rows text)[line]? with
    | none => rfl
    | some row => exact congrArg some (outdent_moveLine_indent width row)
  · simp only [hTouches, hTouched, if_false, Option.map_id']

end RoundTrip

theorem movePlace_line (text : List Char) (start stop width : Nat) (shift : Shift)
    (place : Position) : (movePlace text start stop width shift place).line = place.line := by
  rw [movePlace]
  split <;> rfl

/-- If the line around `stop` stays, then `stop` stands at its start, and if it moves in, then
behind at least one space. -/
theorem movePlace_stop_column_eq_zero_iff (hWidth : 1 ≤ width)
    (hSpans : SpansLines text start stop) :
    (movePlace text start stop width .indent ((LineMap.ofText text).position stop)).column = 0 ↔
      ((LineMap.ofText text).position stop).column = 0 := by
  rw [movePlace]
  split
  next hTouched =>
    have hSome : ((LineMap.ofText text).position stop).column ≠ 0 :=
      fun hZero => hTouched.2.2 ⟨hSpans, hZero, rfl⟩
    simp only [moveColumn]
    omega
  next => rfl

section Indented

variable {inward : Plan} (hInward : inward.Carries text start stop width .indent)
  (hOrder : start ≤ stop) (hStop : stop ≤ text.length) (hSpans : SpansLines text start stop)
include hInward hOrder hStop hSpans

/-- Lines that move in keep the ends of the selection apart and in order. -/
theorem indented_spansLines :
    inward.selection.anchor < inward.selection.head ∧
      SpansLines (inward.applied text) inward.selection.anchor inward.selection.head := by
  have hLines : ((LineMap.ofText (inward.applied text)).position inward.selection.anchor).line <
      ((LineMap.ofText (inward.applied text)).position inward.selection.head).line := by
    rw [hInward.anchor, hInward.head, movePlace_line, movePlace_line]
    exact (spansLines_iff hOrder hStop).mp hSpans
  have hApart := lt_of_line_lt hInward.within.anchor hInward.within.head hLines
  exact ⟨hApart, (spansLines_iff (Nat.le_of_lt hApart) hInward.within.head).mpr hLines⟩

/-- The selection that comes with the lines touches the same lines again. -/
theorem touches_indented (hWidth : 1 ≤ width) (line : Nat) :
    Touches (inward.applied text) inward.selection.anchor inward.selection.head line ↔
      Touches text start stop line := by
  obtain ⟨-, hSpansMoved⟩ := indented_spansLines hInward hOrder hStop hSpans
  simp only [Touches, hInward.anchor, hInward.head, movePlace_line, hSpansMoved, hSpans,
    movePlace_stop_column_eq_zero_iff hWidth hSpans]

end Indented

/-- If lines move in and then out again, with the selection that the first move left, then the text
and the selection are what they were. There is a plan for either move. -/
theorem outdent_reverts_indent (text : List Char) (selection : Selection) (width : Nat)
    (hWidth : 1 ≤ width) (hBounds : selection.Within text.length)
    (hSpans : SpansLines text selection.start selection.stop) :
    ∃ inward back,
      plan text selection width .indent = .ok inward ∧
      plan (inward.applied text) inward.selection width .outdent = .ok back ∧
      back.applied (inward.applied text) = text ∧
      back.selection = ⟨selection.start, selection.stop⟩ := by
  obtain ⟨inward, hPlanInward, hInward⟩ :=
    plan_carries text selection .indent hWidth (.inl hSpans)
  obtain ⟨back, hPlanBack, hBack⟩ :=
    plan_carries (inward.applied text) inward.selection .outdent hWidth (.inr rfl)
  obtain ⟨hApart, -⟩ :=
    indented_spansLines hInward selection.start_le_stop hBounds.stop hSpans
  have hStart : inward.selection.start = inward.selection.anchor :=
    Nat.min_eq_left (Nat.le_of_lt hApart)
  have hStop : inward.selection.stop = inward.selection.head :=
    Nat.max_eq_right (Nat.le_of_lt hApart)
  have hTouches :=
    touches_indented hInward selection.start_le_stop hBounds.stop hSpans hWidth
  rw [hStart, hStop] at hBack
  have hText : back.applied (inward.applied text) = text :=
    rows_indent_outdent hInward hTouches hBack
  have hAnchor := hBack.anchor
  have hHead := hBack.head
  have hWithin := hBack.within
  rw [hInward.anchor, movePlace_indent_outdent hInward hTouches hBounds.start, hText] at hAnchor
  rw [hInward.head, movePlace_indent_outdent hInward hTouches hBounds.stop, hText] at hHead
  rw [hText] at hWithin
  refine ⟨inward, back, hPlanInward, hPlanBack, hText, ?_⟩
  rw [← position_inj hWithin.anchor hBounds.start hAnchor,
    ← position_inj hWithin.head hBounds.stop hHead]

/-- A reversed selection over an empty line and one that has a space of its own. -/
theorem outdent_reverts_indent_over_empty_line :
    let text := ['a', '\n', '\n', ' ', 'b']
    let selection : Selection := ⟨4, 0⟩
    1 ≤ 2 ∧ selection.Within text.length ∧ SpansLines text selection.start selection.stop ∧
      ∃ inward back,
        plan text selection 2 .indent = .ok inward ∧
        inward.applied text = [' ', ' ', 'a', '\n', ' ', ' ', '\n', ' ', ' ', ' ', 'b'] ∧
        inward.selection = ⟨2, 10⟩ ∧
        plan (inward.applied text) inward.selection 2 .outdent = .ok back ∧
        back.applied (inward.applied text) = text ∧ back.selection = ⟨0, 4⟩ := by
  intro text selection
  have hBounds : selection.Within text.length := by decide
  have hSpans : SpansLines text selection.start selection.stop := by decide
  obtain ⟨inward, back, hInward, hBack, hText, hSelection⟩ :=
    outdent_reverts_indent text selection 2 (by decide) hBounds hSpans
  have hPlan : (plan text selection 2 .indent).toOption =
      some ⟨some ⟨⟨0, 5⟩, [' ', ' ', 'a', '\n', ' ', ' ', '\n', ' ', ' ', ' ', 'b']⟩, ⟨2, 10⟩⟩ := by
    decide
  rw [hInward] at hPlan
  obtain rfl := Option.some.inj hPlan
  exact ⟨by decide, hBounds, hSpans, _, back, hInward, by decide, rfl, hBack, hText, hSelection⟩

end EditAssist.Shift
