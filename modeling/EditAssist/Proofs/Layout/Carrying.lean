import EditAssist.Proofs.Layout.MovedLines

/-! A plan for moving lines moves the touched lines, each by itself, and carries both ends of the
selection along with the lines that they stand on. `plan_carries` says so of every plan that moves
lines; the plan that only pads a selection within one line is left out. -/
namespace EditAssist.Shift

open Text

variable {text above row below : List Char} {start stop width : Nat} {shift : Shift}

/-- Where a place lies once the touched lines have moved. -/
def movePlace (text : List Char) (start stop width : Nat) (shift : Shift) (place : Position) :
    Position :=
  if Touches text start stop place.line then
    ⟨place.line, shift.moveColumn width ((rows text)[place.line]?.getD []) place.column⟩
  else place

/-- What a plan does to a text and to the ends of a selection, where it moves the touched lines. -/
structure Plan.Carries (plan : Plan) (text : List Char) (start stop width : Nat) (shift : Shift) :
    Prop where
  row : ∀ line : Nat, (rows (plan.applied text))[line]? = (rows text)[line]?.map fun row =>
    if Touches text start stop line then shift.moveLine width row else row
  edit_none : plan.edit = none ↔ plan.applied text = text
  anchor : (LineMap.ofText (plan.applied text)).position plan.selection.anchor =
    movePlace text start stop width shift ((LineMap.ofText text).position start)
  head : (LineMap.ofText (plan.applied text)).position plan.selection.head =
    movePlace text start stop width shift ((LineMap.ofText text).position stop)
  within : plan.selection.Within (plan.applied text).length

/-- Lines that stand together are changed one by one, the last of them unless it stays. -/
theorem getElem?_changed (change : List Char → List Char) (stays : Prop) [Decidable stays]
    (upper lines lower : List (List Char)) (row : List Char) (line : Nat) :
    (upper ++ lines.map change ++ (if stays then row else change row) :: lower)[line]? =
      (upper ++ lines ++ row :: lower)[line]?.map fun row =>
        if upper.length ≤ line ∧ line ≤ upper.length + lines.length ∧
          ¬ (stays ∧ line = upper.length + lines.length) then change row else row := by
  rcases Nat.lt_or_ge line upper.length with hUpper | hUpper
  · have hOut : ¬ upper.length ≤ line := Nat.not_le.mpr hUpper
    rw [List.append_assoc, List.append_assoc, List.getElem?_append_left hUpper,
      List.getElem?_append_left hUpper]
    simp [hOut]
  rw [List.append_assoc, List.append_assoc, List.getElem?_append_right hUpper,
    List.getElem?_append_right hUpper]
  obtain ⟨index, rfl⟩ := Nat.exists_eq_add_of_le hUpper
  rw [Nat.add_sub_cancel_left]
  rcases Nat.lt_trichotomy index lines.length with hLines | rfl | hLower
  · have hIn : ¬ index = lines.length := Nat.ne_of_lt hLines
    rw [List.getElem?_append_left (by rwa [List.length_map]), List.getElem?_append_left hLines,
      List.getElem?_map]
    simp [hIn, Nat.le_of_lt hLines]
  · rw [List.getElem?_append_right (Nat.le_of_eq (List.length_map change)),
      List.getElem?_append_right (Nat.le_refl _), List.length_map, Nat.sub_self]
    by_cases hStays : stays <;> simp [hStays]
  · have hOut : ¬ index ≤ lines.length := Nat.not_le.mpr hLower
    rw [List.getElem?_append_right (by rw [List.length_map]; exact Nat.le_of_lt hLower),
      List.getElem?_append_right (Nat.le_of_lt hLower), List.length_map]
    obtain ⟨below, hBelow⟩ : ∃ below, index - lines.length = below + 1 :=
      ⟨index - lines.length - 1, by omega⟩
    rw [hBelow, List.getElem?_cons_succ, List.getElem?_cons_succ]
    simp [hOut]

/-- As many lines stand above the line around `stop` when they have moved. -/
theorem count_moved_above (width : Nat) (shift : Shift) (front : List Char) :
    (above ++ mapRows (shift.moveLine width) front ++ ['\n']).count '\n' =
      (above ++ front ++ ['\n']).count '\n' := by
  rw [Block.count_above_stop, Block.count_above_stop,
    rows_mapRows (lineFeed_not_mem_moveLine width shift), List.length_map]

section Block

variable {first front last kept : List Char}
  (h : Block text start stop above first front last kept below)
include h

theorem Block.rows_text : rows text =
    (rows above).dropLast ++ rows front ++ (last ++ kept) :: (rows below).tail := by
  obtain ⟨_, hStart⟩ := h.start_cut
  rw [h.stop_cut.rows_eq, dropLast_rows_above hStart.above_end]

theorem Block.rows_applied (width : Nat) (shift : Shift) :
    rows ((h.planned width shift).applied text) =
      (rows above).dropLast ++ (rows front).map (shift.moveLine width) ++
        (if last = [] then last ++ kept else shift.moveLine width (last ++ kept)) ::
          (rows below).tail := by
  obtain ⟨_, hStart⟩ := h.start_cut
  rw [(h.applied_stop_cut width shift (Nat.zero_le _)).rows_eq,
    dropLast_rows_above hStart.above_end, rows_mapRows (lineFeed_not_mem_moveLine width shift),
    h.moveTail_append]

/-- The line around `start` is touched, as a line feed comes after it. -/
theorem Block.touches_first (hSpans : SpansLines text start stop) :
    Touches text start stop (above.count '\n') := by
  obtain ⟨others, hFirst⟩ := h.first_row
  rw [h.touches_iff hSpans, hFirst, List.length_cons]
  omega

/-- The head stands on the line around `stop`, at its start if that line stays. -/
theorem Block.applied_head_cut (width : Nat) (shift : Shift) :
    LineCut ((h.planned width shift).applied text)
      (h.planned width shift).selection.head
      (above ++ mapRows (shift.moveLine width) front ++ ['\n'])
      (moveTail width shift last ++ kept) below ∧
    (h.planned width shift).selection.head -
        (above ++ mapRows (shift.moveLine width) front ++ ['\n']).length =
      if last = [] then 0
      else shift.moveColumn width (last ++ kept) (stop - (above ++ front ++ ['\n']).length) := by
  have hHead : (h.planned width shift).selection.head =
      (above ++ mapRows (shift.moveLine width) front ++ ['\n']).length +
        if last.isEmpty then 0
        else shift.moveColumn width last (stop - (above ++ front ++ ['\n']).length) := by
    simp only [planned, List.append_assoc, List.length_append, Nat.add_assoc]
  rw [hHead, Nat.add_sub_cancel_left]
  rcases h.ends with ⟨rfl, -⟩ | ⟨rfl, hBehind⟩
  · exact ⟨h.applied_stop_cut width shift (Nat.zero_le _), rfl⟩
  · have hReach := h.stop_cut.column_le
    have hSome : last ≠ [] := by
      rw [ne_eq, h.last_eq_nil_iff]
      omega
    rw [List.append_nil] at hReach
    have hMoved := moveColumn_le width shift hReach
    rw [← moveTail_of_ne hSome, ← List.append_nil (moveTail width shift last)] at hMoved
    rw [List.isEmpty_eq_false_iff.mpr hSome, if_neg hSome, List.append_nil last]
    exact ⟨h.applied_stop_cut width shift hMoved, rfl⟩

theorem Block.carries (hSpans : SpansLines text start stop) (width : Nat) (shift : Shift) :
    (h.planned width shift).Carries text start stop width shift := by
  obtain ⟨_, hStart⟩ := h.start_cut
  obtain ⟨_, hFirst⟩ :=
    h.applied_start_cut width shift (moveColumn_le width shift hStart.column_le)
  obtain ⟨hHead, hColumn⟩ := h.applied_head_cut width shift
  have hAnchor : (h.planned width shift).selection.anchor =
      above.length + shift.moveColumn width first (start - above.length) := rfl
  rw [← hAnchor] at hFirst
  refine ⟨fun line => ?_, h.edit_eq_none_iff width shift, ?_, ?_, hFirst.le_length, hHead.le_length⟩
  · rw [h.rows_applied, h.rows_text, getElem?_changed _ (last = []), length_dropLast_rows]
    simp only [h.touches_iff hSpans]
  · rw [LineMap.position_eq hFirst, LineMap.position_eq hStart, movePlace,
      if_pos (h.touches_first hSpans), hStart.getElem?_rows, Option.getD_some, hAnchor,
      Nat.add_sub_cancel_left]
  · rw [LineMap.position_eq hHead, LineMap.position_eq h.stop_cut, hColumn, count_moved_above,
      movePlace]
    have hRow := h.stop_cut.getElem?_rows
    rw [count_above_stop] at hRow ⊢
    simp only [h.touches_iff hSpans, hRow, Option.getD_some, Nat.le_add_right, Nat.le_refl,
      true_and, and_true]
    by_cases hStays : last = []
    · rw [if_pos hStays, if_neg (not_not_intro hStays), h.last_eq_nil_iff.mp hStays]
    · rw [if_neg hStays, if_pos hStays]

end Block

section Line

/-- Without a line feed between them, two offsets lie on the same line. -/
theorem lineCut_of_not_spans (hCut : LineCut text start above row below) (hOrder : start ≤ stop)
    (hStop : stop ≤ text.length) (hSpans : ¬ SpansLines text start stop) :
    LineCut text stop above row below := by
  refine ⟨hCut.text_eq, hCut.above_end, hCut.row_clear, hCut.below_start,
    Nat.le_trans hCut.start_le hOrder, ?_⟩
  rcases hCut.below_start with rfl | ⟨rest, rfl⟩
  · rw [hCut.text_eq] at hStop
    simpa using hStop
  · -- else the line feed behind the line would lie between them
    rw [← Nat.not_lt]
    intro hPast
    apply hSpans
    have hFeed : text[above.length + row.length]? = some '\n' := by
      rw [hCut.text_eq, ← List.length_append]
      simp
    have hReach := hCut.le_stop
    apply List.mem_of_getElem? (i := above.length + row.length - start)
    rw [List.getElem?_drop, List.getElem?_take_of_lt (by omega), ← hFeed]
    congr 1
    omega

variable (hStart : LineCut text start above row below) (hStop : LineCut text stop above row below)
include hStart hStop

/-- The plan for one line, read off the text around it. -/
theorem planOutdent_eq (width : Nat) :
    planOutdent text start stop width =
      { edit :=
          if removable width row = 0 then none
          else some ⟨⟨above.length, above.length + row.length⟩, outdent.moveLine width row⟩
        selection :=
          { anchor := above.length + outdent.moveColumn width row (start - above.length)
            head := above.length + outdent.moveColumn width row (stop - above.length) } } := by
  have hContent : (text.take (above.length + row.length)).drop above.length = row := by
    rw [hStart.text_eq, ← List.length_append, List.take_left, List.drop_left]
  have hFirst := hStart.start_le
  have hLast := hStop.start_le
  simp only [planOutdent, LineMap.position_eq hStart, LineMap.start?_eq hStart,
    LineMap.stop?_eq hStart, Option.getD_some, hContent, moveLine, moveColumn]
  split
  next hNone =>
    rw [hNone, Nat.sub_zero, Nat.sub_zero, Nat.add_sub_cancel' hFirst, Nat.add_sub_cancel' hLast]
  next =>
    rw [Plan.mk.injEq, Selection.mk.injEq]
    refine ⟨rfl, ?_, ?_⟩
    · omega
    · omega

/-- The plan makes an edit if and only if that changes something. -/
theorem planOutdent_applied (width : Nat) :
    (planOutdent text start stop width).applied text =
        above ++ outdent.moveLine width row ++ below ∧
      ((planOutdent text start stop width).edit = none ↔
        (planOutdent text start stop width).applied text = text) := by
  have hText := hStart.text_eq
  have hRemovable := removable_le width row
  rw [planOutdent_eq hStart hStop]
  by_cases hNone : removable width row = 0
  · have hSame : outdent.moveLine width row = row := by
      rw [moveLine, hNone, List.drop_zero]
    rw [if_pos hNone, hSame, ← hText]
    exact ⟨rfl, fun _ => rfl, fun _ => rfl⟩
  · rw [if_neg hNone]
    simp only [Plan.applied]
    rw [hText, apply_middle]
    refine ⟨rfl, fun hNone => absurd hNone (Option.some_ne_none _), fun hSame => ?_⟩
    have hLength := congrArg List.length hSame
    simp only [moveLine, List.length_append, List.length_drop] at hLength
    omega

theorem touches_line_iff (hSpans : ¬ SpansLines text start stop) {line : Nat} :
    Touches text start stop line ↔ line = above.count '\n' := by
  simp only [Touches, LineMap.position_eq hStart, LineMap.position_eq hStop, hSpans, false_and,
    not_false_eq_true, and_true]
  omega

theorem planOutdent_carries (hSpans : ¬ SpansLines text start stop) (width : Nat) :
    (planOutdent text start stop width).Carries text start stop width .outdent := by
  obtain ⟨hApplied, hEdit⟩ := planOutdent_applied hStart hStop width
  have hCut {column : Nat} (hColumn : column ≤ (outdent.moveLine width row).length) :
      LineCut ((planOutdent text start stop width).applied text) (above.length + column) above
        (outdent.moveLine width row) below :=
    ⟨hApplied, hStart.above_end, lineFeed_not_mem_moveLine width .outdent row hStart.row_clear,
      hStart.below_start, Nat.le_add_right _ _, Nat.add_le_add_left hColumn _⟩
  have hPlace {offset : Nat} (hOffset : LineCut text offset above row below) :
      (LineMap.ofText ((planOutdent text start stop width).applied text)).position
          (above.length + outdent.moveColumn width row (offset - above.length)) =
        movePlace text start stop width .outdent ((LineMap.ofText text).position offset) := by
    rw [LineMap.position_eq (hCut (moveColumn_le width .outdent hOffset.column_le)),
      LineMap.position_eq hOffset, movePlace,
      if_pos ((touches_line_iff hStart hStop hSpans).mpr rfl), hOffset.getElem?_rows,
      Option.getD_some, Nat.add_sub_cancel_left]
  have hSelection := congrArg Plan.selection (planOutdent_eq hStart hStop width)
  refine ⟨fun line => ?_, hEdit, ?_, ?_, ?_⟩
  · have hChanged := getElem?_changed (outdent.moveLine width) False (rows above).dropLast []
      (rows below).tail row line
    simp only [List.map_nil, List.append_nil, if_false, List.length_nil, Nat.add_zero, false_and,
      not_false_eq_true, and_true, length_dropLast_rows] at hChanged
    rw [(hCut (Nat.zero_le _)).rows_eq, hStart.rows_eq, hChanged]
    simp only [touches_line_iff hStart hStop hSpans, Nat.le_antisymm_iff, and_comm]
  · rw [hSelection]
    exact hPlace hStart
  · rw [hSelection]
    exact hPlace hStop
  · rw [hSelection]
    exact ⟨(hCut (moveColumn_le width .outdent hStart.column_le)).le_length,
      (hCut (moveColumn_le width .outdent hStop.column_le)).le_length⟩

end Line

/-- Ends past the text are carried like the end of the text. -/
theorem Plan.Carries.of_min {plan : Plan}
    (h : plan.Carries text (min start text.length) (min stop text.length) width shift) :
    plan.Carries text start stop width shift where
  row := by simpa only [touches_min] using h.row
  edit_none := h.edit_none
  anchor := by simpa only [movePlace, touches_min, position_min] using h.anchor
  head := by simpa only [movePlace, touches_min, position_min] using h.head
  within := h.within

theorem clamped_start_le_stop (text : List Char) (selection : Selection) :
    min selection.start text.length ≤ min selection.stop text.length :=
  Nat.le_min.mpr ⟨Nat.le_trans (Nat.min_le_left _ _) selection.start_le_stop, Nat.min_le_right _ _⟩

/-- The selection, moved back into the text, is a piece of it. -/
theorem plan_eq (text : List Char) (selection : Selection) (tabWidth : Nat) (shift : Shift) :
    plan text selection tabWidth shift =
      let start := min selection.start text.length
      let stop := min selection.stop text.length
      if SpansLines text start stop then planBlock text start stop (max tabWidth 1) shift
      else
        match shift with
        | indent => planTab text start stop (max tabWidth 1)
        | outdent => .ok (planOutdent text start stop (max tabWidth 1)) := by
  have hPiece : Checked.piece text
      ⟨min selection.start text.length, min selection.stop text.length⟩ = .ok _ :=
    Checked.piece_eq_ok_iff.mpr
      ⟨clamped_start_le_stop text selection, Nat.min_le_right _ _, rfl⟩
  simp only [plan, hPiece, bind, Except.bind, List.contains_iff_mem, SpansLines]
  rfl

/-- A selection with a line feed in it is a block, within the text. -/
theorem plan_of_spansLines {selection : Selection} (hWidth : 1 ≤ width) (shift : Shift)
    (hSpans : SpansLines text selection.start selection.stop) :
    plan text selection width shift =
      planBlock text (min selection.start text.length) (min selection.stop text.length) width
        shift := by
  rw [← spansLines_min] at hSpans
  rw [plan_eq, Nat.max_eq_left hWidth]
  exact if_pos hSpans

/-- Without a line feed in the selection, the one line that holds it is moved out. -/
theorem plan_of_not_spansLines {selection : Selection} (hWidth : 1 ≤ width)
    (hSpans : ¬ SpansLines text selection.start selection.stop) :
    plan text selection width .outdent =
      .ok (planOutdent text (min selection.start text.length) (min selection.stop text.length)
        width) := by
  rw [← spansLines_min] at hSpans
  rw [plan_eq, Nat.max_eq_left hWidth]
  exact if_neg hSpans

/-- A plan for a selection with a line feed in it moves lines, and so does every plan that moves
lines out. -/
theorem plan_carries (text : List Char) (selection : Selection) (shift : Shift)
    (hWidth : 1 ≤ width)
    (hMoves : SpansLines text selection.start selection.stop ∨ shift = .outdent) :
    ∃ planned, plan text selection width shift = .ok planned ∧
      planned.Carries text selection.start selection.stop width shift := by
  have hOrder := clamped_start_le_stop text selection
  have hStop : min selection.stop text.length ≤ text.length := Nat.min_le_right _ _
  by_cases hSpans : SpansLines text selection.start selection.stop
  · rw [plan_of_spansLines hWidth shift hSpans]
    rw [← spansLines_min] at hSpans
    obtain ⟨above, first, front, last, kept, below, hBlock⟩ := exists_block hStop hSpans
    exact ⟨_, hBlock.planBlock_eq width shift, (hBlock.carries hSpans width shift).of_min⟩
  · obtain rfl : shift = .outdent := hMoves.resolve_left hSpans
    rw [plan_of_not_spansLines hWidth hSpans]
    rw [← spansLines_min] at hSpans
    obtain ⟨above, row, below, hCut⟩ := exists_lineCut (Nat.le_trans hOrder hStop)
    have hCutStop := lineCut_of_not_spans hCut hOrder hStop hSpans
    exact ⟨_, rfl, (planOutdent_carries hCut hCutStop hSpans width).of_min⟩

/-- There is a plan for moving lines. It leaves a text with the same lines, but for those that the
selection touches: they gain one tab stop of spaces, or lose the spaces in front of them, one tab
stop at most. It makes no edit if and only if no line changes. -/
theorem plan_moves_touched_lines (text : List Char) (selection : Selection) (width : Nat)
    (shift : Shift) (hWidth : 1 ≤ width)
    (hMoves : SpansLines text selection.start selection.stop ∨ shift = .outdent) :
    ∃ planned, plan text selection width shift = .ok planned ∧
      let edited := planned.applied text
      (∀ line : Nat, (rows edited)[line]? = (rows text)[line]?.map fun row =>
        if Touches text selection.start selection.stop line then
          if shift = .indent then List.replicate width ' ' ++ row
          else row.drop (min width (row.takeWhile (· == ' ')).length)
        else row) ∧
      (planned.edit = none ↔ rows edited = rows text) := by
  obtain ⟨planned, hPlan, hCarries⟩ := plan_carries text selection shift hWidth hMoves
  refine ⟨planned, hPlan, fun line => ?_, ?_⟩
  · rw [hCarries.row line]
    cases shift <;> rfl
  · rw [hCarries.edit_none, rows_inj]

/-- The head of this selection comes first, an empty line is between its ends, and the line that it
ends at the start of stays. -/
theorem plan_moves_touched_lines_up_to_line_start :
    let text := ['a', '\n', '\n', ' ', 'b', '\n', ' ', 'c']
    let selection : Selection := ⟨6, 1⟩
    1 ≤ 2 ∧ SpansLines text selection.start selection.stop ∧
      ∃ planned, plan text selection 2 .outdent = .ok planned ∧
        Touches text selection.start selection.stop 2 ∧
        (rows (planned.applied text))[2]? = some ['b'] ∧
        ¬ Touches text selection.start selection.stop 3 ∧
        (rows (planned.applied text))[3]? = some [' ', 'c'] ∧ planned.edit ≠ none := by
  intro text selection
  have hSpans : SpansLines text selection.start selection.stop := by decide
  obtain ⟨planned, hPlan, hRows, hEdit⟩ :=
    plan_moves_touched_lines text selection 2 .outdent (by decide) (.inl hSpans)
  have hMoved : (rows (planned.applied text))[2]? = some ['b'] := hRows 2
  refine ⟨by decide, hSpans, planned, hPlan, by decide, hMoved, by decide, hRows 3, ?_⟩
  intro hNone
  rw [hEdit.mp hNone] at hMoved
  exact absurd hMoved (by decide)

end EditAssist.Shift
