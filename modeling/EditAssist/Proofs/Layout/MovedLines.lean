import EditAssist.Proofs.Layout.Block

/-! What the plan for a block does to a text. The lines of the block are moved one by one, and all
around them stands as before, so the edited text is cut as `Block` cuts the text. -/
namespace EditAssist.Shift

open Text

/-- The text once the plan has been carried out. -/
def Plan.applied (plan : Plan) (text : List Char) : List Char :=
  match plan.edit with
  | none => text
  | some edit => edit.apply text

variable {text above first front last kept below : List Char} {start stop width : Nat}
  {shift : Shift}

/-- An edit of the middle part of a text. -/
theorem apply_middle (above block moved below : List Char) :
    Replacement.apply ⟨⟨above.length, above.length + block.length⟩, moved⟩
      (above ++ block ++ below) = above ++ moved ++ below := by
  simp only [Replacement.apply]
  rw [← List.length_append, List.drop_left, List.append_assoc above, List.take_left,
    List.append_assoc]

theorem lineFeed_not_mem_moveLine (width : Nat) (shift : Shift) (row : List Char)
    (hRow : '\n' ∉ row) : '\n' ∉ shift.moveLine width row := by
  cases shift with
  | indent =>
      rw [moveLine, List.mem_append, not_or]
      refine ⟨?_, hRow⟩
      intro hMem
      exact absurd (List.eq_of_mem_replicate hMem) (by decide)
  | outdent => exact fun hMem => hRow (List.mem_of_mem_drop hMem)

/-- What becomes of the part of a line that a block ends with. -/
def moveTail (width : Nat) (shift : Shift) (last : List Char) : List Char :=
  if last.isEmpty then [] else shift.moveLine width last

theorem moveTail_of_ne (hSome : last ≠ []) :
    moveTail width shift last = shift.moveLine width last := by
  rw [moveTail, List.isEmpty_eq_false_iff.mpr hSome]
  rfl

/-- Lines with a line feed behind each are moved one by one. -/
theorem moveLines_rows (width : Nat) (shift : Shift) (front : List Char) :
    shift.moveLines width (rows front ++ [[]]) =
      mapRows (shift.moveLine width) front ++ ['\n'] := by
  have hClear := lineFeed_not_mem_moveLine width shift
  have hLines : ∀ line ∈ (rows front).map (shift.moveLine width) ++ [[]], '\n' ∉ line := by
    intro line hLine
    rcases List.mem_append.mp hLine with hMoved | hLast
    · obtain ⟨row, hRow, rfl⟩ := List.mem_map.mp hMoved
      exact hClear row (lineFeed_not_mem_of_mem_rows hRow)
    · rw [List.mem_singleton.mp hLast]
      exact List.not_mem_nil
  rw [moveLines, List.dropLast_concat, List.getLast?_concat, ← rows_inj,
    rows_intercalate hLines (by simp), rows_append_lineFeed, rows_mapRows hClear,
    rows_of_clear List.not_mem_nil]

namespace Block

/-- The plan for a block, read off the text around it. -/
def planned (_ : Block text start stop above first front last kept below) (width : Nat)
    (shift : Shift) : Plan where
  edit :=
    if mapRows (shift.moveLine width) front ++ '\n' :: moveTail width shift last =
        front ++ '\n' :: last then none
    else some ⟨⟨above.length, above.length + (front ++ '\n' :: last).length⟩,
      mapRows (shift.moveLine width) front ++ '\n' :: moveTail width shift last⟩
  selection :=
    { anchor := above.length + shift.moveColumn width first (start - above.length)
      head := above.length + (mapRows (shift.moveLine width) front ++ ['\n']).length +
        (if last.isEmpty then 0 else
          shift.moveColumn width last (stop - (above ++ front ++ ['\n']).length)) }

variable (h : Block text start stop above first front last kept below)
include h

theorem text_eq : text = above ++ (front ++ '\n' :: last) ++ (kept ++ below) := by
  rw [h.stop_cut.text_eq]
  simp

theorem last_clear : '\n' ∉ last :=
  fun hMem => h.stop_cut.row_clear (List.mem_append_left _ hMem)

/-- The block ends where the part of its last line ends that moves. -/
theorem blockStop_eq :
    (if text[stop - 1]? = some '\n' then stop
      else ((LineMap.ofText text).stop? ((LineMap.ofText text).position stop).line).getD stop) =
      above.length + (front ++ '\n' :: last).length := by
  have hUpper : (above ++ front ++ ['\n']).length = above.length + front.length + 1 := by
    simp [Nat.add_assoc]
  rcases h.ends with ⟨rfl, hStop⟩ | ⟨rfl, hBehind⟩
  · have hFeed : text[stop - 1]? = some '\n' := by
      rw [hStop, hUpper, Nat.add_sub_cancel, h.stop_cut.text_eq]
      simp
    rw [if_pos hFeed, hStop]
    simp
  · have hRow : ∃ c, text[stop - 1]? = some c ∧ c ≠ '\n' := by
      have hReach := h.stop_cut.le_stop
      rw [List.append_nil] at hReach
      obtain ⟨column, hColumn⟩ : ∃ column, stop - 1 = (above ++ front ++ ['\n']).length + column :=
        ⟨stop - 1 - (above ++ front ++ ['\n']).length, by omega⟩
      have hInside : column < last.length := by omega
      refine ⟨last[column], ?_, ?_⟩
      · rw [hColumn, h.stop_cut.text_eq, List.append_nil, List.append_assoc,
          List.getElem?_append_right (Nat.le_add_right _ _), Nat.add_sub_cancel_left,
          List.getElem?_append_left hInside, List.getElem?_eq_getElem hInside]
      · intro hFeed
        exact h.last_clear (hFeed ▸ List.getElem_mem hInside)
    obtain ⟨c, hc, hClear⟩ := hRow
    have hNot : ¬ text[stop - 1]? = some '\n' := by
      rw [hc]
      simpa using hClear
    rw [if_neg hNot, LineMap.position_eq h.stop_cut, LineMap.stop?_eq h.stop_cut]
    simp
    omega

/-- At least the line feed after `front` stands before `stop`. -/
theorem exists_charBefore : ∃ c, Checked.charBefore text stop = .ok c := by
  have hReach := h.stop_cut.start_le
  have hStop := h.stop_cut.le_length
  simp only [List.length_append, List.length_singleton] at hReach
  have hInside : stop - 1 < text.length := by omega
  exact ⟨_, Checked.charBefore_eq_ok_iff.mpr
    ⟨Nat.lt_of_lt_of_le (Nat.succ_pos _) hReach, List.getElem?_eq_getElem hInside⟩⟩

theorem content_eq :
    (text.take (above.length + (front ++ '\n' :: last).length)).drop above.length =
      front ++ '\n' :: last := by
  rw [h.text_eq, ← List.length_append, List.take_left, List.drop_left]

theorem content_stop_le : above.length + (front ++ '\n' :: last).length ≤ text.length := by
  rw [h.text_eq, ← List.length_append]
  exact (List.prefix_append _ _).length_le

theorem piece_content :
    Checked.piece text ⟨above.length, above.length + (front ++ '\n' :: last).length⟩ =
      .ok (front ++ '\n' :: last) :=
  Checked.piece_eq_ok_iff.mpr ⟨Nat.le_add_right _ _, h.content_stop_le, h.content_eq⟩

theorem rows_content : rows (front ++ '\n' :: last) = rows front ++ [last] := by
  rw [rows_append_lineFeed, rows_of_clear h.last_clear]

/-- The block lies within the text, so there is a plan for it. -/
theorem planBlock_eq (width : Nat) (shift : Shift) :
    planBlock text start stop width shift = .ok (h.planned width shift) := by
  obtain ⟨_, hStart⟩ := h.start_cut
  obtain ⟨others, hFirst⟩ := h.first_row
  obtain ⟨c, hChar⟩ := h.exists_charBefore
  have hStop := h.blockStop_eq
  simp only [(Checked.charBefore_eq_ok_iff.mp hChar).2, Option.some.injEq] at hStop
  have hColumn : above.length + (front ++ '\n' :: last).length - last.length =
      (above ++ front ++ ['\n']).length := by
    simp
    omega
  simp only [planBlock, LineMap.position_eq hStart, LineMap.start?_eq hStart, Option.getD_some,
    hChar, bind, Except.bind, hStop, h.piece_content, h.rows_content, List.dropLast_concat,
    List.getLastD_concat, hColumn, moveLines_concat width shift (rows front) last,
    moveLines_rows, planned]
  simp only [hFirst, List.cons_append, List.headD_cons, List.append_assoc, List.nil_append,
    moveTail]
  rfl

theorem applied_eq (width : Nat) (shift : Shift) :
    (h.planned width shift).applied text =
      above ++ (mapRows (shift.moveLine width) front ++ '\n' :: moveTail width shift last) ++
        (kept ++ below) := by
  have hText := h.text_eq
  rw [planned]
  by_cases hSame : mapRows (shift.moveLine width) front ++ '\n' :: moveTail width shift last =
      front ++ '\n' :: last
  · rw [if_pos hSame, hSame, ← hText]
    rfl
  · rw [if_neg hSame]
    simp only [Plan.applied]
    rw [hText, apply_middle]

/-- The plan makes an edit if and only if that changes something. -/
theorem edit_eq_none_iff (width : Nat) (shift : Shift) :
    (h.planned width shift).edit = none ↔
      (h.planned width shift).applied text = text := by
  have hText := h.text_eq
  rw [h.applied_eq, planned]
  generalize mapRows (shift.moveLine width) front ++ '\n' :: moveTail width shift last = moved
  rw [hText, List.append_left_inj, List.append_right_inj]
  simp

/-- Once the lines of the block have moved, the first of them stands below what stood above it. -/
theorem applied_start_cut (width : Nat) (shift : Shift) {column : Nat}
    (hColumn : column ≤ (shift.moveLine width first).length) :
    ∃ rest, LineCut ((h.planned width shift).applied text) (above.length + column)
      above (shift.moveLine width first) rest := by
  obtain ⟨_, hStart⟩ := h.start_cut
  obtain ⟨others, hFirst⟩ := h.first_row
  obtain ⟨rest, hFront⟩ : ∃ rest, mapRows (shift.moveLine width) front ++ ['\n'] =
      shift.moveLine width first ++ '\n' :: rest := by
    rw [mapRows, hFirst, List.map_cons]
    cases others with
    | nil => exact ⟨[], by simp⟩
    | cons second others =>
        rw [List.map_cons, List.intercalate_cons_of_ne_nil (List.cons_ne_nil _ _)]
        refine ⟨['\n'].intercalate ((second :: others).map (shift.moveLine width)) ++ ['\n'], ?_⟩
        simp
  refine ⟨'\n' :: rest ++ (moveTail width shift last ++ kept ++ below), ?_, hStart.above_end,
    lineFeed_not_mem_moveLine width shift first hStart.row_clear, .inr ⟨_, rfl⟩,
    Nat.le_add_right _ _, Nat.add_le_add_left hColumn _⟩
  calc
    _ = above ++ (mapRows (shift.moveLine width) front ++ ['\n']) ++
          (moveTail width shift last ++ kept ++ below) := by
      rw [h.applied_eq]
      simp
    _ = _ := by
      rw [hFront]
      simp

/-- The line around `stop` then stands below the other lines of the block. -/
theorem applied_stop_cut (width : Nat) (shift : Shift) {column : Nat}
    (hColumn : column ≤ (moveTail width shift last ++ kept).length) :
    LineCut ((h.planned width shift).applied text)
      ((above ++ mapRows (shift.moveLine width) front ++ ['\n']).length + column)
      (above ++ mapRows (shift.moveLine width) front ++ ['\n'])
      (moveTail width shift last ++ kept) below := by
  refine ⟨?_, .inr ⟨_, rfl⟩, ?_, h.stop_cut.below_start, Nat.le_add_right _ _,
    Nat.add_le_add_left hColumn _⟩
  · rw [h.applied_eq]
    simp
  · rw [List.mem_append, not_or, moveTail]
    refine ⟨?_, fun hMem => h.stop_cut.row_clear (List.mem_append_right _ hMem)⟩
    split
    · exact List.not_mem_nil
    · exact lineFeed_not_mem_moveLine width shift last h.last_clear

/-- What becomes of the line around `stop`. -/
theorem moveTail_append (width : Nat) (shift : Shift) :
    moveTail width shift last ++ kept =
      if last = [] then last ++ kept else shift.moveLine width (last ++ kept) := by
  rcases h.ends with ⟨rfl, -⟩ | ⟨rfl, -⟩
  · rfl
  · rw [List.append_nil, List.append_nil, moveTail]
    cases last <;> rfl

end Block

end EditAssist.Shift
