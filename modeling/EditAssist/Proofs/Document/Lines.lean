import EditAssist.Proofs.Document.Bounds
import EditAssist.Proofs.Text.LineCut

/-! What a document and its table of line starts say about the line around an offset. -/
namespace EditAssist

open Text

namespace LineMap

theorem startsAfter_append (offset : Nat) (left right : List Char) :
    startsAfter offset (left ++ right) =
      startsAfter offset left ++ startsAfter (offset + left.length) right := by
  induction left generalizing offset with
  | nil => rfl
  | cons c left ih =>
      rw [List.cons_append, startsAfter, startsAfter, List.length_cons, ih,
        show offset + 1 + left.length = offset + (left.length + 1) by omega]
      split <;> rfl

theorem length_startsAfter (offset : Nat) (text : List Char) :
    (startsAfter offset text).length = text.count '\n' := by
  induction text generalizing offset with
  | nil => rfl
  | cons c rest ih =>
      rw [startsAfter, List.count_cons]
      by_cases hc : c = '\n'
      · rw [if_pos hc, List.length_cons, ih, if_pos (by simpa using hc)]
      · rw [if_neg hc, ih, if_neg (by simpa using hc), Nat.add_zero]

/-- Lines start behind the beginning of the text that they are read from, and within it. -/
theorem mem_startsAfter {offset start : Nat} {text : List Char}
    (hMem : start ∈ startsAfter offset text) : offset < start ∧ start ≤ offset + text.length := by
  induction text generalizing offset with
  | nil => cases hMem
  | cons c rest ih =>
      rw [List.length_cons]
      rw [startsAfter] at hMem
      split at hMem
      · rcases List.mem_cons.mp hMem with rfl | hRest
        · omega
        · have := ih hRest
          omega
      · have := ih hMem
        omega

/-- Text without a line feed starts no line. -/
theorem startsAfter_of_clear {offset : Nat} {row : List Char} (hRow : '\n' ∉ row) :
    startsAfter offset row = [] := by
  rw [← List.length_eq_zero_iff, length_startsAfter]
  exact List.count_eq_zero.mpr hRow

variable {text above row below : List Char} {offset : Nat}

/-- The starts of the lines down to the one around the offset, and those of the lines below. -/
theorem starts_eq (h : LineCut text offset above row below) :
    (ofText text).starts = (0 :: startsAfter 0 above) ++
      startsAfter (above.length + row.length) below := by
  rw [ofText, h.text_eq, startsAfter_append, startsAfter_append, startsAfter_of_clear h.row_clear]
  simp

/-- The last line that starts above is the one around the offset. -/
theorem getElem?_starts_above (h : LineCut text offset above row below) :
    (0 :: startsAfter 0 above)[above.count '\n']? = some above.length := by
  rcases h.above_end with hNil | ⟨front, hFront⟩
  · rw [hNil]
    rfl
  · have hStarts : startsAfter 0 above = startsAfter 0 front ++ [front.length + 1] := by
      rw [hFront, startsAfter_append]
      simp [startsAfter]
    rw [hStarts, hFront, List.count_append, List.count_singleton_self, List.getElem?_cons_succ,
      List.getElem?_append_right (Nat.le_of_eq (length_startsAfter 0 front)), length_startsAfter,
      List.length_append]
    simp

theorem lineAt_eq (h : LineCut text offset above row below) :
    (ofText text).lineAt offset = above.count '\n' := by
  have hBefore : ∀ start ∈ 0 :: startsAfter 0 above, decide (start ≤ offset) = true := by
    intro start hMem
    rw [decide_eq_true_eq]
    rcases List.mem_cons.mp hMem with rfl | hAbove
    · omega
    · have := (mem_startsAfter hAbove).2
      have := h.start_le
      omega
  have hAfter : (startsAfter (above.length + row.length) below).takeWhile (· ≤ offset) = [] := by
    cases hBelow : startsAfter (above.length + row.length) below with
    | nil => rfl
    | cons start rest =>
        have := (mem_startsAfter (hBelow ▸ List.mem_cons_self : start ∈ _)).1
        have := h.le_stop
        rw [List.takeWhile_cons_of_neg (by rw [decide_eq_true_eq]; omega)]
  rw [lineAt, starts_eq h, List.takeWhile_append_of_pos hBefore, hAfter, List.append_nil,
    List.length_cons, length_startsAfter, Nat.add_sub_cancel]

theorem start?_eq (h : LineCut text offset above row below) :
    (ofText text).start? (above.count '\n') = some above.length := by
  rw [start?, starts_eq h, List.getElem?_append_left, getElem?_starts_above h]
  rw [List.length_cons, length_startsAfter]
  omega

theorem stop?_eq (h : LineCut text offset above row below) :
    (ofText text).stop? (above.count '\n') = some (above.length + row.length) := by
  have hNext : (ofText text).start? (above.count '\n' + 1) =
      (startsAfter (above.length + row.length) below)[0]? := by
    have hLength : (0 :: startsAfter 0 above).length = above.count '\n' + 1 := by
      rw [List.length_cons, length_startsAfter]
    rw [start?, starts_eq h, List.getElem?_append_right (Nat.le_of_eq hLength), hLength,
      Nat.sub_self]
  rw [stop?, start?_eq h, Option.map_some, hNext]
  rcases h.below_start with hNil | ⟨rest, hRest⟩
  · rw [h.text_eq, hNil]
    simp [startsAfter, ofText]
  · rw [hRest]
    simp [startsAfter]

/-- The position of an offset, from the line around it. -/
theorem position_eq (h : LineCut text offset above row below) :
    (ofText text).position offset = ⟨above.count '\n', offset - above.length⟩ := by
  have hLength : (ofText text).length = text.length := rfl
  have hOffset : min offset (ofText text).length = offset := by
    rw [hLength]
    exact Nat.min_eq_left h.le_length
  rw [position, hOffset, lineAt_eq h, start?_eq h, Option.getD_some]

end LineMap

namespace Document

variable {document : Document} {offset : Nat} {above row below : List Char}

/-- The line around an offset exists, and it starts and reads as it stands there. -/
theorem positionAt_eq (h : LineCut document.text offset above row below) :
    document.positionAt offset = .ok ⟨above.count '\n', offset - above.length⟩ := by
  rw [positionAt_of_le h.le_length, h.count_take, h.skipLines_eq]

/-- A place that text was put behind is still where it was. -/
theorem positionAt_lead {front lead rest : List Char} (h : Lead front above lead)
    (hText : document.text = front ++ rest) :
    document.positionAt front.length = .ok ⟨above.count '\n', lead.length⟩ := by
  have hCut := h.lineCut rest
  rw [← hText] at hCut
  have hColumn : front.length - above.length = lead.length := by
    rw [h.text_eq, List.length_append, Nat.add_sub_cancel_left]
  rw [positionAt_eq hCut, hColumn]

theorem lineStart_eq (h : LineCut document.text offset above row below) :
    document.lineStart (above.count '\n') = .ok above.length := by
  rw [← h.count_take, lineStart_of_lt (count_take_lt_lineCount offset), h.count_take,
    h.skipLines_eq]

theorem lineText_eq (h : LineCut document.text offset above row below) :
    document.lineText (above.count '\n') = .ok (dropTail (· == '\r') row) := by
  rw [← h.count_take, lineText_of_lt (count_take_lt_lineCount offset), h.count_take,
    h.getElem?_rows, Option.getD_some]

end Document

end EditAssist
