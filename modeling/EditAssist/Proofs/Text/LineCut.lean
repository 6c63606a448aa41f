import EditAssist.Document.Basic
import EditAssist.Document.LineMap

/-! The line around an offset. A text falls into what stands above that line, the line itself and
what stands below it, and the two ways to find lines, the table of line starts and the count of
line feeds, both read off this division. -/
namespace EditAssist.Text

/-- `row` is the line of `text` that holds `offset`, without its line feed. -/
structure LineCut (text : List Char) (offset : Nat) (above row below : List Char) : Prop where
  text_eq : text = above ++ row ++ below
  above_end : above = [] ∨ ∃ front, above = front ++ ['\n']
  row_clear : '\n' ∉ row
  below_start : below = [] ∨ ∃ rest, below = '\n' :: rest
  start_le : above.length ≤ offset
  le_stop : offset ≤ above.length + row.length

/-- What a search for the next line feed leaves is empty or starts with one. -/
theorem dropWhile_lineFeed (text : List Char) :
    text.dropWhile (· != '\n') = [] ∨ ∃ rest, text.dropWhile (· != '\n') = '\n' :: rest := by
  cases hDrop : text.dropWhile (· != '\n') with
  | nil => exact .inl rfl
  | cons c rest =>
      have hHead := List.head?_dropWhile_not (· != '\n') text
      rw [hDrop] at hHead
      have hc : c = '\n' := by simpa using hHead
      exact .inr ⟨rest, by rw [hc]⟩

theorem not_mem_takeWhile_lineFeed (text : List Char) : '\n' ∉ text.takeWhile (· != '\n') := by
  intro hMem
  have hAll : (text.takeWhile (· != '\n')).all (· != '\n') = true := List.all_takeWhile
  have h := List.all_eq_true.mp hAll _ hMem
  simp at h

/-- `lead` is what stands in front of the end of `front` on its line, and `above` what stands above
that line. -/
structure Lead (front above lead : List Char) : Prop where
  text_eq : front = above ++ lead
  above_end : above = [] ∨ ∃ before, above = before ++ ['\n']
  clear : '\n' ∉ lead

theorem exists_lead (front : List Char) : ∃ above lead, Lead front above lead := by
  have hSplit := List.takeWhile_append_dropWhile (p := (· != '\n')) (l := front.reverse)
  refine ⟨(front.reverse.dropWhile (· != '\n')).reverse,
    (front.reverse.takeWhile (· != '\n')).reverse, ?_, ?_, ?_⟩
  · rw [← List.reverse_append, hSplit, List.reverse_reverse]
  · rcases dropWhile_lineFeed front.reverse with hNil | ⟨rest, hCons⟩
    · exact .inl (by rw [hNil, List.reverse_nil])
    · exact .inr ⟨rest.reverse, by rw [hCons, List.reverse_cons]⟩
  · rw [List.mem_reverse]
    exact not_mem_takeWhile_lineFeed front.reverse

/-- The line goes on to the next line feed behind. -/
theorem Lead.lineCut {front above lead : List Char} (h : Lead front above lead)
    (rest : List Char) :
    LineCut (front ++ rest) front.length above (lead ++ rest.takeWhile (· != '\n'))
      (rest.dropWhile (· != '\n')) where
  text_eq := by
    rw [h.text_eq, List.append_assoc, List.append_assoc, List.append_assoc,
      List.takeWhile_append_dropWhile]
  above_end := h.above_end
  row_clear := by
    rw [List.mem_append, not_or]
    exact ⟨h.clear, not_mem_takeWhile_lineFeed rest⟩
  below_start := dropWhile_lineFeed rest
  start_le := by
    rw [h.text_eq, List.length_append]
    exact Nat.le_add_right _ _
  le_stop := by
    rw [h.text_eq, List.length_append, List.length_append, ← Nat.add_assoc]
    exact Nat.le_add_right _ _

/-- Every offset within a text lies on a line of it. -/
theorem exists_lineCut {text : List Char} {offset : Nat} (hOffset : offset ≤ text.length) :
    ∃ above row below, LineCut text offset above row below := by
  obtain ⟨above, lead, hLead⟩ := exists_lead (text.take offset)
  have hCut := hLead.lineCut (text.drop offset)
  rw [List.take_append_drop, List.length_take_of_le hOffset] at hCut
  exact ⟨above, _, _, hCut⟩

/-- A text has one row more than it has line feeds. -/
theorem length_rows (text : List Char) : (rows text).length = text.count '\n' + 1 := by
  induction text with
  | nil => rfl
  | cons c rest ih =>
      rw [rows, List.splitOn_cons_eq_if_modifyHead, List.count_cons]
      rw [rows] at ih
      split
      · rw [List.length_cons, ih]
      · rw [List.length_modifyHead, ih]

/-- Text without a line feed in front of the first line feed is the first row. -/
theorem head?_rows {row below : List Char} (hRow : '\n' ∉ row)
    (hBelow : below = [] ∨ ∃ rest, below = '\n' :: rest) :
    (rows (row ++ below)).head? = some row := by
  rcases hBelow with rfl | ⟨rest, rfl⟩
  · rw [List.append_nil, rows, List.splitOn_eq_singleton hRow, List.head?_cons]
  · rw [rows, List.splitOn_append_cons_self_of_not_mem hRow, List.head?_cons]

/-- The lines of a text that ends in a line feed are skipped by skipping the text. -/
theorem skipLines_append (front rest : List Char) :
    Document.skipLines (front.count '\n' + 1) (front ++ '\n' :: rest) = front.length + 1 := by
  induction front with
  | nil => simp [Document.skipLines]
  | cons c front ih =>
      rw [List.cons_append, List.length_cons, Document.skipLines]
      by_cases hc : c = '\n'
      · rw [if_pos hc, hc, List.count_cons_self, ih]
      · rw [if_neg hc, List.count_cons_of_ne hc, ih]

/-- Skipping lines never leads past the text. -/
theorem skipLines_le (line : Nat) (text : List Char) :
    Document.skipLines line text ≤ text.length := by
  induction text generalizing line with
  | nil => cases line <;> exact Nat.le_refl _
  | cons c rest ih =>
      cases line with
      | zero => exact Nat.zero_le _
      | succ line =>
          rw [Document.skipLines, List.length_cons]
          split
          · exact Nat.succ_le_succ (ih line)
          · exact Nat.succ_le_succ (ih (line + 1))

/-- The lines that are skipped are those that were asked for, if the text has as many. -/
theorem count_take_skipLines {line : Nat} {text : List Char} (hLine : line ≤ text.count '\n') :
    (text.take (Document.skipLines line text)).count '\n' = line := by
  induction text generalizing line with
  | nil =>
      obtain rfl : line = 0 := Nat.le_zero.mp hLine
      rfl
  | cons c rest ih =>
      cases line with
      | zero => rfl
      | succ line =>
          rw [Document.skipLines, List.take_succ_cons]
          by_cases hc : c = '\n'
          · rw [hc, List.count_cons_self] at hLine
            rw [if_pos hc, hc, List.count_cons_self, ih (Nat.le_of_succ_le_succ hLine)]
          · rw [List.count_cons_of_ne hc] at hLine
            rw [if_neg hc, List.count_cons_of_ne hc, ih hLine]

namespace LineCut

variable {text above row below : List Char} {offset : Nat}

theorem le_length (h : LineCut text offset above row below) : offset ≤ text.length := by
  have := h.le_stop
  rw [h.text_eq, List.length_append, List.length_append]
  omega

/-- The column of the offset lies on the line. -/
theorem column_le (h : LineCut text offset above row below) :
    offset - above.length ≤ row.length :=
  Nat.sub_le_iff_le_add'.mpr h.le_stop

/-- What stands before the offset is what stands above and the front of the line. -/
theorem take_eq (h : LineCut text offset above row below) :
    text.take offset = above ++ row.take (offset - above.length) := by
  have hBelow := Nat.sub_eq_zero_of_le h.column_le
  rw [h.text_eq, List.append_assoc, List.take_append, List.take_append,
    List.take_of_length_le h.start_le, hBelow, List.take_zero, List.append_nil]

/-- What stands behind the offset is the rest of the line and what stands below. -/
theorem drop_eq (h : LineCut text offset above row below) :
    text.drop offset = row.drop (offset - above.length) ++ below := by
  have hBelow := Nat.sub_eq_zero_of_le h.column_le
  rw [h.text_eq, List.append_assoc, List.drop_append, List.drop_append,
    List.drop_of_length_le h.start_le, hBelow, List.drop_zero, List.nil_append]

/-- The number of the line: no line feed lies between its start and the offset. -/
theorem count_take (h : LineCut text offset above row below) :
    (text.take offset).count '\n' = above.count '\n' := by
  have hRow : (row.take (offset - above.length)).count '\n' = 0 :=
    List.count_eq_zero.mpr fun hMem => h.row_clear (List.mem_of_mem_take hMem)
  rw [h.take_eq, List.count_append, hRow, Nat.add_zero]

/-- The line is found under its number. -/
theorem getElem?_rows (h : LineCut text offset above row below) :
    (rows text)[above.count '\n']? = some row := by
  have hHead := head?_rows h.row_clear h.below_start
  rw [List.head?_eq_getElem?] at hHead
  rcases h.above_end with hNil | ⟨front, hFront⟩
  · rw [h.text_eq, hNil]
    exact hHead
  · have hCount : above.count '\n' = (rows front).length := by
      rw [length_rows, hFront, List.count_append, List.count_singleton_self]
    have hRows : rows text = rows front ++ rows (row ++ below) := by
      rw [h.text_eq, hFront, List.append_assoc, List.append_assoc, List.singleton_append]
      exact List.splitOn_append_cons_self _ _
    rw [hRows, hCount, List.getElem?_append_right (Nat.le_refl _), Nat.sub_self]
    exact hHead

/-- Skipping the lines above ends at the start of the line. -/
theorem skipLines_eq (h : LineCut text offset above row below) :
    Document.skipLines (above.count '\n') text = above.length := by
  rcases h.above_end with hNil | ⟨front, hFront⟩
  · rw [hNil]
    simp [Document.skipLines]
  · rw [h.text_eq, hFront, List.append_assoc, List.append_assoc, List.singleton_append,
      List.count_append, List.count_singleton_self, skipLines_append, List.length_append,
      List.length_singleton]

/-- What stands before the offset on its line. -/
theorem lead (h : LineCut text offset above row below) :
    Lead (text.take offset) above (row.take (offset - above.length)) :=
  ⟨h.take_eq, h.above_end, fun hMem => h.row_clear (List.mem_of_mem_take hMem)⟩

/-- All offsets of a line lie on that line. -/
theorem slide (h : LineCut text offset above row below) {column : Nat}
    (hColumn : column ≤ row.length) : LineCut text (above.length + column) above row below :=
  ⟨h.text_eq, h.above_end, h.row_clear, h.below_start, Nat.le_add_right _ _,
    Nat.add_le_add_left hColumn _⟩

end LineCut

/-- Every line of a text is found under its number. -/
theorem exists_lineCut_of_line {line : Nat} {text : List Char} (hLine : line ≤ text.count '\n') :
    ∃ above row below, above.count '\n' = line ∧ LineCut text above.length above row below := by
  obtain ⟨above, row, below, hCut⟩ := exists_lineCut (skipLines_le line text)
  have hNumber : above.count '\n' = line := by
    rw [← hCut.count_take, count_take_skipLines hLine]
  have hStart : Document.skipLines line text = above.length := by
    rw [← hNumber]
    exact hCut.skipLines_eq
  exact ⟨above, row, below, hNumber, hStart ▸ hCut⟩

end EditAssist.Text
