import EditAssist.Proofs.Text.LineCut

/-! A text and its rows determine each other. So a change made to every row is a change of the
text, and what stands around a line or around a line feed is read off the rows. -/
namespace EditAssist.Text

variable {text above row below : List Char} {offset : Nat}

/-- No piece of a text holds a character that the text is cut at. -/
theorem eq_false_of_mem_splitOnP {p : Char → Bool} {piece : List Char}
    (hPiece : piece ∈ text.splitOnP p) : ∀ c ∈ piece, p c = false := by
  induction text generalizing piece with
  | nil =>
      rw [List.mem_singleton.mp hPiece]
      exact nofun
  | cons c rest ih =>
      obtain ⟨first, others, hRest⟩ := List.exists_cons_of_ne_nil (List.splitOnP_ne_nil p rest)
      rw [List.splitOnP_cons_eq_if_modifyHead, hRest] at hPiece
      rw [hRest] at ih
      split at hPiece
      next =>
        rcases List.mem_cons.mp hPiece with rfl | hLater
        · exact nofun
        · exact ih hLater
      next hc =>
        rcases List.mem_cons.mp hPiece with rfl | hLater
        · rw [List.forall_mem_cons]
          exact ⟨Bool.eq_false_iff.mpr hc, ih List.mem_cons_self⟩
        · exact ih (List.mem_cons_of_mem _ hLater)

/-- No row holds a line feed. -/
theorem lineFeed_not_mem_of_mem_rows (hRow : row ∈ rows text) : '\n' ∉ row :=
  fun hMem => absurd (eq_false_of_mem_splitOnP hRow '\n' hMem) (by decide)

/-- Joining the rows gives the text back. -/
theorem intercalate_rows (text : List Char) : ['\n'].intercalate (rows text) = text :=
  List.intercalate_splitOn '\n'

/-- Joined lines take the room of each, and of one line feed less than there are lines. -/
theorem length_intercalate_lines (lines : List (List Char)) :
    (['\n'].intercalate lines).length = lines.flatten.length + (lines.length - 1) := by
  induction lines with
  | nil => rfl
  | cons line lines ih =>
      cases lines with
      | nil => simp
      | cons second lines =>
          rw [List.intercalate_cons_cons, List.length_append, List.length_append, ih]
          simp only [List.flatten_cons, List.length_append, List.length_cons, List.length_nil]
          omega

/-- Lines that are joined are the rows of what they are joined to. -/
theorem rows_intercalate {lines : List (List Char)} (hLines : ∀ line ∈ lines, '\n' ∉ line)
    (hSome : lines ≠ []) : rows (['\n'].intercalate lines) = lines :=
  List.splitOn_intercalate '\n' hLines hSome

theorem rows_inj {left right : List Char} : rows left = rows right ↔ left = right := by
  refine ⟨fun hRows => ?_, congrArg rows⟩
  rw [← intercalate_rows left, hRows, intercalate_rows]

theorem rows_append_lineFeed (left right : List Char) :
    rows (left ++ '\n' :: right) = rows left ++ rows right :=
  List.splitOn_append_cons_self left right

theorem rows_of_clear (hRow : '\n' ∉ row) : rows row = [row] :=
  List.splitOn_eq_singleton hRow

/-- Whole lines are set apart from what stands below them. -/
theorem rows_append_above (hAbove : above = [] ∨ ∃ front, above = front ++ ['\n'])
    (text : List Char) : rows (above ++ text) = (rows above).dropLast ++ rows text := by
  rcases hAbove with rfl | ⟨front, rfl⟩
  · rfl
  · rw [List.append_assoc, List.singleton_append, rows_append_lineFeed, rows_append_lineFeed,
      rows_of_clear List.not_mem_nil, List.dropLast_concat]

/-- The rows before a line are those above it, and the last of these is empty. -/
theorem dropLast_rows_above (hAbove : above = [] ∨ ∃ front, above = front ++ ['\n'])
    (front : List Char) :
    (rows (above ++ front ++ ['\n'])).dropLast = (rows above).dropLast ++ rows front := by
  rw [List.append_assoc, rows_append_above hAbove, rows_append_lineFeed,
    rows_of_clear List.not_mem_nil, ← List.append_assoc, List.dropLast_concat]

/-- A text has the rows above a line of it, the line, and the rows below. -/
theorem LineCut.rows_eq (h : LineCut text offset above row below) :
    rows text = (rows above).dropLast ++ row :: (rows below).tail := by
  have hLower : rows (row ++ below) = row :: (rows below).tail := by
    rcases h.below_start with rfl | ⟨rest, rfl⟩
    · rw [List.append_nil]
      exact rows_of_clear h.row_clear
    · rw [rows_append_lineFeed, rows_of_clear h.row_clear, ← List.nil_append ('\n' :: rest),
        rows_append_lineFeed]
      rfl
  rw [h.text_eq, List.append_assoc, rows_append_above h.above_end, hLower]

/-- The rows above a line are as many as there are line feeds above it. -/
theorem length_dropLast_rows (text : List Char) :
    (rows text).dropLast.length = text.count '\n' := by
  rw [List.length_dropLast, length_rows, Nat.add_sub_cancel]

/-- Makes the same change to every row of a text. -/
def mapRows (change : List Char → List Char) (text : List Char) : List Char :=
  ['\n'].intercalate ((rows text).map change)

/-- A change that puts in no line feed changes the rows and nothing else. -/
theorem rows_mapRows {change : List Char → List Char}
    (hChange : ∀ row, '\n' ∉ row → '\n' ∉ change row) (text : List Char) :
    rows (mapRows change text) = (rows text).map change := by
  refine rows_intercalate ?_ ?_
  · intro line hLine
    obtain ⟨row, hRow, rfl⟩ := List.mem_map.mp hLine
    exact hChange row (lineFeed_not_mem_of_mem_rows hRow)
  · rw [ne_eq, List.map_eq_nil_iff]
    exact List.splitOn_ne_nil '\n' text

end EditAssist.Text
