import EditAssist.Layout.Shift
import EditAssist.Proofs.Document.Lines

/-! What moving does to a line, to a column on it and to lines one after the other, and which lines
of a text a block begins with. -/
namespace EditAssist.Shift

open Text

@[simp] theorem length_spaces (count : Nat) : (spaces count).length = count :=
  List.length_replicate

theorem removable_le (width : Nat) (line : List Char) : removable width line ≤ line.length :=
  Nat.le_trans (Nat.min_le_right _ _) (List.takeWhile_sublist _).length_le

/-- A column on a line moves to a column on the moved line. -/
theorem moveColumn_le (width : Nat) (shift : Shift) {line : List Char} {column : Nat}
    (hColumn : column ≤ line.length) :
    shift.moveColumn width line column ≤ (shift.moveLine width line).length := by
  cases shift with
  | indent =>
      simp only [moveColumn, moveLine, List.length_append, length_spaces]
      omega
  | outdent =>
      simp only [moveColumn, moveLine, List.length_drop]
      omega

/-- The last line comes after what stands above it. -/
theorem intercalate_concat (lines : List (List Char)) (last : List Char) :
    ['\n'].intercalate (lines ++ [last]) = ['\n'].intercalate (lines ++ [[]]) ++ last := by
  induction lines with
  | nil => simp
  | cons line lines ih =>
      have hNil (tail : List Char) : lines ++ [tail] ≠ [] := by simp
      rw [List.cons_append, List.cons_append, List.intercalate_cons_of_ne_nil (hNil _),
        List.intercalate_cons_of_ne_nil (hNil _), ih]
      simp only [List.append_assoc]

variable {text above row below : List Char} {start stop : Nat}

/-- A trailing empty line stays, any other last line is moved. -/
theorem moveLines_concat (width : Nat) (shift : Shift) (front : List (List Char))
    (last : List Char) :
    shift.moveLines width (front ++ [last]) =
      shift.moveLines width (front ++ [[]]) ++
        if last.isEmpty then [] else shift.moveLine width last := by
  rw [moveLines, moveLines, List.dropLast_concat, List.dropLast_concat, List.getLast?_concat,
    List.getLast?_concat]
  cases last with
  | nil => simp
  | cons c rest => exact intercalate_concat _ _

/-- Lines from the one around `start` on, down to beyond a line feed, begin with the rest of that
line and the line feed after it. -/
theorem block_eq (hCut : LineCut text start above row below) {blockStop : Nat}
    (hStop : stop ≤ blockStop) (hFeed : '\n' ∈ (text.take stop).drop start) :
    ∃ rest, (text.take blockStop).drop above.length = row ++ '\n' :: rest := by
  have hBlock : (text.take blockStop).drop above.length =
      (row ++ below).take (blockStop - above.length) := by
    rw [hCut.text_eq, List.append_assoc, List.drop_take, List.drop_left]
  have hMem : '\n' ∈ (text.take blockStop).drop above.length :=
    ((List.take_prefix_take_left hStop).sublist.drop above.length).mem
      (List.drop_subset_drop_left _ hCut.start_le hFeed)
  rw [hBlock, List.take_append, List.mem_append] at hMem
  rcases hMem with hRow | hBelow
  · exact absurd (List.mem_of_mem_take hRow) hCut.row_clear
  rcases hCut.below_start with hNil | ⟨rest, hRest⟩
  · rw [hNil, List.take_nil] at hBelow
    cases hBelow
  · rw [hRest] at hBelow
    cases hCount : blockStop - above.length - row.length with
    | zero =>
        rw [hCount] at hBelow
        cases hBelow
    | succ count =>
        refine ⟨rest.take count, ?_⟩
        rw [hBlock, hRest, List.take_append, hCount, List.take_succ_cons,
          List.take_of_length_le (by omega)]

end EditAssist.Shift
