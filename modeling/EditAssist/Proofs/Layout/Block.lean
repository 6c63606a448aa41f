import EditAssist.Proofs.Layout.ShiftPlan
import EditAssist.Proofs.Text.Rows

/-! The lines that a selection touches. `Touches` says which lines of a text these are, by the
positions of the two ends. `Block` cuts a text along them, and `Block.touches_iff` reads the touched
lines off that cut. -/
namespace EditAssist.Shift

open Text

/-- A line feed lies between two offsets. -/
def SpansLines (text : List Char) (start stop : Nat) : Prop :=
  '\n' ∈ (text.take stop).drop start

instance (text : List Char) (start stop : Nat) : Decidable (SpansLines text start stop) :=
  inferInstanceAs (Decidable (_ ∈ _))

/-- A line from the one of `start` to the one of `stop`. Where there are several, the last of them
is left out if `stop` stands at its start. -/
def Touches (text : List Char) (start stop line : Nat) : Prop :=
  let first := (LineMap.ofText text).position start
  let last := (LineMap.ofText text).position stop
  first.line ≤ line ∧ line ≤ last.line ∧
    ¬ (SpansLines text start stop ∧ last.column = 0 ∧ line = last.line)

instance (text : List Char) (start stop line : Nat) : Decidable (Touches text start stop line) :=
  inferInstanceAs (Decidable (_ ∧ _))

/-- Offsets past the end of the text have the position of its end. -/
theorem position_min (text : List Char) (offset : Nat) :
    (LineMap.ofText text).position (min offset text.length) =
      (LineMap.ofText text).position offset := by
  have hLength : (LineMap.ofText text).length = text.length := rfl
  rw [LineMap.position, LineMap.position, hLength, Nat.min_assoc, Nat.min_self]

theorem spansLines_min (text : List Char) (start stop : Nat) :
    SpansLines text (min start text.length) (min stop text.length) ↔
      SpansLines text start stop := by
  have hTake : text.take (min stop text.length) = text.take stop := by
    rw [← List.take_take, List.take_length]
  rw [SpansLines, SpansLines, hTake]
  rcases Nat.le_total start text.length with hStart | hStart
  · rw [Nat.min_eq_left hStart]
  · have hEnd : (text.take stop).length ≤ text.length := List.length_take_le' stop text
    rw [Nat.min_eq_right hStart, List.drop_of_length_le hEnd,
      List.drop_of_length_le (Nat.le_trans hEnd hStart)]

theorem touches_min (text : List Char) (start stop line : Nat) :
    Touches text (min start text.length) (min stop text.length) line ↔
      Touches text start stop line := by
  simp only [Touches, position_min, spansLines_min]

variable {text above first front last kept below upper row rest piece : List Char}
  {start stop line : Nat}

/-- Line feeds before an offset stand above its line, behind the last of them that line begins. -/
theorem exists_lines_above (hCut : LineCut text stop upper row below)
    (hTake : text.take stop = above ++ (first ++ '\n' :: rest)) :
    ∃ front piece,
      upper = above ++ front ++ ['\n'] ∧ front ++ '\n' :: piece = first ++ '\n' :: rest := by
  have hPiece : '\n' ∉ row.take (stop - upper.length) :=
    fun hMem => hCut.row_clear (List.mem_of_mem_take hMem)
  have hFeed : '\n' ∈ first ++ '\n' :: rest := List.mem_append_right _ List.mem_cons_self
  rw [hCut.take_eq] at hTake
  rcases List.append_eq_append_iff.mp hTake with ⟨_, -, hMiddle⟩ | ⟨middle, hUpper, hMiddle⟩
  · exact absurd (hMiddle ▸ List.mem_append_right _ hFeed) hPiece
  rcases List.eq_nil_or_concat middle with rfl | ⟨front, c, hConcat⟩
  · rw [List.nil_append] at hMiddle
    exact absurd (hMiddle ▸ hFeed) hPiece
  rw [List.concat_eq_append] at hConcat
  subst hConcat
  rcases hCut.above_end with hNil | ⟨before, hEnd⟩
  · rw [hNil] at hUpper
    simp at hUpper
  rw [hUpper, ← List.append_assoc] at hEnd
  obtain rfl : c = '\n' := List.singleton_inj.mp (List.append_inj' hEnd rfl).2
  refine ⟨front, row.take (stop - upper.length), by rw [hUpper, List.append_assoc], ?_⟩
  rw [hMiddle, List.append_assoc, List.singleton_append]

/-- The first row of what goes on with a line feed is what stands before its first line feed. -/
theorem rows_eq_cons (hFirst : '\n' ∉ first)
    (hFront : front ++ '\n' :: piece = first ++ '\n' :: rest) :
    ∃ others, rows front = first :: others := by
  obtain ⟨head, others, hRows⟩ := List.exists_cons_of_ne_nil (List.splitOn_ne_nil '\n' front)
  have hHeads := congrArg rows hFront
  rw [rows_append_lineFeed, rows_append_lineFeed, rows_of_clear hFirst, rows, hRows] at hHeads
  obtain rfl : head = first := (List.cons.inj hHeads).1
  exact ⟨others, hRows⟩

/-- The text around two offsets with a line feed between them. `first` is the line around `start`,
and `front` all lines from there to above the line around `stop`. That line is `last` if it is
touched, and otherwise `kept`. -/
structure Block (text : List Char) (start stop : Nat)
    (above first front last kept below : List Char) : Prop where
  start_cut : ∃ rest, LineCut text start above first ('\n' :: rest)
  first_row : ∃ others, rows front = first :: others
  stop_cut : LineCut text stop (above ++ front ++ ['\n']) (last ++ kept) below
  ends : last = [] ∧ stop = (above ++ front ++ ['\n']).length ∨
    kept = [] ∧ (above ++ front ++ ['\n']).length < stop

theorem lt_of_spansLines (hStop : stop ≤ text.length) (hSpans : SpansLines text start stop) :
    start < stop := by
  have := List.length_pos_of_mem hSpans
  rw [List.length_drop, List.length_take_of_le hStop] at this
  omega

/-- Two offsets with a line feed between them lie on different lines. -/
theorem exists_block (hStop : stop ≤ text.length) (hSpans : SpansLines text start stop) :
    ∃ above first front last kept below,
      Block text start stop above first front last kept below := by
  have hOrder := lt_of_spansLines hStop hSpans
  obtain ⟨above, first, low, hFirst⟩ :=
    exists_lineCut (Nat.le_trans (Nat.le_of_lt hOrder) hStop)
  obtain ⟨upper, row, below, hLast⟩ := exists_lineCut hStop
  obtain ⟨rest, hRest⟩ := block_eq hFirst (Nat.le_refl stop) hSpans
  have hAbove : (text.take stop).take above.length = above := by
    have hLength : above.length ≤ stop := Nat.le_trans hFirst.start_le (Nat.le_of_lt hOrder)
    rw [List.take_take, Nat.min_eq_left hLength, hFirst.text_eq, List.append_assoc,
      List.take_left]
  have hTake : text.take stop = above ++ (first ++ '\n' :: rest) := by
    have hSplit := List.take_append_drop above.length (text.take stop)
    rw [hAbove, hRest] at hSplit
    exact hSplit.symm
  obtain ⟨tail, rfl⟩ : ∃ tail, low = '\n' :: tail := by
    have hPrefix : above ++ (first ++ '\n' :: rest) <+: above ++ (first ++ low) := by
      rw [← hTake, ← List.append_assoc, ← hFirst.text_eq]
      exact List.take_prefix stop text
    rw [List.prefix_append_right_inj, List.prefix_append_right_inj] at hPrefix
    obtain ⟨more, hMore⟩ := hPrefix
    exact ⟨_, hMore.symm⟩
  obtain ⟨front, piece, rfl, hFront⟩ := exists_lines_above hLast hTake
  have hRows := rows_eq_cons hFirst.row_clear hFront
  rcases Nat.eq_or_lt_of_le hLast.start_le with hStart | hBehind
  · exact ⟨above, first, front, [], row, below, ⟨tail, hFirst⟩, hRows, hLast,
      .inl ⟨rfl, hStart.symm⟩⟩
  · refine ⟨above, first, front, row, [], below, ⟨tail, hFirst⟩, hRows, ?_, .inr ⟨rfl, hBehind⟩⟩
    rw [List.append_nil]
    exact hLast

namespace Block

/-- The line around `stop` is touched if it moves, and it moves if it is not kept. -/
theorem last_eq_nil_iff (h : Block text start stop above first front last kept below) :
    last = [] ↔ stop - (above ++ front ++ ['\n']).length = 0 := by
  rcases h.ends with ⟨rfl, hStop⟩ | ⟨rfl, hBehind⟩
  · rw [hStop, Nat.sub_self]
    exact ⟨fun _ => rfl, fun _ => rfl⟩
  · have hReach := h.stop_cut.le_stop
    rw [List.append_nil] at hReach
    rw [← List.length_eq_zero_iff]
    omega

theorem count_above_stop (front : List Char) :
    (above ++ front ++ ['\n']).count '\n' = above.count '\n' + (rows front).length := by
  rw [length_rows, List.count_append, List.count_append, List.count_singleton_self, Nat.add_assoc]

/-- The touched lines follow each other: those of `front`, and `last` if it is there. -/
theorem touches_iff (h : Block text start stop above first front last kept below)
    (hSpans : SpansLines text start stop) :
    Touches text start stop line ↔
      above.count '\n' ≤ line ∧ line ≤ above.count '\n' + (rows front).length ∧
        ¬ (last = [] ∧ line = above.count '\n' + (rows front).length) := by
  obtain ⟨_, hStart⟩ := h.start_cut
  simp only [Touches, LineMap.position_eq hStart, LineMap.position_eq h.stop_cut, hSpans,
    true_and, h.last_eq_nil_iff, count_above_stop]

end Block

end EditAssist.Shift
