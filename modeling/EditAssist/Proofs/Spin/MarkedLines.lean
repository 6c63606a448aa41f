import EditAssist.Proofs.Text.Occurrence
import EditAssist.Proofs.Text.Records
import EditAssist.Spin.Comment

/-! Lines that hold a mark. The two ways to count them, over a whole text and on the way past one
line, leave empty records out at different points and come to the same balance. For marks that show
wherever a line break starts, it is the number of rows that hold each mark, so balances add up over
the lines of a text. The state after a line is read off the rows through that line, except for the
row behind a final line feed, which no record stands for. -/
namespace EditAssist

open Text

/-- How many of the lines hold the mark. -/
def Text.linesWith (mark : List Char) (lines : List (List Char)) : Nat :=
  lines.countP (occursIn mark)

/-- Marks that are seen in a line wherever its break starts, and that no empty line holds. -/
structure Delimiters.Visible (marks : Delimiters) : Prop where
  opener : BreakBlind (occursIn marks.opener)
  closer : BreakBlind (occursIn marks.closer)

theorem Text.breakBlind_occursIn {mark : List Char} (hMark : mark ≠ []) (hReturn : '\r' ∉ mark) :
    BreakBlind (occursIn mark) where
  empty := by rw [occursIn, find?_nil hMark, Option.isSome_none]
  append_return := fun line => by rw [occursIn, occursIn, find?_append_singleton hMark hReturn]

theorem Delimiters.visible {marks : Delimiters} (hMarks : marks = .brace ∨ marks = .block) :
    marks.Visible := by
  rcases hMarks with rfl | rfl
  · exact ⟨breakBlind_occursIn (by decide) (by decide), breakBlind_occursIn (by decide) (by decide)⟩
  · exact ⟨breakBlind_occursIn (by decide) (by decide), breakBlind_occursIn (by decide) (by decide)⟩

namespace Balance

variable {marks : Delimiters}

theorem foldl_count (balance : Balance) (records : List (List Char)) :
    records.foldl (count marks) balance =
      ⟨balance.opens + linesWith marks.opener records,
        balance.closes + linesWith marks.closer records⟩ := by
  induction records generalizing balance with
  | nil => rfl
  | cons record rest ih =>
      rw [List.foldl_cons, ih]
      simp only [count, linesWith, List.countP_cons, Balance.mk.injEq]
      omega

theorem ofRecords_eq (records : List (List Char)) :
    ofRecords marks records =
      ⟨linesWith marks.opener records, linesWith marks.closer records⟩ := by
  rw [ofRecords, foldl_count, Nat.zero_add, Nat.zero_add]

end Balance

namespace Text

variable {mark : List Char}

theorem linesWith_append (mark : List Char) (above below : List (List Char)) :
    linesWith mark (above ++ below) = linesWith mark above + linesWith mark below :=
  List.countP_append

/-- Lines without the mark may stand anywhere. -/
theorem linesWith_insert {inserted : List (List Char)}
    (hPlain : ∀ line ∈ inserted, occursIn mark line = false) (above below : List (List Char)) :
    linesWith mark (above ++ inserted ++ below) = linesWith mark (above ++ below) := by
  have hNone : linesWith mark inserted = 0 :=
    List.countP_eq_zero.mpr fun line hLine => Bool.eq_false_iff.mp (hPlain line hLine)
  rw [linesWith_append, linesWith_append, linesWith_append, hNone, Nat.add_zero]

/-- Leaving out empty lines leaves out no mark. -/
theorem linesWith_filter (hMark : BreakBlind (occursIn mark)) (lines : List (List Char)) :
    linesWith mark (lines.filter (!·.isEmpty)) = linesWith mark lines := by
  rw [linesWith, linesWith, List.countP_filter]
  refine List.countP_congr fun line _ => ?_
  cases line with
  | nil => simp [hMark.empty]
  | cons first line => simp

end Text

namespace Balance

variable {marks : Delimiters} (hMarks : marks.Visible)
include hMarks

theorem ofRecords_filter (lines : List (List Char)) :
    ofRecords marks (lines.filter (!·.isEmpty)) =
      ⟨linesWith marks.opener lines, linesWith marks.closer lines⟩ := by
  rw [ofRecords_eq, linesWith_filter hMarks.opener, linesWith_filter hMarks.closer]

/-- The balance of a text counts its rows. -/
theorem ofText_eq (text : List Char) :
    ofText marks text =
      ⟨linesWith marks.opener (rows text), linesWith marks.closer (rows text)⟩ := by
  rw [ofText, ofRecords_filter hMarks, linesWith, linesWith, countP_records hMarks.opener,
    countP_records hMarks.closer]
  rfl

/-- The first records of a text are balanced as its first rows are. -/
theorem ofRecords_take (text : List Char) (count : Nat) :
    ofRecords marks (((records text).take count).filter (!·.isEmpty)) =
      ⟨linesWith marks.opener ((rows text).take count),
        linesWith marks.closer ((rows text).take count)⟩ := by
  rw [ofRecords_filter hMarks, linesWith, linesWith, countP_take_records hMarks.opener,
    countP_take_records hMarks.closer]
  rfl

end Balance

namespace Comment

variable {marks : Delimiters} {found : Scan} {text : List Char} {index line : Nat}

/-- A pass counts every record but the empty ones. -/
theorem balance_scanFrom (lines : List (List Char)) :
    (scanFrom marks line index found lines).balance =
      (lines.filter (!·.isEmpty)).foldl (Balance.count marks) found.balance := by
  induction lines generalizing index found with
  | nil => rfl
  | cons record rest ih =>
      rw [scanFrom, ih]
      cases record with
      | nil => rfl
      | cons first record => rfl

/-- A pass that starts behind the line says nothing about it. -/
theorem openAtLine_of_lt (hLine : line < index) (lines : List (List Char)) :
    (scanFrom marks line index found lines).openAtLine = found.openAtLine := by
  induction lines generalizing index found with
  | nil => rfl
  | cons record rest ih =>
      rw [scanFrom, ih (Nat.lt_succ_of_lt hLine), if_neg (Nat.ne_of_gt hLine)]

/-- A pass sees whether a region is open after a line once it has come there. -/
theorem openAtLine_scanFrom (ahead : Nat) (lines : List (List Char)) :
    (scanFrom marks (index + ahead) index found lines).openAtLine =
      if ahead < lines.length then
        (((lines.take (ahead + 1)).filter (!·.isEmpty)).foldl (Balance.count marks)
          found.balance).isOpen
      else found.openAtLine := by
  induction lines generalizing index found ahead with
  | nil => rfl
  | cons record rest ih =>
      rw [scanFrom]
      cases ahead with
      | zero =>
          have hHere : 0 < (record :: rest).length := Nat.succ_pos _
          rw [openAtLine_of_lt (Nat.lt_succ_self _), if_pos hHere]
          simp only [Nat.add_zero, if_true]
          cases record with
          | nil => rfl
          | cons first record => rfl
      | succ ahead =>
          have hLine : index + (ahead + 1) = index + 1 + ahead := by omega
          have hNotHere : index ≠ index + 1 + ahead := by omega
          rw [hLine, ih, if_neg hNotHere, List.length_cons, List.take_succ_cons]
          simp only [Nat.add_lt_add_iff_right]
          cases record with
          | nil => rfl
          | cons first record => rfl

/-- A region is open after a line if there is a record for it and the records through it leave one
open. -/
theorem isOpenAt_eq (marks : Delimiters) (text : List Char) (line : Nat) :
    isOpenAt marks text line = (decide (line < (records text).length) &&
      (Balance.ofRecords marks
        (((records text).take (line + 1)).filter (!·.isEmpty))).isOpen) := by
  have hScan := @openAtLine_scanFrom marks ⟨false, {}⟩ 0 line (records text)
  rw [Nat.zero_add] at hScan
  rw [isOpenAt, scan, hScan]
  split
  next hLine =>
    rw [decide_eq_true hLine, Bool.true_and]
    rfl
  next hLine => rw [decide_eq_false hLine, Bool.false_and]

/-- A region is open after a line if more of the lines through it hold the opening mark than hold
the closing one. The lines are those of the text, all but the one behind a final line feed: there
none is ever open. -/
theorem isOpenAt_iff (hMarks : marks = .brace ∨ marks = .block) :
    isOpenAt marks text line = true ↔
      line ≤ text.count '\n' ∧ (text.getLast? = some '\n' → line < text.count '\n') ∧
        linesWith marks.closer ((rows text).take (line + 1)) <
          linesWith marks.opener ((rows text).take (line + 1)) := by
  have hVisible := Delimiters.visible hMarks
  rw [isOpenAt_eq, Bool.and_eq_true, decide_eq_true_eq, Balance.ofRecords_take hVisible,
    Balance.isOpen, decide_eq_true_eq, ← and_assoc]
  refine and_congr_left fun hOpen => lt_length_records_iff ?_
  rintro rfl
  -- the only line of the empty text holds no mark
  have hNone : linesWith marks.opener ((rows []).take (line + 1)) = 0 := by
    rw [linesWith, List.countP_eq_zero]
    intro row hRow
    obtain rfl : row = [] := List.mem_singleton.mp (List.mem_of_mem_take hRow)
    exact Bool.eq_false_iff.mp hVisible.opener.empty
  rw [hNone] at hOpen
  exact Nat.not_lt_zero _ hOpen

/-- The empty line within a block comment is one of the comment, and the line that closes the
comment is not. -/
theorem isOpenAt_iff_within_comment :
    let text := "x /*\r\n\ny */\n".toList
    isOpenAt .block text 1 = true ∧ ¬ isOpenAt .block text 2 = true := by
  intro text
  exact ⟨(isOpenAt_iff (.inr rfl)).mpr (by decide), mt (isOpenAt_iff (.inr rfl)).mp (by decide)⟩

/-- A brace and a line break: the line behind the break is one of the text, and the brace is still
open there. -/
theorem isOpenAt_not_behind_final_lineFeed :
    let text := ['{', '\n']
    1 ≤ text.count '\n' ∧
      linesWith Delimiters.brace.closer ((rows text).take 2) <
        linesWith Delimiters.brace.opener ((rows text).take 2) ∧
      isOpenAt .brace text 1 = false ∧
      ¬ ∀ marks text line, marks = Delimiters.brace ∨ marks = .block → line ≤ text.count '\n' →
        (isOpenAt marks text line = true ↔
          linesWith marks.closer ((rows text).take (line + 1)) <
            linesWith marks.opener ((rows text).take (line + 1))) := by
  intro text
  have hLine : 1 ≤ text.count '\n' := by decide
  have hOpen : linesWith Delimiters.brace.closer ((rows text).take 2) <
      linesWith Delimiters.brace.opener ((rows text).take 2) := by
    decide
  have hMissed : isOpenAt .brace text 1 = false := by decide
  refine ⟨hLine, hOpen, hMissed, fun hClaim => ?_⟩
  rw [(hClaim .brace text 1 (.inl rfl) hLine).mpr hOpen] at hMissed
  cases hMissed

/-- The pass that stops to look at a line comes to the same balance as the one that does not. -/
theorem balance_scan (marks : Delimiters) (text : List Char) (line : Nat) :
    (scan marks text line).balance = Balance.ofText marks text :=
  balance_scanFrom (records text)

/-- Balances add up. Whatever the marks and whichever line a pass looks at, in the text or behind
it, the pass ends with the balance of the text. For braces and for block comments, the balance of
two texts that a line feed joins is the sum of theirs, and a text keeps its balance if its lines
change places or if lines without a mark come between them. -/
theorem balance_adds_up (marks : Delimiters) :
    (∀ text line, (scan marks text line).balance = Balance.ofText marks text) ∧
    (marks = .brace ∨ marks = .block →
      (∀ above below, Balance.ofText marks (above ++ '\n' :: below) =
        ⟨(Balance.ofText marks above).opens + (Balance.ofText marks below).opens,
          (Balance.ofText marks above).closes + (Balance.ofText marks below).closes⟩) ∧
      (∀ text moved, (rows moved).Perm (rows text) →
        Balance.ofText marks moved = Balance.ofText marks text) ∧
      ∀ text grown above inserted below, rows text = above ++ below →
        rows grown = above ++ inserted ++ below →
        (∀ line ∈ inserted, occursIn marks.opener line = false ∧
          occursIn marks.closer line = false) →
        Balance.ofText marks grown = Balance.ofText marks text) := by
  refine ⟨balance_scan marks, fun hMarks => ?_⟩
  have hText := Balance.ofText_eq (Delimiters.visible hMarks)
  refine ⟨fun above below => ?_, fun text moved hMoved => ?_,
    fun text grown above inserted below hRows hGrown hPlain => ?_⟩
  · rw [hText, hText, hText, rows_append_lineFeed, linesWith_append, linesWith_append]
  · rw [hText, hText, linesWith, linesWith, hMoved.countP_eq, hMoved.countP_eq]
    rfl
  · rw [hText, hText, hRows, hGrown, linesWith_insert fun line hLine => (hPlain line hLine).1,
      linesWith_insert fun line hLine => (hPlain line hLine).2]

/-- The seam falls between a carriage return and the line feed, and the line behind the last one is
looked at. -/
theorem balance_adds_up_at_lineFeed :
    let above := "x \x7b \x7d\r".toList
    let below := "\n\x7d \x7b\n".toList
    (scan .brace (above ++ '\n' :: below) 9).balance = ⟨2, 2⟩ ∧
      Balance.ofText .brace (above ++ '\n' :: below) =
        ⟨(Balance.ofText .brace above).opens + (Balance.ofText .brace below).opens,
          (Balance.ofText .brace above).closes + (Balance.ofText .brace below).closes⟩ ∧
      Balance.ofText .brace "\x7d \x7b\n\n\nx \x7b \x7d\r".toList =
        Balance.ofText .brace (above ++ '\n' :: below) := by
  intro above below
  obtain ⟨hScan, hBraces⟩ := balance_adds_up .brace
  obtain ⟨hSum, hMoved, -⟩ := hBraces (.inl rfl)
  exact ⟨(hScan _ 9).trans (by decide), hSum above below, hMoved _ _ (by decide)⟩

end Comment

end EditAssist
