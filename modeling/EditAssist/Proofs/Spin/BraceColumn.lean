import EditAssist.Proofs.Spin.MarkedLines

/-! When a closing brace is moved to the left. The lines that hold an opening brace and those that
hold a closing one are counted over the whole text, and the brace moves wherever the two counts
differ, whichever of them is the larger. -/
namespace EditAssist

open Text

namespace Comment

variable {c : Char} {text : List Char} {line column tabWidth place : Nat}

theorem dropBlockComment_nil : dropBlockComment [] = [] :=
  rfl

theorem dropBlockComment_append_return (record : List Char) :
    dropBlockComment (record ++ ['\r']) = dropBlockComment record ++ ['\r'] := by
  have hFirst : find? Delimiters.block.opener (record ++ ['\r']) =
      find? Delimiters.block.opener record :=
    find?_append_singleton (by decide) (by decide) record
  have hLast : findLast? Delimiters.block.closer (record ++ ['\r']) =
      findLast? Delimiters.block.closer record :=
    findLast?_append_singleton (by decide) (by decide) record
  rw [dropBlockComment, dropBlockComment, hFirst, hLast]
  split
  next first last hFound hClosed =>
    split
    next hOrder =>
      have hLength : last + 2 ≤ record.length := findLast?_le hClosed
      rw [List.take_append_of_le_length (by omega), List.drop_append_of_le_length hLength,
        List.append_assoc]
    next => rfl
  next => rfl

/-- How many lines hold `c`, where a block comment within a line is left out. -/
def linesHolding (c : Char) (text : List Char) : Nat :=
  (rows text).countP fun row => c ∈ dropBlockComment row

theorem breakBlind_mem (hc : c ≠ '\r') : BreakBlind fun line => decide (c ∈ line) where
  empty := rfl
  append_return := fun line => by simp [hc]

theorem breakBlind_mem_dropBlockComment (hc : c ≠ '\r') :
    BreakBlind fun line => decide (c ∈ dropBlockComment line) where
  empty := rfl
  append_return := fun line => by simp [dropBlockComment_append_return, hc]

theorem countP_braceRecords (hc : c ≠ '\r') (text : List Char) :
    (((records text).filter (!·.isEmpty)).map dropBlockComment).countP (occursIn [c]) =
      linesHolding c text := by
  rw [linesHolding, ← countP_records (breakBlind_mem_dropBlockComment hc), List.countP_map,
    List.countP_filter]
  refine List.countP_congr fun record _ => ?_
  cases record with
  | nil => simp [dropBlockComment_nil]
  | cons first record => simp [occursIn_singleton]

/-- The braces are balanced where as many lines open one as close one. -/
theorem isBalanced_braceRecords (text : List Char) :
    (Balance.ofRecords .brace
      (((records text).filter (!·.isEmpty)).map dropBlockComment)).isBalanced =
        decide (linesHolding '{' text = linesHolding '\x7d' text) := by
  rw [Balance.ofRecords_eq, linesWith, linesWith, ← countP_braceRecords (by decide),
    ← countP_braceRecords (by decide)]
  rfl

theorem column_of_braceColumn? (h : braceColumn? text line column tabWidth = some place) :
    tabWidth < column ∧ place = column - tabWidth := by
  simp only [braceColumn?] at h
  split at h
  · cases h
  next hColumn =>
  split at h
  · cases h
  split at h
  · cases h
  split at h
  · cases h
  exact ⟨Nat.lt_of_not_ge hColumn, (Option.some.inj h).symm⟩

/-- A closing brace typed behind the first tab stop, on a line below the first, belongs one tab stop
to the left if the line opens no brace itself and the braces are out of balance. They are so where
more lines hold an opening brace than a closing one, and the other way round. -/
theorem braceColumn?_eq_some_iff :
    braceColumn? text line column tabWidth = some place ↔
      tabWidth < column ∧ place = column - tabWidth ∧ 0 < line ∧
        '{' ∉ (rows text)[line]?.getD [] ∧
        (linesHolding '\x7d' text < linesHolding '{' text ∨
          linesHolding '{' text < linesHolding '\x7d' text) := by
  have hLine : occursIn Delimiters.brace.opener ((records text)[line]?.getD []) =
      decide ('{' ∈ (rows text)[line]?.getD []) := by
    rw [← getD_records (breakBlind_mem (by decide)) text line]
    exact occursIn_singleton '{' _
  simp only [braceColumn?, hLine, isBalanced_braceRecords, decide_eq_true_eq]
  have hUneven : (linesHolding '\x7d' text < linesHolding '{' text ∨
      linesHolding '{' text < linesHolding '\x7d' text) ↔
        ¬ linesHolding '{' text = linesHolding '\x7d' text := by
    omega
  rw [hUneven]
  by_cases hColumn : column ≤ tabWidth
  · simp [hColumn, Nat.not_lt_of_ge hColumn]
  · simp only [hColumn, Nat.lt_of_not_ge hColumn, if_false, true_and]
    split
    next hOpens => simp [hOpens]
    next hOpens =>
    split
    next hEven => simp [hEven]
    next hOdd =>
    split
    next hTop => simp [hTop]
    next hBelow => simp [hOpens, hOdd, Nat.pos_of_ne_zero hBelow, eq_comm]

/-- Nothing is open here, and still the brace is moved. -/
theorem braceColumn?_of_surplus_closers :
    let text := "x \x7d\n        ".toList
    braceColumn? text 1 8 4 = some 4 ∧ linesHolding '{' text < linesHolding '\x7d' text ∧
      ¬ ∀ text line column tabWidth place, braceColumn? text line column tabWidth = some place →
        linesHolding '\x7d' text < linesHolding '{' text := by
  intro text
  have hColumn : braceColumn? text 1 8 4 = some 4 := by decide
  have hFewer : linesHolding '{' text < linesHolding '\x7d' text := by decide
  refine ⟨hColumn, hFewer, fun hClaim => ?_⟩
  exact Nat.lt_asymm hFewer (hClaim text 1 8 4 4 hColumn)

end Comment

end EditAssist
