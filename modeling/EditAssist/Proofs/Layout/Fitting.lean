import EditAssist.Proofs.Layout.Carrying

/-! There is a plan for every selection, and it can be carried out: its edit lies within the text
and changes something, and its selection lies within the edited text. For the plans that move lines
this is read off from where the ends of the selection are carried. -/
namespace EditAssist.Shift

open Text

/-- What makes a plan fit a text. -/
structure Plan.Fits (plan : Plan) (text : List Char) (edit : Replacement) : Prop where
  start_le : edit.range.start ≤ edit.range.stop
  stop_le : edit.range.stop ≤ text.length
  changes : edit.range.start < edit.range.stop ∨ edit.text ≠ []
  selection : plan.selection.Within (edit.apply text).length

variable {text above row below : List Char} {start stop width : Nat} {shift : Shift}
  {edit : Replacement}

/-- There is at least one space up to the next tab stop, so padding always changes the text. -/
theorem planTab_fits (hStart : start ≤ stop) (hStop : stop ≤ text.length) (hWidth : 0 < width) :
    ∃ plan, planTab text start stop width = .ok plan ∧
      ∀ edit, plan.edit = some edit → plan.Fits text edit := by
  have hPad := Nat.mod_lt ((LineMap.ofText text).position start).column hWidth
  rw [planTab, toTabStop_eq hWidth]
  refine ⟨_, rfl, ?_⟩
  rintro edit ⟨⟩
  refine ⟨hStart, hStop, .inr ?_, Selection.within_caret ?_⟩
  · rw [← List.length_pos_iff, length_spaces]
    omega
  · rw [Replacement.apply, List.length_append, List.length_append,
      List.length_take_of_le (Nat.le_trans hStart hStop)]
    exact Nat.le_add_right _ _

/-- The plan for a block fits the text. -/
theorem Block.fits {first front last kept : List Char}
    (h : Block text start stop above first front last kept below)
    (hSpans : SpansLines text start stop) (hEdit : (h.planned width shift).edit = some edit) :
    (h.planned width shift).Fits text edit := by
  have hWithin := (h.carries hSpans width shift).within
  have hSome : 0 < (front ++ '\n' :: last).length := List.length_pos_of_mem (a := '\n') (by simp)
  rw [Plan.applied, hEdit] at hWithin
  simp only [planned] at hEdit
  split at hEdit
  · cases hEdit
  · cases hEdit
    exact ⟨Nat.le_add_right _ _, h.content_stop_le, .inl (Nat.lt_add_of_pos_right hSome), hWithin⟩

/-- So does the plan for one line. -/
theorem planOutdent_fits (hStart : LineCut text start above row below)
    (hStop : LineCut text stop above row below) (hSpans : ¬ SpansLines text start stop)
    (hEdit : (planOutdent text start stop width).edit = some edit) :
    (planOutdent text start stop width).Fits text edit := by
  have hWithin := (planOutdent_carries hStart hStop hSpans width).within
  have hReach : above.length + row.length ≤ text.length := by
    rw [hStart.text_eq, ← List.length_append]
    exact (List.prefix_append _ _).length_le
  rw [Plan.applied, hEdit] at hWithin
  simp only [planOutdent_eq hStart hStop] at hEdit
  split at hEdit
  · cases hEdit
  next hSome =>
    have hRow := Nat.lt_of_lt_of_le (Nat.pos_of_ne_zero hSome) (removable_le width row)
    cases hEdit
    exact ⟨Nat.le_add_right _ _, hReach, .inl (Nat.lt_add_of_pos_right hRow), hWithin⟩

/-- There is a plan for every selection, and it fits the text. -/
theorem plan_fits (text : List Char) (selection : Selection) (tabWidth : Nat) (shift : Shift) :
    ∃ planned, plan text selection tabWidth shift = .ok planned ∧
      ∀ edit, planned.edit = some edit → planned.Fits text edit := by
  have hOrder := clamped_start_le_stop text selection
  have hStop : min selection.stop text.length ≤ text.length := Nat.min_le_right _ _
  have hWidth : 0 < max tabWidth 1 := Nat.lt_of_lt_of_le Nat.zero_lt_one (Nat.le_max_right _ _)
  rw [plan_eq]
  dsimp only
  split
  next hSpans =>
    obtain ⟨above, first, front, last, kept, below, hBlock⟩ := exists_block hStop hSpans
    exact ⟨_, hBlock.planBlock_eq _ shift, fun _ => hBlock.fits hSpans⟩
  next hSpans =>
    cases shift with
    | indent => exact planTab_fits hOrder hStop hWidth
    | outdent =>
        obtain ⟨above, row, below, hCut⟩ := exists_lineCut (Nat.le_trans hOrder hStop)
        have hCutStop := lineCut_of_not_spans hCut hOrder hStop hSpans
        exact ⟨_, rfl, fun _ => planOutdent_fits hCut hCutStop hSpans⟩

end EditAssist.Shift
