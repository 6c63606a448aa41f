import EditAssist.Proofs.Text.Rows

/-! Rows and records tell apart the same lines for whoever looks neither at empty lines nor at a
carriage return behind a line. So what is counted or asked by records may be counted and asked by
rows, which are the lines that have numbers. -/
namespace EditAssist.Text

variable {p : List Char → Bool}

/-- A question about lines to which it is all one where a line break starts and whether an empty
line follows the last one. -/
structure BreakBlind (p : List Char → Bool) : Prop where
  empty : p [] = false
  append_return : ∀ line, p (line ++ ['\r']) = p line

theorem BreakBlind.chopReturn (h : BreakBlind p) (line : List Char) :
    p (chopReturn line) = p line := by
  rw [Text.chopReturn]
  split
  next hLast =>
    obtain ⟨front, rfl⟩ := List.getLast?_eq_some_iff.mp hLast
    rw [List.dropLast_concat, h.append_return]
  next => rfl

theorem countP_recordsOfRows (h : BreakBlind p) (lines : List (List Char)) :
    (recordsOfRows lines).countP p = lines.countP p := by
  fun_induction recordsOfRows lines with
  | case1 => rfl
  | case2 last hEmpty =>
      rw [List.isEmpty_iff.mp hEmpty, List.countP_singleton, h.empty]
      rfl
  | case3 last hSome => rfl
  | case4 row rest hRest ih => rw [List.countP_cons, List.countP_cons, ih, h.chopReturn]

theorem countP_records (h : BreakBlind p) (text : List Char) :
    (records text).countP p = (rows text).countP p :=
  countP_recordsOfRows h (rows text)

theorem countP_take_recordsOfRows (h : BreakBlind p) (lines : List (List Char)) (count : Nat) :
    ((recordsOfRows lines).take count).countP p = (lines.take count).countP p := by
  fun_induction recordsOfRows lines generalizing count with
  | case1 => rfl
  | case2 last hEmpty =>
      cases count with
      | zero => rfl
      | succ count => simp [List.isEmpty_iff.mp hEmpty, h.empty]
  | case3 last hSome => rfl
  | case4 row rest hRest ih =>
      cases count with
      | zero => rfl
      | succ count =>
          rw [List.take_succ_cons, List.take_succ_cons, List.countP_cons, List.countP_cons, ih,
            h.chopReturn]

/-- The first records answer as the first rows do. -/
theorem countP_take_records (h : BreakBlind p) (text : List Char) (count : Nat) :
    ((records text).take count).countP p = ((rows text).take count).countP p :=
  countP_take_recordsOfRows h (rows text) count

theorem getD_recordsOfRows (h : BreakBlind p) (lines : List (List Char)) (line : Nat) :
    p ((recordsOfRows lines)[line]?.getD []) = p (lines[line]?.getD []) := by
  fun_induction recordsOfRows lines generalizing line with
  | case1 => rfl
  | case2 last hEmpty =>
      rw [List.isEmpty_iff.mp hEmpty]
      cases line <;> rfl
  | case3 last hSome => rfl
  | case4 row rest hRest ih =>
      cases line with
      | zero => exact h.chopReturn row
      | succ line => exact ih line

/-- A line past the last record reads as an empty one. -/
theorem getD_records (h : BreakBlind p) (text : List Char) (line : Nat) :
    p ((records text)[line]?.getD []) = p ((rows text)[line]?.getD []) :=
  getD_recordsOfRows h (rows text) line

theorem recordsOfRows_concat (lines : List (List Char)) (last : List Char) :
    recordsOfRows (lines ++ [last]) =
      lines.map chopReturn ++ if last.isEmpty then [] else [last] := by
  induction lines with
  | nil => rfl
  | cons row rest ih =>
      rw [List.cons_append, recordsOfRows, ih, List.map_cons, List.cons_append]
      exact List.append_ne_nil_of_right_ne_nil rest (List.cons_ne_nil last [])

/-- A text has a record for every line feed, and one more for what stands behind the last one. -/
theorem length_records {text above lead : List Char} (h : Lead text above lead) :
    (records text).length = text.count '\n' + if lead.isEmpty then 0 else 1 := by
  have hRows : rows text = (rows above).dropLast ++ [lead] := by
    rw [h.text_eq, rows_append_above h.above_end, rows_of_clear h.clear]
  have hCount : text.count '\n' = above.count '\n' := by
    rw [h.text_eq, List.count_append, List.count_eq_zero.mpr h.clear, Nat.add_zero]
  rw [records, hRows, recordsOfRows_concat, List.length_append, List.length_map,
    length_dropLast_rows, hCount]
  split <;> rfl

/-- Nothing stands behind the last line feed of a text that it ends. -/
theorem Lead.eq_nil_iff {text above lead : List Char} (h : Lead text above lead)
    (hSome : text ≠ []) : lead = [] ↔ text.getLast? = some '\n' := by
  constructor
  · intro hLead
    rw [hLead] at h
    rcases h.above_end with hNil | ⟨before, hAbove⟩
    · exact absurd (by rw [h.text_eq, hNil, List.append_nil]) hSome
    · rw [h.text_eq, hAbove, List.append_nil, List.getLast?_concat]
  · intro hLast
    cases hEnd : lead.getLast? with
    | none => exact List.getLast?_eq_none_iff.mp hEnd
    | some last =>
        rw [h.text_eq, List.getLast?_append, hEnd, Option.some_or] at hLast
        exact absurd (List.mem_of_getLast? (hEnd.trans hLast)) h.clear

/-- Every row of a text is a record, but for the row behind a final line feed. -/
theorem lt_length_records_iff {text : List Char} {line : Nat} (hSome : text ≠ []) :
    line < (records text).length ↔
      line ≤ text.count '\n' ∧ (text.getLast? = some '\n' → line < text.count '\n') := by
  obtain ⟨above, lead, hLead⟩ := exists_lead text
  rw [length_records hLead, ← hLead.eq_nil_iff hSome]
  by_cases hEnd : lead = []
  · simp only [hEnd, List.isEmpty_nil, if_true, Nat.add_zero, forall_const]
    omega
  · simp only [hEnd, List.isEmpty_eq_false_iff.mpr hEnd, Bool.false_eq_true, if_false,
      false_implies, and_true]
    omega

end EditAssist.Text
