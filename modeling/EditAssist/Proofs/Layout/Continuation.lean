import EditAssist.Layout.Continuation
import EditAssist.Proofs.Text.Occurrence

/-! The text that continues a line. The walk that makes it passes three stretches: the code before a
comment, the mark, and the white space behind it. What it gives for each is put together in
`lead_keeps_columns`. A continued line is continued by itself, unless its mark was chosen because
of a double mark further on in a comment that does not begin with one. -/
namespace EditAssist.Continuation

open Text

variable {line before comment text repeated : List Char} {column : Nat}

theorem mark_eq (line : List Char) :
    mark line = if ['\'', '\''] <:+: line then ['\'', '\''] else ['\''] := by
  simp only [mark, occursIn_iff]

/-- Once the comment has begun, or where there is none, the walk goes as far as white space goes. -/
theorem leadFrom_behind {start : Option Nat} (hStart : ∀ place ∈ start, place < column) :
    leadFrom start repeated column text =
      List.replicate (text.takeWhile isBlank).length ' ' := by
  induction text generalizing column with
  | nil => rfl
  | cons c rest ih =>
      have hPast : start.any (column ≤ ·) = false := by
        rw [Option.any_eq_false]
        intro place hPlace
        simpa using hStart place hPlace
      have hOther : (start == some column) = false := by
        rw [beq_eq_false_iff_ne]
        intro hHere
        exact Nat.lt_irrefl column (hStart column hHere)
      have hRest := ih fun place hPlace => Nat.lt_succ_of_lt (hStart place hPlace)
      rw [leadFrom, hPast, hOther, hRest, Bool.false_or]
      cases hBlank : isBlank c with
      | true => rw [List.takeWhile_cons_of_pos hBlank]; rfl
      | false => rw [List.takeWhile_cons_of_neg (by simp [hBlank])]; rfl

/-- Up to the comment every character gives one space, and then comes the mark. -/
theorem leadFrom_upTo (before : List Char) (c : Char) (comment : List Char) :
    leadFrom (some (column + before.length)) repeated column (before ++ c :: comment) =
      List.replicate before.length ' ' ++ repeated ++
        leadFrom (some (column + before.length)) repeated (column + before.length + 1) comment := by
  induction before generalizing column with
  | nil => simp [leadFrom]
  | cons first before ih =>
      have hNext : column + (first :: before).length = column + 1 + before.length := by
        rw [List.length_cons]
        omega
      have hBefore : column ≤ column + 1 + before.length := by omega
      have hOther : column + 1 + before.length ≠ column := by omega
      rw [hNext, List.cons_append, leadFrom, ih]
      simp [hBefore, hOther, List.replicate_succ]

theorem idxOf?_comment (hBefore : '\'' ∉ before) (comment : List Char) :
    (before ++ '\'' :: comment).idxOf? '\'' = some before.length := by
  rw [List.idxOf?, List.findIdx?_append, List.findIdx?_eq_none_iff.mpr]
  · simp [List.findIdx?_cons]
  · intro c hMem
    rw [beq_eq_false_iff_ne]
    rintro rfl
    exact hBefore hMem

theorem lead_of_clear (hLine : '\'' ∉ line) :
    lead line = List.replicate (line.takeWhile isBlank).length ' ' := by
  rw [lead, List.idxOf?_eq_none_iff.mpr hLine]
  exact leadFrom_behind nofun

theorem lead_of_comment (hBefore : '\'' ∉ before) (comment : List Char) :
    lead (before ++ '\'' :: comment) =
      List.replicate before.length ' ' ++ mark (before ++ '\'' :: comment) ++
        List.replicate (comment.takeWhile isBlank).length ' ' := by
  have hWalk := @leadFrom_upTo (mark (before ++ '\'' :: comment)) 0 before '\'' comment
  rw [Nat.zero_add] at hWalk
  rw [lead, idxOf?_comment hBefore, hWalk, leadFrom_behind]
  rintro place ⟨⟩
  exact Nat.lt_succ_self _

theorem mark_cases (line : List Char) :
    (['\'', '\''] <:+: line ∧ mark line = ['\'', '\'']) ∨
      (¬ ['\'', '\''] <:+: line ∧ mark line = ['\'']) := by
  rw [mark_eq]
  split
  next hDouble => exact .inl ⟨hDouble, rfl⟩
  next hSingle => exact .inr ⟨hSingle, rfl⟩

theorem apostrophe_not_mem_spaces (count : Nat) : '\'' ∉ List.replicate count ' ' := by
  intro hMem
  cases List.eq_of_mem_replicate hMem

/-- The new line has its comment in the same column. -/
theorem lead_eq_comment (hBefore : '\'' ∉ before) (comment : List Char) :
    ∃ later, mark (before ++ '\'' :: comment) = '\'' :: later ∧
      lead (before ++ '\'' :: comment) = List.replicate before.length ' ' ++
        '\'' :: (later ++ List.replicate (comment.takeWhile isBlank).length ' ') := by
  have hLead := lead_of_comment hBefore comment
  rcases mark_cases (before ++ '\'' :: comment) with ⟨-, hMark⟩ | ⟨-, hMark⟩
  · exact ⟨['\''], hMark, by rw [hLead, hMark, List.append_assoc]; rfl⟩
  · exact ⟨[], hMark, by rw [hLead, hMark, List.append_assoc]; rfl⟩

/-- The new line stands for the same kind of comment. -/
theorem mark_lead (hLine : '\'' ∈ line) : mark (lead line) = mark line := by
  obtain ⟨before, comment, rfl, hBefore⟩ := List.eq_append_cons_of_mem hLine
  have hLead := lead_of_comment hBefore comment
  rcases mark_cases (before ++ '\'' :: comment) with ⟨-, hMark⟩ | ⟨-, hMark⟩
  · have hDouble : ['\'', '\''] <:+: lead (before ++ '\'' :: comment) := by
      rw [hLead, hMark]
      exact List.infix_append _ _ _
    rw [mark_eq, if_pos hDouble, hMark]
  · have hSingle : ¬ ['\'', '\''] <:+: lead (before ++ '\'' :: comment) := by
      intro hDouble
      have hTwo := hDouble.count_le '\''
      rw [hLead, hMark] at hTwo
      simp [List.count_replicate] at hTwo
    rw [mark_eq, if_neg hSingle, hMark]

theorem idxOf?_lead (line : List Char) : (lead line).idxOf? '\'' = line.idxOf? '\'' := by
  by_cases hLine : '\'' ∈ line
  · obtain ⟨before, comment, rfl, hBefore⟩ := List.eq_append_cons_of_mem hLine
    obtain ⟨later, -, hLead⟩ := lead_eq_comment hBefore comment
    rw [hLead, idxOf?_comment (apostrophe_not_mem_spaces _), idxOf?_comment hBefore,
      List.length_replicate]
  · rw [lead_of_clear hLine, List.idxOf?_eq_none_iff.mpr (apostrophe_not_mem_spaces _),
      List.idxOf?_eq_none_iff.mpr hLine]

/-- No character of the code is copied. -/
theorem lead_subset (line : List Char) : lead line ⊆ [' ', '\''] := by
  have hSpaces (count : Nat) : List.replicate count ' ' ⊆ [' ', '\''] := by
    intro c hMem
    rw [List.eq_of_mem_replicate hMem]
    exact List.mem_cons_self
  by_cases hLine : '\'' ∈ line
  · obtain ⟨before, comment, rfl, hBefore⟩ := List.eq_append_cons_of_mem hLine
    have hMark : mark (before ++ '\'' :: comment) ⊆ [' ', '\''] := by
      rcases mark_cases (before ++ '\'' :: comment) with ⟨-, hMark⟩ | ⟨-, hMark⟩
      all_goals simp [hMark]
    rw [lead_of_comment hBefore]
    exact List.append_subset.mpr ⟨List.append_subset.mpr ⟨hSpaces _, hMark⟩, hSpaces _⟩
  · rw [lead_of_clear hLine]
    exact hSpaces _

/-- What continues a line stands in the columns of that line: white space for the code, the mark
where the comment begins, and white space for the white space behind that. -/
theorem lead_keeps_columns (line : List Char) :
    ('\'' ∉ line → lead line = List.replicate (line.takeWhile isBlank).length ' ') ∧
    (∀ before comment, line = before ++ '\'' :: comment → '\'' ∉ before →
      lead line = List.replicate before.length ' ' ++
        (if ['\'', '\''] <:+: line then ['\'', '\''] else ['\'']) ++
          List.replicate (comment.takeWhile isBlank).length ' ') ∧
    (lead line).idxOf? '\'' = line.idxOf? '\'' ∧ lead line ⊆ [' ', '\''] := by
  refine ⟨lead_of_clear, ?_, idxOf?_lead line, lead_subset line⟩
  rintro before comment rfl hBefore
  rw [lead_of_comment hBefore, mark_eq]

/-- A comment of one mark behind wide characters, with a double mark in it, and a line of white
space without any. -/
theorem lead_keeps_columns_around_text :
    let line := "\té\u3000:= 1 '\t\u00a0it''s".toList
    let blank := "\t\u2003 ".toList
    line = "\té\u3000:= 1 ".toList ++ '\'' :: "\t\u00a0it''s".toList ∧
      '\'' ∉ "\té\u3000:= 1 ".toList ∧ lead line = "        ''  ".toList ∧
      '\'' ∉ blank ∧ lead blank = "   ".toList := by
  intro line blank
  have hLine : line = "\té\u3000:= 1 ".toList ++ '\'' :: "\t\u00a0it''s".toList := by decide
  have hBefore : '\'' ∉ "\té\u3000:= 1 ".toList := by decide
  have hBlank : '\'' ∉ blank := by decide
  obtain ⟨-, hLead, -⟩ := lead_keeps_columns line
  obtain ⟨hClear, -⟩ := lead_keeps_columns blank
  refine ⟨hLine, hBefore, ?_, hBlank, ?_⟩
  · rw [hLead _ _ hLine hBefore]
    decide
  · rw [hClear hBlank]
    decide

/-- The comment of the line begins with a single mark and white space, and a double mark stands
somewhere in the line. -/
def MarkedLate (line : List Char) : Prop :=
  ∃ before blank rest, line = before ++ '\'' :: blank :: rest ∧ '\'' ∉ before ∧
    isBlank blank = true ∧ ['\'', '\''] <:+: line

theorem MarkedLate.mem (h : MarkedLate line) : '\'' ∈ line := by
  obtain ⟨before, blank, rest, rfl, -⟩ := h
  exact List.mem_append_right _ List.mem_cons_self

theorem markedLate_iff (hBefore : '\'' ∉ before) :
    MarkedLate (before ++ '\'' :: comment) ↔
      comment.takeWhile isBlank ≠ [] ∧ ['\'', '\''] <:+: before ++ '\'' :: comment := by
  constructor
  · rintro ⟨other, blank, rest, hLine, hOther, hBlank, hDouble⟩
    have hPlace := idxOf?_comment hBefore comment
    rw [hLine, idxOf?_comment hOther, Option.some.injEq] at hPlace
    obtain ⟨-, hComment⟩ := List.append_inj hLine hPlace.symm
    obtain rfl : comment = blank :: rest := List.tail_eq_of_cons_eq hComment
    refine ⟨?_, hDouble⟩
    rw [List.takeWhile_cons_of_pos hBlank]
    exact List.cons_ne_nil _ _
  · rintro ⟨hSome, hDouble⟩
    cases comment with
    | nil => exact absurd rfl hSome
    | cons blank rest =>
        cases hBlank : isBlank blank with
        | true => exact ⟨before, blank, rest, rfl, hBefore, hBlank, hDouble⟩
        | false =>
            rw [List.takeWhile_cons_of_neg (by simp [hBlank])] at hSome
            exact absurd rfl hSome

/-- The white space that continues white space is as long as that. -/
theorem takeWhile_spaces (count : Nat) :
    (List.replicate count ' ').takeWhile isBlank = List.replicate count ' ' := by
  rw [List.takeWhile_replicate, if_pos (by decide)]

/-- The line that continues a comment is continued by what it starts with, its mark included. White
space behind a double mark is not kept, as the walk ends at the second half of the mark. -/
theorem lead_lead_of_comment (hBefore : '\'' ∉ before) (comment : List Char) :
    lead (lead (before ++ '\'' :: comment)) =
      List.replicate before.length ' ' ++ mark (before ++ '\'' :: comment) ++
        if ['\'', '\''] <:+: before ++ '\'' :: comment then []
        else List.replicate (comment.takeWhile isBlank).length ' ' := by
  have hMark : mark (lead (before ++ '\'' :: comment)) = mark (before ++ '\'' :: comment) :=
    mark_lead (List.mem_append_right _ List.mem_cons_self)
  obtain ⟨later, hLater, hLead⟩ := lead_eq_comment hBefore comment
  rw [hLead] at hMark ⊢
  rw [lead_of_comment (apostrophe_not_mem_spaces _), hMark, List.length_replicate]
  rcases mark_cases (before ++ '\'' :: comment) with ⟨hDouble, hBoth⟩ | ⟨hSingle, hOne⟩
  · obtain rfl : later = ['\''] := List.tail_eq_of_cons_eq (hLater.symm.trans hBoth)
    rw [if_pos hDouble]
    rfl
  · obtain rfl : later = [] := List.tail_eq_of_cons_eq (hLater.symm.trans hOne)
    rw [if_neg hSingle, List.nil_append, takeWhile_spaces, List.length_replicate]

/-- A continued line is continued by what it starts with, except where its mark was taken from
further on than where the comment begins. -/
theorem lead_lead_iff (line : List Char) :
    lead (lead line) = lead line ↔ ¬ MarkedLate line := by
  by_cases hLine : '\'' ∈ line
  · obtain ⟨before, comment, rfl, hBefore⟩ := List.eq_append_cons_of_mem hLine
    rw [lead_lead_of_comment hBefore, lead_of_comment hBefore, List.append_cancel_left_eq,
      markedLate_iff hBefore, not_and_or, Classical.not_not]
    split
    next hDouble =>
      rw [eq_comm, List.replicate_eq_nil_iff, List.length_eq_zero_iff]
      exact (or_iff_left (not_not_intro hDouble)).symm
    next hSingle => exact iff_of_true rfl (.inr hSingle)
  · have hStill : lead (lead line) = lead line := by
      rw [lead_of_clear hLine, lead_of_clear (apostrophe_not_mem_spaces _), takeWhile_spaces,
        List.length_replicate]
    exact iff_of_true hStill (mt MarkedLate.mem hLine)

/-- What continues a line begins its comment with the mark that it repeats. -/
theorem not_markedLate_lead (line : List Char) : ¬ MarkedLate (lead line) := by
  by_cases hLine : '\'' ∈ line
  · obtain ⟨before, comment, rfl, hBefore⟩ := List.eq_append_cons_of_mem hLine
    have hMark := mark_lead hLine
    obtain ⟨later, hLater, hLead⟩ := lead_eq_comment hBefore comment
    rw [hLead] at hMark ⊢
    rw [markedLate_iff (apostrophe_not_mem_spaces _)]
    rintro ⟨hBlank, hDouble⟩
    rw [mark_eq, if_pos hDouble, hLater] at hMark
    obtain rfl : ['\''] = later := List.tail_eq_of_cons_eq hMark
    exact hBlank rfl
  · rw [lead_of_clear hLine]
    exact fun hLate => apostrophe_not_mem_spaces _ hLate.mem

/-- An ordinary comment that mentions the double mark is continued as a comment of documentation,
with the white space behind its own mark. That line is continued without the white space. -/
theorem lead_loses_gap :
    lead "' a ''".toList = "'' ".toList ∧ lead "'' ".toList = "''".toList ∧
      ¬ ∀ line, lead (lead line) = lead line := by
  have hFirst : lead "' a ''".toList = "'' ".toList := by decide
  have hSecond : lead "'' ".toList = "''".toList := by decide
  refine ⟨hFirst, hSecond, fun hAll => ?_⟩
  have hStill := hAll "' a ''".toList
  rw [hFirst, hSecond] at hStill
  exact absurd hStill (by decide)

end EditAssist.Continuation
