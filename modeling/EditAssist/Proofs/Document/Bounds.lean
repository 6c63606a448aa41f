import EditAssist.Document.Edit

/-! Places within the text. Every question about such a place has an answer, and an edit at such
places succeeds. The equations for `select` and `replace` say besides when they are refused, so
that no later proof opens the two. -/
namespace EditAssist

open Text

/-- Both ends of the selection lie within a text of `length` characters. -/
structure Selection.Within (selection : Selection) (length : Nat) : Prop where
  anchor : selection.anchor ≤ length
  head : selection.head ≤ length

instance (selection : Selection) (length : Nat) : Decidable (selection.Within length) :=
  decidable_of_iff (selection.anchor ≤ length ∧ selection.head ≤ length)
    ⟨fun h => ⟨h.1, h.2⟩, fun h => ⟨h.anchor, h.head⟩⟩

namespace Selection

theorem Within.start {selection : Selection} {length : Nat} (h : selection.Within length) :
    selection.start ≤ length :=
  Nat.le_trans (Nat.min_le_left _ _) h.anchor

theorem Within.stop {selection : Selection} {length : Nat} (h : selection.Within length) :
    selection.stop ≤ length :=
  Nat.max_le.mpr ⟨h.anchor, h.head⟩

theorem within_caret {offset length : Nat} (h : offset ≤ length) :
    (Selection.caret offset).Within length :=
  ⟨h, h⟩

theorem within_clamp (selection : Selection) (length : Nat) :
    (selection.clamp length).Within length :=
  ⟨Nat.min_le_right _ _, Nat.min_le_right _ _⟩

@[simp] theorem low_range (selection : Selection) : selection.range.low = selection.start :=
  Nat.min_eq_left selection.start_le_stop

@[simp] theorem high_range (selection : Selection) : selection.range.high = selection.stop :=
  Nat.max_eq_right selection.start_le_stop

@[simp] theorem start_caret (offset : Nat) : (caret offset).start = offset :=
  Nat.min_self offset

@[simp] theorem stop_caret (offset : Nat) : (caret offset).stop = offset :=
  Nat.max_self offset

theorem eq_caret_head {selection : Selection} (h : selection.isEmpty = true) :
    selection = .caret selection.head := by
  obtain ⟨anchor, head⟩ := selection
  have hEnds : anchor = head := by simpa [isEmpty] using h
  rw [hEnds]
  rfl

/-- A mere caret starts and ends where its head is. -/
theorem start_eq_head {selection : Selection} (h : selection.isEmpty = true) :
    selection.start = selection.head := by
  rw [eq_caret_head h, start_caret]
  rfl

theorem stop_eq_head {selection : Selection} (h : selection.isEmpty = true) :
    selection.stop = selection.head := by
  rw [eq_caret_head h, stop_caret]
  rfl

/-- Some text lies between two different ends. -/
theorem start_lt_stop {selection : Selection} (h : selection.isEmpty = false) :
    selection.start < selection.stop := by
  have hEnds : selection.anchor ≠ selection.head := by simpa [isEmpty] using h
  simp only [start, stop]
  omega

end Selection

theorem Range.low_le_high (range : Range) : range.low ≤ range.high := by
  simp only [low, high]
  omega

theorem Range.low_eq_start {range : Range} (h : range.start ≤ range.stop) :
    range.low = range.start :=
  Nat.min_eq_left h

theorem Range.high_eq_stop {range : Range} (h : range.start ≤ range.stop) :
    range.high = range.stop :=
  Nat.max_eq_right h

namespace Document

variable {document : Document}

def InBounds (document : Document) : Prop :=
  document.selection.Within document.length

theorem inBounds_ofText (text : List Char) (selection : Selection) :
    (ofText text selection).InBounds :=
  selection.within_clamp text.length

theorem InBounds.openGroup (h : document.InBounds) : document.openGroup.InBounds :=
  h

theorem checkOffset_of_le {offset : Nat} (hOffset : offset ≤ document.length) :
    document.checkOffset offset = .ok () := by
  simp [checkOffset, Nat.not_lt_of_ge hOffset]

theorem checkLine_of_lt {line : Nat} (hLine : line < document.lineCount) :
    document.checkLine line = .ok () := by
  simp [checkLine, Nat.not_le_of_gt hLine]

theorem slice_of_le {range : Range} (hRange : range.start ≤ range.stop)
    (hStop : range.stop ≤ document.length) :
    document.slice range = .ok ((document.text.take range.stop).drop range.start) := by
  rw [slice, checkOffset_of_le hStop]
  simp [Nat.not_lt_of_ge hRange, bind, Except.bind, pure, Except.pure]

/-- The line of an offset, counted by line feeds, exists. -/
theorem count_take_lt_lineCount (offset : Nat) :
    (document.text.take offset).count '\n' < document.lineCount :=
  Nat.lt_succ_of_le ((List.take_sublist _ _).count_le '\n')

theorem lineStart_of_lt {line : Nat} (hLine : line < document.lineCount) :
    document.lineStart line = .ok (skipLines line document.text) := by
  rw [lineStart, checkLine_of_lt hLine]
  rfl

theorem lineText_of_lt {line : Nat} (hLine : line < document.lineCount) :
    document.lineText line =
      .ok (dropTail (· == '\r') ((rows document.text)[line]?.getD [])) := by
  rw [lineText, checkLine_of_lt hLine]
  rfl

/-- The position of an offset: the line by line feeds, the column from the start of that line. -/
theorem positionAt_of_le {offset : Nat} (hOffset : offset ≤ document.length) :
    document.positionAt offset =
      .ok ⟨(document.text.take offset).count '\n',
        offset - skipLines ((document.text.take offset).count '\n') document.text⟩ := by
  rw [positionAt, lineAt, checkOffset_of_le hOffset]
  change (document.lineStart _ >>= _) = _
  rw [lineStart_of_lt (count_take_lt_lineCount offset)]
  rfl

theorem select_eq (selection : Selection) (document : Document) :
    document.select selection =
      if document.length < selection.anchor then
        .error (.offsetOutOfRange selection.anchor document.length)
      else if document.length < selection.head then
        .error (.offsetOutOfRange selection.head document.length)
      else .ok { document with selection := selection } := by
  simp only [select, checkOffset]
  split
  · rfl
  · split <;> rfl

theorem select_of_within {selection : Selection} (h : selection.Within document.length) :
    document.select selection = .ok { document with selection := selection } := by
  rw [select_eq, if_neg (Nat.not_lt_of_ge h.anchor), if_neg (Nat.not_lt_of_ge h.head)]

/-- What is recorded of a replacement. -/
def changeOf (range : Range) (text : List Char) (document : Document) : Change :=
  ⟨range.low, (document.text.take range.high).drop range.low, text.length⟩

/-- The document after a replacement that removes or inserts something. -/
def changed (range : Range) (text : List Char) (document : Document) : Document :=
  { document with
    text := document.text.take range.low ++ text ++ document.text.drop range.high
    selection := .caret (range.low + text.length) }.record
      (document.changeOf range text) document.selection

/-- A replacement of nothing by nothing leaves the document alone, any other one changes it. -/
theorem replace_eq (range : Range) (text : List Char) (document : Document) :
    document.replace range text =
      if document.length < range.stop then
        .error (.offsetOutOfRange range.stop document.length)
      else if document.length < range.start then
        .error (.offsetOutOfRange range.start document.length)
      else if range.low = range.high ∧ text = [] then .ok document
      else .ok (document.changed range text) := by
  simp only [replace, checkOffset]
  by_cases hStop : document.length < range.stop
  · simp only [hStop, ↓reduceIte]
    rfl
  by_cases hStart : document.length < range.start
  · simp only [hStop, hStart, ↓reduceIte]
    rfl
  have hHigh : range.high ≤ document.text.length := by
    simp only [length] at hStop hStart
    simp only [Range.high]
    omega
  have hRemoved : ((document.text.take range.high).drop range.low).isEmpty = true ↔
      range.low = range.high := by
    rw [List.isEmpty_iff_length_eq_zero, List.length_drop, List.length_take_of_le hHigh]
    have := range.low_le_high
    omega
  simp only [hStop, hStart, ↓reduceIte, Bool.and_eq_true, hRemoved, List.isEmpty_iff]
  rfl

/-- A replacement that succeeds lies within the text. Either it did nothing, or the document has
changed. -/
theorem replace_cases {range : Range} {text : List Char} {edited : Document}
    (hReplace : document.replace range text = .ok edited) :
    range.high ≤ document.length ∧
      (edited = document ∨ edited = document.changed range text) := by
  rw [replace_eq] at hReplace
  split at hReplace
  · cases hReplace
  next hStop =>
  split at hReplace
  · cases hReplace
  next hStart =>
  refine ⟨Nat.max_le.mpr ⟨Nat.not_lt.mp hStart, Nat.not_lt.mp hStop⟩, ?_⟩
  split at hReplace
  · exact .inl (Except.ok.inj hReplace).symm
  · exact .inr (Except.ok.inj hReplace).symm

theorem replace_of_le {range : Range} (text : List Char) (hStart : range.start ≤ document.length)
    (hStop : range.stop ≤ document.length) :
    document.replace range text =
      if range.low = range.high ∧ text = [] then .ok document
      else .ok (document.changed range text) := by
  rw [replace_eq, if_neg (Nat.not_lt_of_ge hStop), if_neg (Nat.not_lt_of_ge hStart)]

end Document

end EditAssist
