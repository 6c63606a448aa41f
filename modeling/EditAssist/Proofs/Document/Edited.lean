import EditAssist.Proofs.Document.Reversal

/-! What single edits do at places within the text: they succeed, keep the selection within the
text, and can be undone. What is typed stands in the place of the selection and nothing else
moves. -/
namespace EditAssist.Document

variable {document before middle after : Document} {range : Range} {text : List Char}

/-- A piece of the text gave way to `text`. The caret is behind it, unless nothing gave way to
nothing. -/
structure Replaced (range : Range) (text : List Char) (before after : Document) : Prop where
  text_eq : after.text = before.text.take range.low ++ text ++ before.text.drop range.high
  undoable : Undoable 1 before after
  still : range.low = range.high → text = [] → after = before
  changes : range.low < range.high ∨ text ≠ [] → after ≠ before
  caret : range.low < range.high ∨ text ≠ [] →
    after.selection = .caret (range.low + text.length)

theorem changed_ne (range : Range) (text : List Char) (document : Document) :
    document.changed range text ≠ document := by
  intro hEq
  cases hPending : document.pending with
  | none =>
      have hHistory := congrArg history hEq
      rw [changed_history, hPending] at hHistory
      exact List.cons_ne_self _ _ hHistory
  | some group =>
      have hGroup := congrArg pending hEq
      rw [changed_pending, hPending, Option.map_some, Option.some.injEq] at hGroup
      exact List.cons_ne_self _ _ (congrArg (·.group.changes) hGroup)

theorem exists_replaced (range : Range) (text : List Char)
    (hStart : range.start ≤ document.length) (hStop : range.stop ≤ document.length) :
    ∃ edited, document.replace range text = .ok edited ∧ Replaced range text document edited := by
  have hHigh : range.high ≤ document.length := Nat.max_le.mpr ⟨hStart, hStop⟩
  rw [replace_of_le text hStart hStop]
  by_cases hStill : range.low = range.high ∧ text = []
  · have hNot : ¬ (range.low < range.high ∨ text ≠ []) := by
      rw [hStill.1, hStill.2]
      simp
    refine ⟨document, if_pos hStill, ?_, .refl 1 document, fun _ _ => rfl,
      fun h => absurd h hNot, fun h => absurd h hNot⟩
    rw [hStill.1, hStill.2, List.append_nil, List.take_append_drop]
  · refine ⟨document.changed range text, if_neg hStill, changed_text range text document,
      undoable_changed text hHigh, ?_, fun _ => changed_ne range text document,
      fun _ => changed_selection range text document⟩
    intro hEmpty hNil
    exact absurd ⟨hEmpty, hNil⟩ hStill

/-- A replacement that succeeds was made within the text. -/
theorem replaced_of_ok (hReplace : before.replace range text = .ok after) :
    Replaced range text before after := by
  have hBounds := Nat.max_le.mp (replace_cases hReplace).1
  obtain ⟨edited, hEdited, hReplaced⟩ := exists_replaced range text hBounds.1 hBounds.2
  rw [hReplace] at hEdited
  cases hEdited
  exact hReplaced

theorem Replaced.length_eq (h : Replaced range text before after)
    (hHigh : range.high ≤ before.length) :
    after.length = range.low + text.length + (before.length - range.high) := by
  have hLow := Nat.le_trans range.low_le_high hHigh
  rw [length, h.text_eq, List.length_append, List.length_append, List.length_drop,
    List.length_take_of_le hLow]
  rfl

theorem Replaced.inBounds (h : Replaced range text before after)
    (hHigh : range.high ≤ before.length) (hBefore : before.InBounds) : after.InBounds := by
  by_cases hChanges : range.low < range.high ∨ text ≠ []
  · rw [InBounds, h.caret hChanges, h.length_eq hHigh]
    exact Selection.within_caret (Nat.le_add_right _ _)
  · rw [not_or, Nat.not_lt, Decidable.not_not] at hChanges
    rw [h.still (Nat.le_antisymm range.low_le_high hChanges.1) hChanges.2]
    exact hBefore

/-- `after` came from `before` by edits that at most `limit` undos take back, and its selection
lies within its text. -/
structure Edited (limit : Nat) (before after : Document) : Prop where
  inBounds : after.InBounds
  undoable : Undoable limit before after

namespace Edited

theorem refl (limit : Nat) (hBounds : document.InBounds) : Edited limit document document :=
  ⟨hBounds, .refl limit document⟩

theorem mono {limit larger : Nat} (h : Edited limit before after) (hLe : limit ≤ larger) :
    Edited larger before after :=
  ⟨h.inBounds, h.undoable.mono hLe⟩

theorem trans {first second : Nat} (hFirst : Edited first before middle)
    (hSecond : Edited second middle after) : Edited (first + second) before after :=
  ⟨hSecond.inBounds, hFirst.undoable.trans hSecond.undoable⟩

end Edited

theorem Replaced.edited (h : Replaced range text before after)
    (hHigh : range.high ≤ before.length) (hBefore : before.InBounds) : Edited 1 before after :=
  ⟨h.inBounds hHigh hBefore, h.undoable⟩

/-- What stands in front of the caret can be replaced. -/
theorem exists_edited_before_caret {start : Nat} (text : List Char)
    (hBounds : document.InBounds) (hStart : start ≤ document.caret) :
    ∃ edited, document.replace ⟨start, document.caret⟩ text = .ok edited ∧
      Edited 1 document edited := by
  have hWithin : start ≤ document.length := Nat.le_trans hStart hBounds.head
  obtain ⟨edited, hReplace, hReplaced⟩ :=
    exists_replaced ⟨start, document.caret⟩ text hWithin hBounds.head
  exact ⟨edited, hReplace, hReplaced.edited (Nat.max_le.mpr ⟨hWithin, hBounds.head⟩) hBounds⟩

/-- What stands in front of the caret, from some place on, gives way to a text. -/
theorem exists_replaced_before_caret {front old behind : List Char}
    (hText : document.text = front ++ old ++ behind)
    (hCaret : (front ++ old).length = document.caret) (hSome : text ≠ []) :
    ∃ edited, document.replace ⟨front.length, document.caret⟩ text = .ok edited ∧
      edited.text = front ++ text ++ behind ∧
      edited.selection = .caret (front ++ text).length ∧
      Undoable 1 document edited ∧ edited ≠ document := by
  have hStart : front.length ≤ document.caret := by
    rw [← hCaret, List.length_append]
    exact Nat.le_add_right _ _
  have hStop : document.caret ≤ document.length := by
    rw [length, hText, List.length_append, hCaret]
    exact Nat.le_add_right _ _
  obtain ⟨edited, hReplace, hReplaced⟩ :=
    exists_replaced ⟨front.length, document.caret⟩ text (Nat.le_trans hStart hStop) hStop
  have hLow : (Range.mk front.length document.caret).low = front.length := Nat.min_eq_left hStart
  have hHigh : (Range.mk front.length document.caret).high = document.caret :=
    Nat.max_eq_right hStart
  refine ⟨edited, hReplace, ?_, ?_, hReplaced.undoable, hReplaced.changes (.inr hSome)⟩
  · rw [hReplaced.text_eq, hLow, hHigh, hText, List.drop_left' hCaret, List.append_assoc front old,
      List.take_left]
  · rw [hReplaced.caret (.inr hSome), hLow, List.length_append]

/-- `text` stands in the place of what was selected, and the caret is behind it. -/
structure Typed (text : List Char) (before after : Document) : Prop where
  text_eq : after.text =
    before.text.take before.selection.start ++ text ++ before.text.drop before.selection.stop
  selection_eq : after.selection = .caret (before.selection.start + text.length)

namespace Typed

theorem refl (hEmpty : document.selection.isEmpty = true) : Typed [] document document where
  text_eq := by
    rw [Selection.start_eq_head hEmpty, Selection.stop_eq_head hEmpty, List.append_nil,
      List.take_append_drop]
  selection_eq := by
    rw [Selection.start_eq_head hEmpty]
    exact Selection.eq_caret_head hEmpty

theorem isEmpty_selection (h : Typed text before after) :
    after.selection.isEmpty = true := by
  rw [h.selection_eq]
  exact beq_self_eq_true _

theorem length_left (text : List Char) (hBefore : before.InBounds) :
    (before.text.take before.selection.start ++ text).length =
      before.selection.start + text.length := by
  rw [List.length_append, List.length_take_of_le (Selection.Within.start hBefore)]

theorem inBounds (h : Typed text before after) (hBefore : before.InBounds) :
    after.InBounds := by
  rw [InBounds, h.selection_eq, length, h.text_eq, List.length_append,
    length_left text hBefore]
  exact Selection.within_caret (Nat.le_add_right _ _)

/-- What is typed next goes behind what has been typed. -/
theorem trans {first second : List Char} (hBefore : before.InBounds)
    (hFirst : Typed first before middle) (hSecond : Typed second middle after) :
    Typed (first ++ second) before after where
  text_eq := by
    have hLeft := length_left first hBefore
    rw [hSecond.text_eq, hFirst.selection_eq, Selection.start_caret, Selection.stop_caret,
      hFirst.text_eq, List.take_left' hLeft, List.drop_left' hLeft, List.append_assoc _ first]
  selection_eq := by
    rw [hSecond.selection_eq, hFirst.selection_eq, Selection.start_caret, List.length_append,
      Nat.add_assoc]

end Typed

theorem exists_typed (text : List Char) (hBounds : document.InBounds) :
    ∃ edited, document.insert text = .ok edited ∧ Typed text document edited ∧
      Edited 1 document edited ∧ (text ≠ [] → edited ≠ document) := by
  have hStop : document.selection.range.stop ≤ document.length := Selection.Within.stop hBounds
  have hStart : document.selection.range.start ≤ document.length :=
    Selection.Within.start hBounds
  obtain ⟨edited, hEdit, hReplaced⟩ := exists_replaced document.selection.range text hStart hStop
  have hHigh : document.selection.range.high ≤ document.length := Nat.max_le.mpr ⟨hStart, hStop⟩
  refine ⟨edited, hEdit, ?_, hReplaced.edited hHigh hBounds,
    fun hNe => hReplaced.changes (.inr hNe)⟩
  obtain ⟨hText, -, hStill, -, hCaret⟩ := hReplaced
  rw [Selection.low_range, Selection.high_range] at hText hStill hCaret
  by_cases hChanges : document.selection.start < document.selection.stop ∨ text ≠ []
  · exact ⟨hText, hCaret hChanges⟩
  · rw [not_or, Nat.not_lt, Decidable.not_not] at hChanges
    obtain ⟨hEnds, rfl⟩ := hChanges
    rw [hStill (Nat.le_antisymm document.selection.start_le_stop hEnds) rfl]
    apply Typed.refl
    cases hEmpty : document.selection.isEmpty with
    | true => rfl
    | false => exact absurd (Selection.start_lt_stop hEmpty) (Nat.not_lt_of_ge hEnds)

/-- The undos that deleting the selection takes: one, unless nothing is selected. -/
def deletions (document : Document) : Nat :=
  if document.hasSelection then 1 else 0

theorem deletions_le_one (document : Document) : document.deletions ≤ 1 := by
  rw [deletions]
  split <;> decide

theorem Typed.deletions_eq_zero (h : Typed text before after) : after.deletions = 0 := by
  rw [deletions, hasSelection, h.isEmpty_selection]
  rfl

theorem exists_deleted (hBounds : document.InBounds) :
    ∃ edited, document.deleteSelection = .ok edited ∧ Typed [] document edited ∧
      Edited document.deletions document edited := by
  rw [deletions, hasSelection]
  cases hEmpty : document.selection.isEmpty with
  | true =>
      refine ⟨document, ?_, .refl hEmpty, .refl _ hBounds⟩
      rw [deleteSelection, if_pos hEmpty]
  | false =>
      obtain ⟨edited, hInsert, hTyped, hEdited, -⟩ := exists_typed [] hBounds
      refine ⟨edited, ?_, hTyped, hEdited⟩
      rw [deleteSelection, if_neg (by simp [hEmpty])]
      exact hInsert

/-- An edit outside of groups that changed something is exactly one undo. -/
theorem Undoable.undoneBy_of_ne (h : Undoable 1 before after) (hClosed : before.pending = none)
    (hChanged : after ≠ before) : UndoneBy 1 before after := by
  obtain ⟨count, hCount, hUndone⟩ := h.undone hClosed
  cases count with
  | zero => exact absurd (Except.ok.inj hUndone.back) hChanged
  | succ count =>
      obtain rfl : count = 0 := Nat.le_zero.mp (Nat.le_of_succ_le_succ hCount)
      exact hUndone

/-- What deleting the selection comes to where it succeeds: nothing if nothing is selected, and
otherwise one undo. -/
theorem deleted_of_ok (hClosed : before.pending = none)
    (hDelete : before.deleteSelection = .ok after) :
    (before.hasSelection = false → after = before) ∧
      (before.hasSelection = true → Typed [] before after ∧ UndoneBy 1 before after) := by
  rw [deleteSelection] at hDelete
  rw [hasSelection]
  split at hDelete
  next hEmpty =>
    cases hDelete
    exact ⟨fun _ => rfl, fun hSome => by simp [hEmpty] at hSome⟩
  next hSome =>
    rw [Bool.not_eq_true] at hSome
    obtain ⟨hText, hUndoable, -, hNe, hCaret⟩ := replaced_of_ok hDelete
    rw [Selection.low_range, Selection.high_range] at hText hNe hCaret
    have hChanges := Selection.start_lt_stop hSome
    refine ⟨fun hNone => by simp [hSome] at hNone, fun _ => ⟨⟨hText, ?_⟩, ?_⟩⟩
    · exact hCaret (.inl hChanges)
    · exact hUndoable.undoneBy_of_ne hClosed (hNe (.inl hChanges))

/-- Inside a group the selection is free to move once something has changed. -/
theorem Undoable.select {limit : Nat} (h : Undoable limit before after)
    (hOpen : before.pending ≠ none) (hChanged : after ≠ before) (selection : Selection) :
    Undoable limit before { after with selection := selection } where
  undone := fun hClosed => absurd hClosed hOpen
  logged := by
    intro _
    obtain ⟨changes, hLogged⟩ := h.logged hOpen
    exact ⟨changes, hLogged.select (fun hNil => hChanged (hLogged.still hNil)) selection⟩

theorem closeGroup_outermost {group : ChangeGroup}
    (hPending : document.pending = some ⟨group, 0⟩) :
    document.closeGroup = .ok { document with
      pending := none
      history := if group.changes.isEmpty then document.history
        else group :: document.history } := by
  rw [closeGroup, hPending]

theorem closeGroup_nested {group : ChangeGroup} {nested : Nat}
    (hPending : document.pending = some ⟨group, nested + 1⟩) :
    document.closeGroup = .ok { document with pending := some ⟨group, nested⟩ } := by
  rw [closeGroup, hPending]

theorem openGroup_pending_ne (document : Document) : document.openGroup.pending ≠ none := by
  simp [openGroup]

/-- Changes that went into the open group show in it. -/
theorem Logged.ne {changes : List Change} (h : Logged changes before after)
    (hOpen : before.pending ≠ none) (hSome : changes ≠ []) : after ≠ before := by
  rintro rfl
  obtain ⟨group, hGroup⟩ := Option.ne_none_iff_exists'.mp hOpen
  have hSame := h.pending
  rw [hGroup, Option.map_some, Option.some.injEq] at hSame
  exact hSome (List.self_eq_append_left.mp (congrArg (·.group.changes) hSame))

/-- What has changed in an open group stays changed: edits only add to the group. -/
theorem Undoable.ne_trans {first second : Nat} (hFirst : Undoable first before middle)
    (hSecond : Undoable second middle after) (hOpen : before.pending ≠ none)
    (hChanged : middle ≠ before) : after ≠ before := by
  obtain ⟨older, hOlder⟩ := hFirst.logged hOpen
  obtain ⟨newer, hNewer⟩ := hSecond.logged (mt hFirst.pending_eq_none_iff.mp hOpen)
  have hSome : older ≠ [] := fun hNil => hChanged (hOlder.still hNil)
  exact (hOlder.trans hNewer).ne hOpen (List.append_ne_nil_of_right_ne_nil _ hSome)

/-- A group within an open one hands its changes on to that one when it is closed. -/
theorem Logged.closeGroup_inner {changes : List Change} (h : Logged changes document.openGroup after)
    (hOpen : document.pending ≠ none) :
    ∃ closed, after.closeGroup = .ok closed ∧ closed.text = after.text ∧
      closed.selection = after.selection ∧ Logged changes document closed := by
  obtain ⟨hHistory, hPending, hRevert, hStill⟩ := h
  obtain ⟨group, hBefore⟩ := Option.ne_none_iff_exists'.mp hOpen
  simp only [openGroup, hBefore, Option.map_some] at hPending
  refine ⟨_, closeGroup_nested hPending, rfl, rfl, hHistory, by rw [hBefore, Option.map_some],
    hRevert, ?_⟩
  intro hNil
  rw [hStill hNil, hNil]
  simp only [openGroup, List.nil_append, ← hBefore]

/-- The changes of an outermost group go into the history as one when it is closed. Without any the
group leaves no trace there. -/
theorem Logged.closeGroup_outer {changes : List Change} (h : Logged changes document.openGroup after)
    (hClosed : document.pending = none) :
    after.closeGroup = .ok { after with
      pending := none
      history := if changes.isEmpty then document.history
        else ⟨changes, document.selection⟩ :: document.history } := by
  have hPending := h.pending
  have hHistory : after.history = document.history := h.history
  simp only [openGroup, hClosed, Option.map_some, List.append_nil] at hPending
  rw [closeGroup_outermost hPending, hHistory]

/-- What was done in a group is one undo once the group is closed, and nothing if and only if
nothing was done. -/
theorem closeGroup_of_undoable {limit : Nat} (h : Undoable limit document.openGroup after) :
    ∃ closed, after.closeGroup = .ok closed ∧ closed.text = after.text ∧
      closed.selection = after.selection ∧ Undoable 1 document closed ∧
      (after ≠ document.openGroup → closed ≠ document) := by
  obtain ⟨changes, hLogged⟩ := h.logged (openGroup_pending_ne document)
  have hSome (hChanged : after ≠ document.openGroup) : changes ≠ [] :=
    fun hNil => hChanged (hLogged.still hNil)
  by_cases hClosed : document.pending = none
  · refine ⟨_, hLogged.closeGroup_outer hClosed, rfl, rfl,
      ⟨fun _ => ?_, fun hOpen => absurd hClosed hOpen⟩, fun hChanged hSame => ?_⟩
    · cases changes with
      | nil =>
          have hSame : { document.openGroup with
              pending := none, history := document.history } = document := by
            simp only [openGroup, ← hClosed]
          refine ⟨0, Nat.zero_le 1, ?_⟩
          rw [hLogged.still rfl]
          exact hSame ▸ UndoneBy.refl _
      | cons change older =>
          exact ⟨1, Nat.le_refl 1, undoneBy_one rfl hClosed.symm hLogged.revert⟩
    · have hLonger := congrArg history hSame
      rw [if_neg (mt List.isEmpty_iff.mp (hSome hChanged))] at hLonger
      exact List.cons_ne_self _ _ hLonger
  · obtain ⟨closed, hClose, hText, hSelection, hInner⟩ := hLogged.closeGroup_inner hClosed
    exact ⟨closed, hClose, hText, hSelection,
      ⟨fun hNone => absurd hNone hClosed, fun _ => ⟨changes, hInner⟩⟩,
      fun hChanged => hInner.ne hClosed (hSome hChanged)⟩

end EditAssist.Document
