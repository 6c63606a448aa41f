import Mathlib.Order.Bounds.Basic
import EditAssist.Proofs.Assist.Accepting

/-! Where a hint is inserted and what its key adds behind it. The hint stands in the place of the
word before the caret, and the column that Tab pads from is counted in the text with the hint. -/
namespace EditAssist

open Text

/-- A line goes on over what does not break it. -/
theorem Text.Lead.append {front above lead more : List Char} (h : Lead front above lead)
    (hMore : '\n' ∉ more) : Lead (front ++ more) above (lead ++ more) where
  text_eq := by rw [h.text_eq, List.append_assoc]
  above_end := h.above_end
  clear := by
    rw [List.mem_append, not_or]
    exact ⟨h.clear, hMore⟩

theorem Shift.not_mem_spaces {c : Char} (hc : c ≠ ' ') (count : Nat) : c ∉ spaces count :=
  fun hMem => hc (List.eq_of_mem_replicate hMem)

/-- The padding up to the next multiple, and none at a multiple. -/
theorem isLeast_pad {width : Nat} (hWidth : 0 < width) (column : Nat) :
    IsLeast {pad | width ∣ column + pad} ((width - column % width) % width) := by
  have hRest := Nat.mod_lt column hWidth
  have hShift (pad : Nat) : width ∣ column + pad ↔ width ∣ column % width + pad := by
    rw [Nat.dvd_iff_mod_eq_zero, Nat.dvd_iff_mod_eq_zero, Nat.mod_add_mod]
  rcases Nat.eq_zero_or_pos (column % width) with hZero | hPositive
  · rw [hZero, Nat.sub_zero, Nat.mod_self]
    refine ⟨?_, fun pad _ => Nat.zero_le pad⟩
    change width ∣ column + 0
    rw [hShift, hZero]
    exact Nat.dvd_zero width
  · rw [Nat.mod_eq_of_lt (Nat.sub_lt hWidth hPositive)]
    constructor
    · change width ∣ column + (width - column % width)
      refine (hShift _).mpr ⟨1, ?_⟩
      rw [Nat.add_sub_cancel' (Nat.le_of_lt hRest), Nat.mul_one]
    · intro pad hPad
      have hLe := Nat.le_of_dvd (Nat.add_pos_left hPositive pad) ((hShift pad).mp hPad)
      omega

/-- A caret between `left` and `right` stands at a tab stop, where a space or tab behind it counts
as one column. -/
def AtTabStop (tabWidth : Nat) (left right : List Char) : Prop :=
  ∃ place,
    Document.position { text := left ++ right, selection := .caret left.length } = .ok place ∧
    tabWidth ∣
      if right.head? = some ' ' ∨ right.head? = some '\t' then place.column + 1 else place.column

/-- `tail` is what a key adds between `left` and `right`. -/
inductive AcceptKey.Adds (tabWidth : Nat) (left right : List Char) : AcceptKey → List Char → Prop
  | backTab : Adds tabWidth left right .backTab []
  | lineEnd (ends : ∀ c, right.head? = some c → c = '\n' ∨ c = '\r') :
      Adds tabWidth left right .enter ['\n']
  | midLine {c : Char} (next : right.head? = some c) (goesOn : c ≠ '\n' ∧ c ≠ '\r') :
      Adds tabWidth left right .enter []
  | tab {pad : Nat}
      (least : IsLeast {count | AtTabStop tabWidth (left ++ Shift.spaces count) right} pad) :
      Adds tabWidth left right .tab (Shift.spaces pad)

/-- The column that Tab pads from. -/
theorem atTabStop_spaces_iff {left above lead : List Char} (h : Lead left above lead)
    (tabWidth count : Nat) (right : List Char) :
    AtTabStop tabWidth (left ++ Shift.spaces count) right ↔
      tabWidth ∣ (if right.head? = some ' ' ∨ right.head? = some '\t' then lead.length + 1
        else lead.length) + count := by
  have hLead := h.append (Shift.not_mem_spaces (by decide) count)
  have hPlace : Document.position
      { text := left ++ Shift.spaces count ++ right
        selection := .caret (left ++ Shift.spaces count).length } =
      .ok ⟨above.count '\n', (lead ++ Shift.spaces count).length⟩ :=
    Document.positionAt_lead hLead rfl
  have hLength : (lead ++ Shift.spaces count).length = lead.length + count := by
    rw [List.length_append, Shift.length_spaces]
  rw [AtTabStop, hPlace, hLength]
  simp only [Except.ok.injEq, exists_eq_left']
  split
  · rw [Nat.add_right_comm]
  · rfl

/-- Text goes in between what stands on either side of the caret. -/
theorem Document.exists_inserted {document : Document} {left right : List Char}
    (hText : document.text = left ++ right) (hSelection : document.selection = .caret left.length)
    (text : List Char) :
    ∃ edited, document.insert text = .ok edited ∧ edited.text = left ++ text ++ right ∧
      edited.selection = .caret (left ++ text).length ∧ Undoable 1 document edited := by
  have hBounds : document.InBounds := by
    rw [InBounds, length, hText, hSelection, List.length_append]
    exact Selection.within_caret (Nat.le_add_right _ _)
  obtain ⟨edited, hInsert, ⟨hWritten, hCaret⟩, hEdited, -⟩ := exists_typed text hBounds
  refine ⟨edited, hInsert, ?_, ?_, hEdited.undoable⟩
  · rw [hWritten, hText, hSelection, Selection.start_caret, Selection.stop_caret, List.take_left,
      List.drop_left]
  · rw [hCaret, hSelection, Selection.start_caret, List.length_append]

namespace Editing

variable {document : Document} {left right : List Char}

/-- What a key adds goes in front of the caret, and nothing else moves. -/
theorem afterHint_adds (hText : document.text = left ++ right)
    (hSelection : document.selection = .caret left.length) {tabWidth : Nat} (hWidth : 0 < tabWidth)
    (key : AcceptKey) :
    Yields (afterHint key tabWidth) document fun _ after =>
      ∃ tail, key.Adds tabWidth left right tail ∧ after.text = left ++ tail ++ right ∧
        after.selection = .caret (left ++ tail).length ∧ Document.Undoable 1 document after := by
  have hStill : document.text = left ++ [] ++ right ∧
      document.selection = .caret (left ++ []).length ∧ Document.Undoable 1 document document := by
    rw [List.append_nil]
    exact ⟨hText, hSelection, .refl 1 document⟩
  have hInsert (text : List Char) (hAdds : key.Adds tabWidth left right text) :
      Yields (act (·.insert text)) document fun _ after =>
        ∃ tail, key.Adds tabWidth left right tail ∧ after.text = left ++ tail ++ right ∧
          after.selection = .caret (left ++ tail).length ∧ Document.Undoable 1 document after := by
    obtain ⟨edited, hEdit, hEdited⟩ := Document.exists_inserted hText hSelection text
    exact yields_act hEdit ⟨text, hAdds, hEdited⟩
  have hNext : document.charAt? document.caret = right.head? := by
    rw [Document.charAt?, Document.caret, hText, hSelection, Selection.caret,
      List.getElem?_append_right (Nat.le_refl _), Nat.sub_self, List.head?_eq_getElem?]
  simp only [afterHint, yields_bind, yields_current]
  cases key with
  | backTab => exact yields_pure.mpr ⟨[], .backTab, hStill⟩
  | enter =>
      dsimp only
      rw [Document.isLineEnd, hNext]
      cases hHead : right.head? with
      | none =>
          refine hInsert _ (.lineEnd fun c hc => ?_)
          rw [hHead] at hc
          cases hc
      | some c =>
          dsimp only
          split
          next hEnds =>
            refine hInsert _ (.lineEnd fun other hOther => ?_)
            rw [hHead, Option.some.injEq] at hOther
            simpa [← hOther] using hEnds
          next hGoesOn =>
            exact yields_pure.mpr ⟨[], .midLine hHead (by simpa using hGoesOn), hStill⟩
  | tab =>
      obtain ⟨above, lead, hLead⟩ := exists_lead left
      have hPlace : document.position = .ok ⟨above.count '\n', lead.length⟩ := by
        rw [Document.position, Document.caret, hSelection]
        exact Document.positionAt_lead hLead hText
      have hLeast := isLeast_pad hWidth
        (if right.head? = some ' ' ∨ right.head? = some '\t' then lead.length + 1
          else lead.length)
      simp only [← atTabStop_spaces_iff hLead] at hLeast
      have hPad {pad : Nat}
          (hLeast : IsLeast {count | AtTabStop tabWidth (left ++ Shift.spaces count) right} pad) :
          Yields (if 0 < pad then act (·.insert (Shift.spaces pad)) else pure ()) document
            fun _ after => ∃ tail, AcceptKey.tab.Adds tabWidth left right tail ∧
              after.text = left ++ tail ++ right ∧
              after.selection = .caret (left ++ tail).length ∧
              Document.Undoable 1 document after := by
        split
        · exact hInsert _ (.tab hLeast)
        next hNone =>
          have hAdds := AcceptKey.Adds.tab hLeast
          rw [Nat.eq_zero_of_not_pos hNone] at hAdds
          exact yields_pure.mpr ⟨[], hAdds, hStill⟩
      simp only [yields_bind]
      refine yields_ask hPlace (yields_ask (Shift.padding_eq hWidth _) ?_)
      simp only [hNext, Bool.or_eq_true, beq_iff_eq]
      exact hPad hLeast

/-- A hint that may be inserted stands in the place of the word before the caret, and its key adds
to it. All of it is one undo. -/
theorem acceptHint_replaces_word {hints : Hints} {entry : List Char} {tabWidth : Nat}
    (hCaret : document.caret ≤ document.length) (hEntry : hints.acceptable? = some entry)
    (hSome : entry ≠ []) (hWidth : 0 < tabWidth) (key : AcceptKey) :
    ∃ front word behind tail after,
      WordCut document.text document.caret front word behind ∧
      (acceptHint hints key tabWidth).run document = (.ok true, after) ∧
      key.Adds tabWidth (front ++ entry) behind tail ∧
      after.text = front ++ entry ++ tail ++ behind ∧
      after.selection = .caret (front ++ entry ++ tail).length ∧
      (document.pending = none → Document.UndoneBy 1 document after) := by
  obtain ⟨front, word, behind, hCut⟩ := exists_wordCut hCaret
  obtain ⟨edited, hReplace, hText, hSelection, hReplaced, hChanged⟩ :=
    document.openGroup.exists_replaced_before_caret hCut.text_eq hCut.offset_eq hSome
  have hOpen := Document.openGroup_pending_ne document
  let shown (written : List Char) (selection : Selection) : Prop :=
    ∃ tail, key.Adds tabWidth (front ++ entry) behind tail ∧
      written = front ++ entry ++ tail ++ behind ∧
      selection = .caret (front ++ entry ++ tail).length
  have hGrouped : Yields
      (grouped do act (·.replace ⟨front.length, document.caret⟩ entry); afterHint key tabWidth)
      document fun _ after => Document.Undoable 1 document after ∧ after ≠ document ∧
        shown after.text after.selection := by
    refine yields_grouped_changing 2 ?_
    simp only [yields_bind]
    apply yields_act hReplace
    apply Yields.mono (afterHint_adds hText hSelection hWidth key)
    rintro _ after ⟨tail, hAdds, hWritten, hCaretBehind, hUndoable⟩
    exact ⟨hReplaced.trans hUndoable, hReplaced.ne_trans hUndoable hOpen hChanged, tail, hAdds,
      hWritten, hCaretBehind⟩
  have hYields : Yields (acceptHint hints key tabWidth) document fun done after =>
      done = true ∧ Document.Undoable 1 document after ∧ after ≠ document ∧
        shown after.text after.selection := by
    simp only [acceptHint, hEntry, yields_bind, yields_current, yields_pure, true_and,
      Document.wordStart_eq hCut]
    simpa only [yields_bind] using hGrouped
  obtain ⟨_, after, hRun, rfl, hUndone, hAfter, tail, hAdds, hWritten, hBehind⟩ := hYields
  exact ⟨front, word, behind, tail, after, hCut, hRun, hAdds, hWritten, hBehind,
    fun hClosed => hUndone.undoneBy_of_ne hClosed hAfter⟩

/-- Tab before a tab character: the hint ends one column before a tab stop, and the character
behind the caret takes that column. -/
theorem acceptHint_replaces_word_before_tab :
    let document := Document.ofText "é := pi\tx".toList (.caret 7)
    let hints : Hints := ⟨["pi".toList, "pin".toList], 1, true, ⟨0, 7⟩⟩
    document.caret ≤ document.length ∧ hints.acceptable? = some "pin".toList ∧
      "pin".toList ≠ [] ∧ 0 < 4 ∧
      ∃ front word behind tail after,
        WordCut document.text document.caret front word behind ∧
        (acceptHint hints .tab 4).run document = (.ok true, after) ∧
        AcceptKey.tab.Adds 4 (front ++ "pin".toList) behind tail ∧
        after.text = front ++ "pin".toList ++ tail ++ behind := by
  intro document hints
  have hCaret : document.caret ≤ document.length := by decide
  have hEntry : hints.acceptable? = some "pin".toList := by decide
  have hWidth : 0 < 4 := by decide
  obtain ⟨front, word, behind, tail, after, hCut, hRun, hAdds, hText, -, -⟩ :=
    acceptHint_replaces_word hCaret hEntry (by decide) hWidth .tab
  exact ⟨hCaret, hEntry, by decide, hWidth, front, word, behind, tail, after, hCut, hRun, hAdds,
    hText⟩

end Editing

end EditAssist
