import EditAssist.Document.Editing
import EditAssist.Proofs.Document.Edited
import EditAssist.Proofs.Text.LineCut

/-! Edits are made as a whole or not at all. A single edit that is refused leaves the document as it
was, and `RefusedFor` says what it may be refused for. A group whose body fails half way keeps what
was done before that, and `BalancedRun.logged` follows the changes through the groups within it: all
of them are recorded in the one group, so that one undo takes them back. -/
namespace EditAssist

open Text

namespace Document

variable {document before middle after : Document}

/-! ### Refusals -/

/-- The edit fails if there is a cause, for one of the causes, and the document stays as it was.
Without a cause it is made. -/
structure RefusedFor (causes : Failure → Prop) (edit : Document → Except Failure Document)
    (document : Document) : Prop where
  refused : (∃ failure, causes failure) →
    ∃ failure, causes failure ∧ (Editing.act edit).run document = (.error failure, document)
  made : (¬ ∃ failure, causes failure) →
    ∃ edited, (Editing.act edit).run document = (.ok (), edited)

/-- One of the offsets lies past the end, and the failure says which. -/
def PastEnd (document : Document) (offsets : List Nat) (failure : Failure) : Prop :=
  ∃ offset ∈ offsets, document.length < offset ∧
    failure = .offsetOutOfRange offset document.length

/-- The document does not have the line, and the failure says so. -/
def NoLine (document : Document) (line : Nat) (failure : Failure) : Prop :=
  document.lineCount ≤ line ∧ failure = .lineOutOfRange line document.lineCount

/-- No group is open, and the failure says so. -/
def NoGroup (document : Document) (failure : Failure) : Prop :=
  document.openGroups = 0 ∧ failure = .unbalancedGroup

theorem openGroups_eq_zero_iff : document.openGroups = 0 ↔ document.pending = none := by
  rw [openGroups]
  cases document.pending <;> simp

section Refusals

variable {causes : Failure → Prop} {edit : Document → Except Failure Document}

theorem refusedFor_of_error {failure : Failure} (hEdit : edit document = .error failure)
    (hCause : causes failure) : RefusedFor causes edit document where
  refused := fun _ => ⟨failure, hCause, Editing.run_act_of_error hEdit⟩
  made := fun hNone => absurd ⟨failure, hCause⟩ hNone

theorem refusedFor_of_ok {edited : Document} (hEdit : edit document = .ok edited)
    (hNone : ∀ failure, ¬ causes failure) : RefusedFor causes edit document where
  refused := fun ⟨failure, hCause⟩ => absurd hCause (hNone failure)
  made := fun _ => ⟨edited, Editing.run_act_of_ok hEdit⟩

/-- An edit that checks two offsets, one after the other, is refused for either. -/
theorem refusedFor_pastEnd {first second : Nat} {edited : Document}
    (hEdit : edit document =
      if document.length < first then .error (.offsetOutOfRange first document.length)
      else if document.length < second then .error (.offsetOutOfRange second document.length)
      else .ok edited) :
    RefusedFor (document.PastEnd [first, second]) edit document := by
  split at hEdit
  next hFirst => exact refusedFor_of_error hEdit ⟨first, List.mem_cons_self, hFirst, rfl⟩
  next hFirst =>
  split at hEdit
  next hSecond =>
    exact refusedFor_of_error hEdit
      ⟨second, List.mem_cons_of_mem first (List.mem_singleton_self second), hSecond, rfl⟩
  next hSecond =>
  refine refusedFor_of_ok hEdit ?_
  rintro failure ⟨offset, hMem, hPast, -⟩
  rcases List.mem_cons.mp hMem with rfl | hLast
  · exact hFirst hPast
  · obtain rfl := List.mem_singleton.mp hLast
    exact hSecond hPast

theorem refusedFor_select (selection : Selection) (document : Document) :
    RefusedFor (document.PastEnd [selection.anchor, selection.head]) (·.select selection)
      document :=
  refusedFor_pastEnd (select_eq selection document)

theorem refusedFor_setCaret (offset : Nat) (document : Document) :
    RefusedFor (document.PastEnd [offset]) (·.setCaret offset) document := by
  have hSame : document.PastEnd [offset, offset] = document.PastEnd [offset] := by
    funext failure
    simp [PastEnd]
  rw [← hSame]
  exact refusedFor_select (.caret offset) document

/-- A line that is there starts within the text, so moving there is not refused. -/
theorem refusedFor_goToLine (number : Nat) (document : Document) :
    RefusedFor (document.NoLine (number - 1)) (·.goToLine number) document := by
  by_cases hLine : document.lineCount ≤ number - 1
  · refine refusedFor_of_error ?_ ⟨hLine, rfl⟩
    rw [goToLine, lineStart, checkLine, if_pos hLine]
    rfl
  · have hStart := lineStart_of_lt (Nat.lt_of_not_ge hLine)
    have hGo : document.goToLine number =
        .ok { document with selection := .caret (skipLines (number - 1) document.text) } := by
      rw [goToLine, hStart]
      exact select_of_within (Selection.within_caret (skipLines_le (number - 1) document.text))
    exact refusedFor_of_ok hGo fun failure hNone => hLine hNone.1

theorem refusedFor_replace (range : Range) (text : List Char) (document : Document) :
    RefusedFor (document.PastEnd [range.stop, range.start]) (·.replace range text) document := by
  have hEdit := replace_eq range text document
  rw [← apply_ite] at hEdit
  exact refusedFor_pastEnd hEdit

theorem refusedFor_closeGroup (document : Document) :
    RefusedFor document.NoGroup (·.closeGroup) document := by
  cases hPending : document.pending with
  | none =>
      refine refusedFor_of_error ?_ ⟨openGroups_eq_zero_iff.mpr hPending, rfl⟩
      rw [closeGroup, hPending]
  | some pending =>
      have hOpen (failure : Failure) : ¬ document.NoGroup failure := by
        rintro ⟨hNone, -⟩
        rw [openGroups_eq_zero_iff, hPending] at hNone
        cases hNone
      obtain ⟨group, nested⟩ := pending
      cases nested with
      | zero => exact refusedFor_of_ok (closeGroup_outermost hPending) hOpen
      | succ nested => exact refusedFor_of_ok (closeGroup_nested hPending) hOpen

end Refusals

/-! ### What is recorded -/

/-- The change is recorded as the newest of the open group. If none is open, it is a group of its
own and goes back to the selection from before it. -/
def Recorded (change : Change) (before after : Document) : Prop :=
  match before.pending with
  | some group =>
    after.history = before.history ∧
      after.pending = some { group with
        group := { group.group with changes := change :: group.group.changes } }
  | none =>
    after.history = ⟨[change], before.selection⟩ :: before.history ∧ after.pending = none

theorem recorded_changed (range : Range) (text : List Char) (document : Document) :
    Recorded (document.changeOf range text) document (document.changed range text) := by
  have hHistory := changed_history range text document
  have hPending := changed_pending range text document
  rw [Recorded]
  split
  next group hOpen =>
    rw [hOpen] at hHistory hPending
    exact ⟨hHistory, hPending⟩
  next hClosed =>
    rw [hClosed] at hHistory hPending
    exact ⟨hHistory, hPending⟩

theorem eq_of_replace {range : Range} {text : List Char}
    (hReplace : before.replace range text = .ok after) :
    after = if range.low = range.high ∧ text = [] then before else before.changed range text := by
  have hHigh := Nat.max_le.mp (replace_cases hReplace).1
  rw [replace_of_le text hHigh.1 hHigh.2, ← apply_ite] at hReplace
  exact (Except.ok.inj hReplace).symm

theorem recorded_of_replace {range : Range} {text : List Char}
    (hReplace : before.replace range text = .ok after)
    (hChanges : range.low < range.high ∨ text ≠ []) :
    Recorded (before.changeOf range text) before after := by
  have hNot : ¬ (range.low = range.high ∧ text = []) := by
    rintro ⟨hEmpty, hNil⟩
    exact hChanges.elim (fun hLess => Nat.ne_of_lt hLess hEmpty) (fun hSome => hSome hNil)
  have hAfter := eq_of_replace hReplace
  rw [if_neg hNot] at hAfter
  exact hAfter ▸ recorded_changed range text before

/-! ### Groups that fail -/

/-- `after` comes from `before` by edits, of which `changes` changed the text, by moves of the
selection, and by groups that are closed again and do the same inside. An edit that is refused
leaves no trace, and nothing is undone. -/
inductive BalancedRun : (changes : Nat) → (before after : Document) → Prop
  | done (document : Document) : BalancedRun 0 document document
  | select {changes : Nat} {before middle after : Document} {selection : Selection}
      (hSelect : before.select selection = .ok middle) (hRest : BalancedRun changes middle after) :
      BalancedRun changes before after
  | replace {changes : Nat} {before middle after : Document} {range : Range} {text : List Char}
      (hReplace : before.replace range text = .ok middle)
      (hRest : BalancedRun changes middle after) :
      BalancedRun (changes + if range.low = range.high ∧ text = [] then 0 else 1) before after
  | group {inner changes : Nat} {before inside closed after : Document}
      (hInside : BalancedRun inner before.openGroup inside)
      (hClose : inside.closeGroup = .ok closed) (hRest : BalancedRun changes closed after) :
      BalancedRun (inner + changes) before after

theorem eq_of_select {selection : Selection} (hSelect : before.select selection = .ok after) :
    after = { before with selection := selection } := by
  rw [select_eq] at hSelect
  split at hSelect
  · cases hSelect
  split at hSelect
  · cases hSelect
  exact (Except.ok.inj hSelect).symm

/-- Where the selection is makes no difference to closing a group. -/
theorem closeGroup_select (selection : Selection) (document : Document) :
    ({ document with selection := selection } : Document).closeGroup =
      document.closeGroup.map fun closed => { closed with selection := selection } := by
  obtain ⟨text, old, history, pending⟩ := document
  cases pending with
  | none => rfl
  | some pending =>
      obtain ⟨group, nested⟩ := pending
      cases nested with
      | zero => rfl
      | succ nested => rfl

/-- Nor does it make one to what has been recorded since. -/
theorem Logged.reselect {changes : List Change} (h : Logged changes before after)
    (selection : Selection) :
    Logged changes { before with selection := selection }
      { after with selection := selection } where
  history := h.history
  pending := h.pending
  revert := h.revert
  still := fun hNil => by rw [h.still hNil]

theorem Logged.pending_ne {changes : List Change} (h : Logged changes before after)
    (hOpen : before.pending ≠ none) : after.pending ≠ none := by
  rw [h.pending, ne_eq, Option.map_eq_none_iff]
  exact hOpen

/-- All changes of a balanced run in an open group are recorded in that group, those of groups
within it included, and they lead back to the text before the run. Only the selection may have moved
without a change. -/
theorem BalancedRun.logged {count : Nat} (h : BalancedRun count before after)
    (hOpen : before.pending ≠ none) :
    ∃ changes : List Change, changes.length = count ∧
      Logged changes before { after with selection := before.selection } := by
  induction h with
  | done document => exact ⟨[], rfl, .refl document⟩
  | @select _ before _ _ selection hSelect hRest ih =>
      obtain rfl := eq_of_select hSelect
      obtain ⟨changes, hLength, hLogged⟩ := ih hOpen
      exact ⟨changes, hLength, hLogged.reselect before.selection⟩
  | @replace _ before middle after range text hReplace hRest ih =>
      have hMiddle := eq_of_replace hReplace
      split at hMiddle
      next hStill =>
        obtain ⟨changes, hLength, hLogged⟩ := ih (hMiddle ▸ hOpen)
        rw [if_pos hStill]
        exact ⟨changes, hLength, hMiddle ▸ hLogged⟩
      next hChanges =>
        have hFirst := logged_changed text (replace_cases hReplace).1 hOpen
        rw [← hMiddle] at hFirst
        obtain ⟨changes, hLength, hLogged⟩ := ih (hFirst.pending_ne hOpen)
        rw [if_neg hChanges]
        refine ⟨changes ++ [before.changeOf range text], ?_, ?_⟩
        · rw [List.length_append, hLength, List.length_singleton]
        · exact (hFirst.trans hLogged).select (by simp) before.selection
  | @group _ _ before inside closed after hInside hClose hRest ihInside ihRest =>
      obtain ⟨older, hOlderLength, hOlder⟩ := ihInside (openGroup_pending_ne before)
      obtain ⟨inner, hInner, -, -, hLogged⟩ := hOlder.closeGroup_inner hOpen
      rw [closeGroup_select, hClose] at hInner
      obtain rfl := Except.ok.inj hInner
      obtain ⟨newer, hNewerLength, hNewer⟩ := ihRest (hLogged.pending_ne hOpen)
      refine ⟨newer ++ older, ?_, hLogged.trans (hNewer.reselect before.selection)⟩
      rw [List.length_append, hOlderLength, hNewerLength, Nat.add_comm]

end Document

namespace Editing

open Document (BalancedRun)

variable {α : Type} {body : Editing α} {document edited : Document} {failure : Failure}
  {changes : Nat}

/-- A group whose body fails is closed all the same, and the failure of the body is the one that is
reported. If the body has changed the text, one undo gives back the document from before the group.
If not, nothing can be undone, and only the selection may have moved. -/
theorem grouped_of_error (hClosed : document.pending = none)
    (hRun : body.run document.openGroup = (.error failure, edited))
    (hFailure : failure.isFatal = false) (hBody : BalancedRun changes document.openGroup edited) :
    ∃ closed, (grouped body).run document = (.error failure, closed) ∧ closed.openGroups = 0 ∧
      closed.text = edited.text ∧ (0 < changes → closed.undo = .ok (true, document)) ∧
      (changes = 0 → closed = { document with selection := edited.selection }) := by
  obtain ⟨recorded, hLength, hLogged⟩ := hBody.logged (Document.openGroup_pending_ne document)
  have hClose := Document.closeGroup_select edited.selection
    { edited with selection := document.openGroup.selection }
  rw [hLogged.closeGroup_outer hClosed] at hClose
  refine ⟨{ edited with
      pending := none
      history := if recorded.isEmpty then document.history
        else ⟨recorded, document.selection⟩ :: document.history }, ?_, rfl, rfl, ?_, ?_⟩
  · rw [grouped, run_ofFunction, hRun]
    simp only [hFailure, Bool.false_eq_true, if_false]
    split
    next closed hClosing =>
      rw [hClose] at hClosing
      cases hClosing
      rfl
    next closing hClosing =>
      rw [hClose] at hClosing
      cases hClosing
  · intro hSome
    cases recorded with
    | nil => exact absurd hLength (Nat.ne_of_lt hSome)
    | cons change older =>
        rw [Document.undo_cons rfl hLogged.revert]
        simp only [Document.openGroup, ← hClosed]
  · intro hNone
    obtain rfl := List.eq_nil_of_length_eq_zero (hLength.trans hNone)
    have hSame := hLogged.still rfl
    have hText : edited.text = document.text := congrArg (·.text) hSame
    simp only [List.isEmpty_nil, if_true, hText, ← hClosed]

end Editing

namespace Document

/-- Single edits and closing a group are refused for what is out of range and for nothing else, and
then they change nothing. A replacement that is made is recorded as one change, unless nothing gave
way to nothing. A group whose body fails after it has changed the text is one undo. -/
theorem edits_all_or_nothing (document : Document) :
    ((∀ selection : Selection, RefusedFor (document.PastEnd [selection.anchor, selection.head])
        (·.select selection) document) ∧
      (∀ offset, RefusedFor (document.PastEnd [offset]) (·.setCaret offset) document) ∧
      (∀ number, RefusedFor (document.NoLine (number - 1)) (·.goToLine number) document) ∧
      (∀ (range : Range) (text : List Char),
        RefusedFor (document.PastEnd [range.stop, range.start]) (·.replace range text) document) ∧
      (∀ edit : Replacement, RefusedFor (document.PastEnd [edit.range.stop, edit.range.start])
        (·.replace edit.range edit.text) document) ∧
      RefusedFor document.NoGroup (·.closeGroup) document) ∧
    (∀ (range : Range) (text : List Char) (edited : Document),
      document.replace range text = .ok edited →
        Replaced range text document edited ∧
          (range.low < range.high ∨ text ≠ [] →
            Recorded (document.changeOf range text) document edited)) ∧
    ∀ {α : Type} (body : Editing α) (failure : Failure) (edited : Document) (changes : Nat),
      document.openGroups = 0 → body.run document.openGroup = (.error failure, edited) →
        failure.isFatal = false → BalancedRun changes document.openGroup edited →
          ∃ closed, (Editing.grouped body).run document = (.error failure, closed) ∧
            closed.openGroups = 0 ∧ closed.text = edited.text ∧
            (0 < changes → closed.undo = .ok (true, document)) ∧
            (changes = 0 → closed = { document with selection := edited.selection }) := by
  refine ⟨⟨?_, ?_, ?_, ?_, ?_, ?_⟩, ?_, ?_⟩
  · exact fun selection => refusedFor_select selection document
  · exact fun offset => refusedFor_setCaret offset document
  · exact fun number => refusedFor_goToLine number document
  · exact fun range text => refusedFor_replace range text document
  · exact fun edit => refusedFor_replace edit.range edit.text document
  · exact refusedFor_closeGroup document
  · intro range text edited hReplace
    exact ⟨replaced_of_ok hReplace, recorded_of_replace hReplace⟩
  · intro α body failure edited changes hClosed hRun hFailure hBody
    exact Editing.grouped_of_error (openGroups_eq_zero_iff.mp hClosed) hRun hFailure hBody

/-- A replacement, another one in a group of its own, and a move past the end. -/
theorem edits_all_or_nothing_past_end :
    let document : Document := ⟨['a', 'b'], ⟨1, 2⟩, [], none⟩
    let body : Editing Unit := do
      Editing.act (·.replace ⟨1, 0⟩ ['x', 'y'])
      Editing.grouped (Editing.act (·.insert ['z']))
      Editing.act (·.setCaret 9)
    ∃ closed, (Editing.grouped body).run document = (.error (.offsetOutOfRange 9 4), closed) ∧
      closed.text = ['x', 'y', 'z', 'b'] ∧ closed.undo = .ok (true, document) := by
  intro document body
  let typed : Document := ⟨['x', 'y', 'b'], .caret 2, [], some ⟨⟨[⟨0, ['a'], 2⟩], ⟨1, 2⟩⟩, 0⟩⟩
  let edited : Document := ⟨['x', 'y', 'z', 'b'], .caret 3, [],
    some ⟨⟨[⟨2, [], 1⟩, ⟨0, ['a'], 2⟩], ⟨1, 2⟩⟩, 0⟩⟩
  have hTyped : document.openGroup.replace ⟨1, 0⟩ ['x', 'y'] = .ok typed := rfl
  have hInside : typed.openGroup.replace ⟨2, 2⟩ ['z'] = .ok edited.openGroup := rfl
  have hBody : BalancedRun 2 document.openGroup edited :=
    .replace hTyped (.group (.replace hInside (.done _)) rfl (.done edited))
  obtain ⟨closed, hRun, -, hText, hUndo, -⟩ := (edits_all_or_nothing document).2.2 body
    (.offsetOutOfRange 9 4) edited 2 rfl rfl rfl hBody
  exact ⟨closed, hRun, hText, hUndo (by decide)⟩

end Document

end EditAssist
